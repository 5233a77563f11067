import OperationScan.Proofs.Inputs.Standings

/-!
# Adding an input

An input leads to files or cannot be followed, or it is an address: one that has been asked for
before, one at which there is no text, one whose host makes no sense, or one of a script.

* `Names`, `Sensible`: what an input names, and the inputs that are answered with a number.
* `Sources.Adds`: the ways in which an input may be added.
* `Sources.Gains`: what some inputs have added to sources.
* `Sources.Kept.add`, `Sources.Kept.gains_add`: adding keeps sources in order and adds what the
  input names.
* `Sources.Kept.add_again`: adding an input again changes nothing.
-/

namespace OperationScan

/-- What an input names. -/
inductive Names (how : Fetching) (files : FileTree) (input : Text) : Standing → Prop where
  | file {paths : List Path} {path : Path} (hlocal : Url.isRemote input = false)
      (hpaths : expandInput files input = .ok paths) (hpath : path ∈ paths) :
      Names how files input (.file (files.placeOf path.text))
  | script (hremote : Url.isRemote input = true) (harrives : how.Arrives input) :
      Names how files input (.script input)

/-- An input makes sense: the file system follows it wherever it leads, and if there is a text at its
address, the host in the address can be read. -/
structure Sensible (how : Fetching) (files : FileTree) (input : Text) : Prop where
  path : Url.isRemote input = false → ∃ paths, expandInput files input = .ok paths
  address : Url.isRemote input = true → ∀ text, how.network input = .ok text →
    ∃ suffix, Url.suffix input = .ok suffix

namespace Sources

/-- What some inputs have added to sources. -/
structure Gains (how : Fetching) (files : FileTree) (inputs : List Text) (s s' : Sources) :
    Prop where
  tasks : s.tasks <+: s'.tasks
  standings : ∀ st, st ∈ s'.standings files ↔
    st ∈ s.standings files ∨ ∃ input ∈ inputs, Names how files input st
  requested : ∀ url, url ∈ s'.requested ↔
    url ∈ s.requested ∨ (url ∈ inputs ∧ Url.isRemote url = true)

variable {how : Fetching} {files : FileTree} {input : Text} {s s' s'' : Sources}

/-! ## What inputs name -/

theorem names_local_iff {paths : List Path} {st : Standing} (hlocal : Url.isRemote input = false)
    (hpaths : expandInput files input = .ok paths) :
    Names how files input st ↔ ∃ path ∈ paths, st = .file (files.placeOf path.text) := by
  constructor
  · rintro (⟨-, hpaths', hpath⟩ | ⟨hremote, -⟩)
    · cases hpaths.symm.trans hpaths'
      exact ⟨_, hpath, rfl⟩
    · cases hlocal.symm.trans hremote
  · rintro ⟨path, hpath, rfl⟩
    exact .file hlocal hpaths hpath

theorem not_names_of_error {f : PathFault} {st : Standing} (hlocal : Url.isRemote input = false)
    (hpaths : expandInput files input = .error f) : ¬ Names how files input st := by
  rintro (⟨-, hpaths', -⟩ | ⟨hremote, -⟩)
  · cases hpaths.symm.trans hpaths'
  · cases hlocal.symm.trans hremote

theorem names_remote_iff {st : Standing} (hremote : Url.isRemote input = true) :
    Names how files input st ↔ st = .script input ∧ how.Arrives input := by
  constructor
  · rintro (⟨hlocal, -, -⟩ | ⟨-, harrives⟩)
    · cases hremote.symm.trans hlocal
    · exact ⟨rfl, harrives⟩
  · rintro ⟨rfl, harrives⟩
    exact .script hremote harrives

theorem sensible_of_paths {paths : List Path} (hlocal : Url.isRemote input = false)
    (hpaths : expandInput files input = .ok paths) : Sensible how files input where
  path _ := ⟨paths, hpaths⟩
  address hremote := nomatch hlocal.symm.trans hremote

theorem sensible_of_address (hremote : Url.isRemote input = true)
    (h : ∀ text, how.network input = .ok text → ∃ suffix, Url.suffix input = .ok suffix) :
    Sensible how files input where
  path hlocal := nomatch hremote.symm.trans hlocal
  address _ := h

theorem Gains.refl (how : Fetching) (files : FileTree) (s : Sources) : Gains how files [] s s :=
  ⟨List.prefix_refl _, by simp, by simp⟩

theorem Gains.trans {inputs more : List Text} (h : Gains how files inputs s s')
    (h' : Gains how files more s' s'') : Gains how files (inputs ++ more) s s'' := by
  refine ⟨h.tasks.trans h'.tasks, fun st => ?_, fun url => ?_⟩
  · simp only [h'.standings, h.standings, List.mem_append, or_and_right, exists_or, or_assoc]
  · simp only [h'.requested, h.requested, List.mem_append, or_and_right, or_assoc]

theorem Gains.single (htasks : s.tasks <+: s'.tasks)
    (hstandings : ∀ st, st ∈ s'.standings files ↔ st ∈ s.standings files ∨ Names how files input st)
    (hrequested : ∀ url, url ∈ s'.requested ↔
      url ∈ s.requested ∨ (url = input ∧ Url.isRemote input = true)) :
    Gains how files [input] s s' := by
  refine ⟨htasks, fun st => by simpa using hstandings st, fun url => (hrequested url).trans ?_⟩
  rw [List.mem_singleton]
  refine or_congr_right (and_congr_right ?_)
  rintro rfl
  rfl

theorem mem_asked (hremote : Url.isRemote input = true) (url : Text) :
    url ∈ s.requested ++ [input] ↔
      url ∈ s.requested ∨ (url = input ∧ Url.isRemote input = true) := by
  simp [hremote]

/-! ## The ways of an input -/

/-- The ways in which an input may be added. -/
inductive Adds (how : Fetching) (input : Text) (s : Sources) :
    Except InputFault Nat → Sources → Prop where
  | lost {f : PathFault} (hlocal : Url.isRemote input = false)
      (hpaths : expandInput s.files input = .error f) : Adds how input s (.error (.path f)) s
  | found {paths : List Path} (hlocal : Url.isRemote input = false)
      (hpaths : expandInput s.files input = .ok paths) (log : List LogLine) :
      Adds how input s (.ok ((paths.foldl addFile s).tasks.length - s.tasks.length))
        { paths.foldl addFile s with log := log }
  | again (hremote : Url.isRemote input = true) (hseen : input ∈ s.seen) :
      Adds how input s (.ok 0) s
  | failed {e : ErrorRecord} (hremote : Url.isRemote input = true) (hnew : input ∉ s.seen)
      (herror : how.failure? input = some e) (log : List LogLine) :
      Adds how input s (.ok 0) { s.asked input log with errors := s.errors ++ [e] }
  | astray {f : UrlFault} {text : Text} (hremote : Url.isRemote input = true)
      (hnew : input ∉ s.seen) (htext : how.network input = .ok text)
      (hsuffix : Url.suffix input = .error f) (log : List LogLine) :
      Adds how input s (.error (.address f)) (s.asked input log)
  | fetched {text suffix : Text} (hremote : Url.isRemote input = true) (hnew : input ∉ s.seen)
      (htext : how.network input = .ok text) (hsuffix : Url.suffix input = .ok suffix)
      (log : List LogLine) :
      Adds how input s (.ok 1) ((s.asked input log).fetched
        (how.downloads ++ '/' :: downloadName s.tasks.length suffix) input text)

theorem adds_addLocal (how : Fetching) (s : Sources) (hlocal : Url.isRemote input = false) :
    Adds how input s (s.addLocal how.verbose input).1 (s.addLocal how.verbose input).2 := by
  unfold addLocal
  cases hpaths : expandInput s.files input with
  | error f => exact .lost hlocal hpaths
  | ok paths =>
    dsimp only
    split
    · exact .found hlocal hpaths _
    · exact .found hlocal hpaths (paths.foldl Sources.addFile s).log

theorem adds_addRemote (how : Fetching) (s : Sources) (hremote : Url.isRemote input = true) :
    Adds how input s (s.addRemote how input).1 (s.addRemote how input).2 := by
  unfold addRemote
  split
  · rename_i hseen
    exact .again hremote (List.contains_iff_mem.mp hseen)
  · rename_i hnew
    rw [List.contains_iff_mem] at hnew
    dsimp only
    cases htext : how.network input with
    | error reason =>
      have herror : how.failure? input = some ⟨"failed to fetch ".toList ++ input ++
          ": ".toList ++ reason, .unreadable, input⟩ := by
        rw [Fetching.failure?, htext]
      dsimp only
      split
      · exact .failed hremote hnew herror _
      · exact .failed hremote hnew herror _
    | ok text =>
      dsimp only
      cases hsuffix : Url.suffix input with
      | error f => exact .astray hremote hnew htext hsuffix _
      | ok suffix =>
        dsimp only
        rw [nextDownload_eq]
        exact .fetched hremote hnew htext hsuffix _

theorem adds_add (how : Fetching) (input : Text) (s : Sources) :
    Adds how input s (s.add how input).1 (s.add how input).2 := by
  unfold add
  split
  · rename_i hremote
    exact adds_addRemote how s hremote
  · rename_i hlocal
    exact adds_addLocal how s (Bool.eq_false_of_not_eq_true hlocal)

/-! ## What an input keeps and adds -/

/-- Adding an input keeps sources in order. -/
theorem Kept.add (h : Kept how files s) (hroot : how.downloads.head? = some '/') (input : Text) :
    Kept how files (s.add how input).2 := by
  have hadds := adds_add how input s
  generalize (s.add how input).1 = result at hadds
  generalize (s.add how input).2 = after at hadds ⊢
  cases hadds with
  | lost => exact h
  | found hlocal hpaths log => exact (h.addFiles _).withLog log
  | again => exact h
  | failed hremote hnew herror log => exact h.failed hremote hnew herror log
  | astray hremote hnew htext hsuffix log => exact h.astray hremote hnew htext hsuffix log
  | fetched hremote hnew htext hsuffix log =>
    exact h.fetched hroot hremote hnew htext hsuffix log

/-- Adding an input adds what it names, and nothing else. -/
theorem Kept.gains_add (h : Kept how files s) (hroot : how.downloads.head? = some '/')
    (hapart : Url.isRemote input = false → Apart how.downloads files input) :
    Gains how files [input] s (s.add how input).2 := by
  have hadds := adds_add how input s
  generalize (s.add how input).1 = result at hadds
  generalize (s.add how input).2 = after at hadds ⊢
  cases hadds with
  | lost hlocal hpaths =>
    rw [hapart hlocal _ h.downloaded] at hpaths
    exact .single (List.prefix_refl _)
      (fun st => (or_iff_left (not_names_of_error hlocal hpaths)).symm) (by simp [hlocal])
  | @found paths hlocal hpaths log =>
    rw [hapart hlocal _ h.downloaded] at hpaths
    refine .single (s.tasks_addFiles paths) (fun st => ?_) (fun url => ?_)
    · rw [names_local_iff hlocal hpaths]
      exact h.mem_standings_addFiles paths st
    · simp [hlocal, s.requested_addFiles paths]
  | again hremote hseen =>
    -- the address has its task already, if there is a script at it
    have hrequested := (h.url_mem_seen hremote).mp hseen
    refine .single (List.prefix_refl _) (fun st => ?_) (fun url => ?_)
    · rw [names_remote_iff hremote]
      refine (or_iff_left_of_imp ?_).symm
      rintro ⟨rfl, harrives⟩
      exact (h.scripts input).mpr ⟨hrequested, harrives⟩
    · refine (or_iff_left_of_imp ?_).symm
      rintro ⟨rfl, -⟩
      exact hrequested
  | failed hremote hnew herror log =>
    refine .single (List.prefix_refl _) (fun st => ?_) (mem_asked hremote)
    rw [names_remote_iff hremote]
    exact (or_iff_left fun hst => not_arrives_of_failure? herror hst.2).symm
  | astray hremote hnew htext hsuffix log =>
    refine .single (List.prefix_refl _) (fun st => ?_) (mem_asked hremote)
    rw [names_remote_iff hremote]
    exact (or_iff_left fun hst => not_arrives_of_suffix hsuffix hst.2).symm
  | @fetched text suffix hremote hnew htext hsuffix log =>
    refine .single (List.prefix_append _ _) (fun st => ?_) (mem_asked hremote)
    rw [names_remote_iff hremote,
      mem_standings_fetched files _ text (isRemote_download hroot hremote none)]
    exact or_congr_right (iff_self_and.mpr fun _ => ⟨_, _, htext, hsuffix⟩)

/-- The number that is given back is that of the new tasks. -/
theorem length_add {n : Nat} (hn : (s.add how input).1 = .ok n) :
    (s.add how input).2.tasks.length = s.tasks.length + n := by
  have hadds := adds_add how input s
  rw [hn] at hadds
  generalize (s.add how input).2 = after at hadds
  cases hadds with
  | @found paths hlocal hpaths log =>
    exact (Nat.add_sub_cancel' (s.tasks_addFiles paths).length_le).symm
  | again => rfl
  | failed => rfl
  | fetched => exact List.length_append

variable (hapart : Url.isRemote input = false → Apart how.downloads files input)

include hapart

/-- An input that makes sense is added. -/
theorem Kept.exists_add (h : Kept how files s) (hsensible : Sensible how files input) :
    ∃ n, (s.add how input).1 = .ok n := by
  have hadds := adds_add how input s
  generalize (s.add how input).1 = result at hadds ⊢
  generalize (s.add how input).2 = after at hadds
  cases hadds with
  | lost hlocal hpaths =>
    rw [hapart hlocal _ h.downloaded] at hpaths
    obtain ⟨paths, hpaths'⟩ := hsensible.path hlocal
    cases hpaths.symm.trans hpaths'
  | found => exact ⟨_, rfl⟩
  | again => exact ⟨_, rfl⟩
  | failed => exact ⟨_, rfl⟩
  | astray hremote hnew htext hsuffix =>
    obtain ⟨suffix, hsuffix'⟩ := hsensible.address hremote _ htext
    cases hsuffix.symm.trans hsuffix'
  | fetched => exact ⟨_, rfl⟩

/-- An input that is added makes sense, if the addresses asked for before do. -/
theorem Kept.sensible_of_add (h : Kept how files s)
    (hpast : ∀ url ∈ s.requested, Sensible how files url) {n : Nat}
    (hn : (s.add how input).1 = .ok n) : Sensible how files input := by
  have hadds := adds_add how input s
  rw [hn] at hadds
  generalize (s.add how input).2 = after at hadds
  cases hadds with
  | found hlocal hpaths log =>
    rw [hapart hlocal _ h.downloaded] at hpaths
    exact sensible_of_paths hlocal hpaths
  | again hremote hseen => exact hpast input ((h.url_mem_seen hremote).mp hseen)
  | failed hremote hnew herror log =>
    refine sensible_of_address hremote fun text htext => ?_
    cases (failure?_of_ok htext).symm.trans herror
  | fetched hremote hnew htext hsuffix log =>
    exact sensible_of_address hremote fun _ _ => ⟨_, hsuffix⟩

/-- Adding an input again changes nothing but the log. -/
theorem Kept.add_again (h : Kept how files s) (hsensible : Sensible how files input)
    (hnames : ∀ st, Names how files input st → st ∈ s.standings files)
    (hasked : Url.isRemote input = true → input ∈ s.requested) :
    ∃ log, s.add how input = (.ok 0, { s with log := log }) := by
  unfold Sources.add
  split
  · rename_i hremote
    have hseen := (h.url_mem_seen hremote).mpr (hasked hremote)
    refine ⟨s.log, ?_⟩
    rw [addRemote, if_pos (List.contains_iff_mem.mpr hseen)]
  · rename_i hlocal
    rw [Bool.not_eq_true] at hlocal
    obtain ⟨paths, hpaths⟩ := hsensible.path hlocal
    have hsame := h.addFiles_of_mem fun path hpath => hnames _ (.file hlocal hpaths hpath)
    rw [addLocal, hapart hlocal _ h.downloaded, hpaths]
    dsimp only
    rw [hsame, Nat.sub_self]
    split
    · exact ⟨_, rfl⟩
    · exact ⟨s.log, rfl⟩

end Sources

end OperationScan
