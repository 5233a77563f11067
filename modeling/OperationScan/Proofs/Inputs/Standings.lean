import Mathlib.Data.List.Nodup
import OperationScan.Proofs.Inputs.Downloads

/-!
# What tasks stand for

A task stands for a file, told by its place, or for a remote script, told by its address. One list
of what has been seen serves both, since a place begins with a slash and an address does not.

* `Standing`: what a task stands for.
* `Sources.Kept`: what holds of sources however they came about.
* `Sources.Kept.addFiles`, `Sources.Kept.failed`, `Sources.Kept.fetched`: files, errors and
  downloads keep sources in order.
-/

namespace OperationScan

/-- A file, given by its place, or a remote script, given by its address. -/
inductive Standing where
  | file (place : Text)
  | script (address : Text)

/-- The place of a path as a text. -/
def FileTree.placeOf (t : FileTree) (path : Text) : Text := '/' :: Text.join ['/'] (t.resolve path)

/-- The task is for a download. -/
def Task.IsRemote (t : Task) : Prop := t.locator ≠ t.origin

instance (t : Task) : Decidable t.IsRemote := inferInstanceAs (Decidable (_ ≠ _))

/-- What a task stands for. -/
def Task.standing (files : FileTree) (t : Task) : Standing :=
  if t.IsRemote then .script t.origin else .file (files.placeOf t.locator)

namespace Fetching

/-- There is a script to be had at an address. -/
def Arrives (how : Fetching) (url : Text) : Prop :=
  ∃ text suffix, how.network url = .ok text ∧ Url.suffix url = .ok suffix

/-- The error for an address at which there is no text. -/
def failure? (how : Fetching) (url : Text) : Option ErrorRecord :=
  match how.network url with
  | .ok _ => none
  | .error reason =>
    some ⟨"failed to fetch ".toList ++ url ++ ": ".toList ++ reason, .unreadable, url⟩

end Fetching

namespace Sources

/-- What the tasks stand for. -/
def standings (files : FileTree) (s : Sources) : List Standing := s.tasks.map (Task.standing files)

/-- The task at a position is for a download, and the text from its address is where it says. -/
def Holds (how : Fetching) (files : FileTree) (n : Nat) (t : Task) : Prop :=
  ∃ text suffix, how.network t.origin = .ok text ∧ Url.suffix t.origin = .ok suffix ∧
    t.locator = how.downloads ++ '/' :: downloadName n suffix ∧
    files.held? t.locator = some (.file (Text.Utf8.encode text))

/-- What holds of sources however they came about: no two tasks stand for the same, every address
that was asked for and has no text has given one error and no task, and every download is where its
task says. -/
structure Kept (how : Fetching) (files : FileTree) (s : Sources) : Prop where
  downloaded : Downloaded how.downloads files s.files
  standings : (s.standings files).Nodup
  requested : s.requested.Nodup
  remote : ∀ url ∈ s.requested, Url.isRemote url = true
  seen : ∀ key, key ∈ s.seen ↔ key ∈ s.requested ∨ .file key ∈ s.standings files
  scripts : ∀ url, .script url ∈ s.standings files ↔ url ∈ s.requested ∧ how.Arrives url
  errors : s.errors = s.requested.filterMap how.failure?
  holds : ∀ n t, s.tasks[n]? = some t → t.IsRemote → Holds how s.files n t

variable {how : Fetching} {files : FileTree} {url : Text} {s s' : Sources}

theorem kept_empty (how : Fetching) (files : FileTree) : Kept how files (.empty files) where
  downloaded := .none
  standings := List.nodup_nil
  requested := List.nodup_nil
  remote := List.forall_mem_nil _
  seen := by simp [empty, Sources.standings]
  scripts := by simp [empty, Sources.standings]
  errors := rfl
  holds := by simp [empty]

/-! ## Places and addresses -/

/-- An address begins with the first letter of its scheme. -/
theorem isRemote_of_head? {t : Text} (h : t.head? = some '/') : Url.isRemote t = false := by
  obtain ⟨rest, rfl⟩ := List.head?_eq_some_iff.mp h
  have hfirst : ∀ more : Text, Text.startsFolded ('h' :: more) ('/' :: rest) = false := by
    intro more
    rw [Text.startsFolded]
    rfl
  rw [Url.isRemote, Bool.or_eq_false_iff]
  exact ⟨hfirst _, hfirst _⟩

theorem isRemote_placeOf (files : FileTree) (path : Text) :
    Url.isRemote (files.placeOf path) = false :=
  isRemote_of_head? rfl

theorem Kept.placeOf_mem_seen (h : Kept how files s) (path : Text) :
    files.placeOf path ∈ s.seen ↔ .file (files.placeOf path) ∈ s.standings files := by
  rw [h.seen]
  refine or_iff_right fun hmem => ?_
  have hremote := h.remote _ hmem
  rw [isRemote_placeOf] at hremote
  cases hremote

theorem Kept.url_mem_seen (h : Kept how files s) (hremote : Url.isRemote url = true) :
    url ∈ s.seen ↔ url ∈ s.requested := by
  rw [h.seen]
  refine or_iff_left fun hmem => ?_
  obtain ⟨t, -, ht⟩ := List.mem_map.mp hmem
  unfold Task.standing at ht
  split at ht
  · cases ht
  · cases ht
    rw [isRemote_placeOf] at hremote
    cases hremote

theorem at_concat {tasks : List Task} {t u : Task} {n : Nat} (h : (tasks ++ [t])[n]? = some u) :
    tasks[n]? = some u ∨ (n = tasks.length ∧ u = t) := by
  rw [List.getElem?_append] at h
  split at h
  · exact .inl h
  · rw [List.getElem?_singleton] at h
    split at h
    · exact .inr ⟨by omega, (Option.some.inj h).symm⟩
    · cases h

/-! ## New tasks -/

theorem standing_file (files : FileTree) (path : Text) (content : Option Text) :
    Task.standing files ⟨path, path, content⟩ = .file (files.placeOf path) :=
  if_neg fun hne => hne rfl

theorem standing_script (files : FileTree) {t : Task} (h : t.IsRemote) :
    t.standing files = .script t.origin :=
  if_pos h

theorem standings_concat (files : FileTree) {t : Task} (h : s'.tasks = s.tasks ++ [t]) :
    s'.standings files = s.standings files ++ [t.standing files] := by
  rw [Sources.standings, h, List.map_append]
  rfl

theorem mem_standings_concat (files : FileTree) {t : Task} (h : s'.tasks = s.tasks ++ [t])
    (st : Standing) :
    st ∈ s'.standings files ↔ st ∈ s.standings files ∨ st = t.standing files := by
  rw [standings_concat files h, List.mem_append, List.mem_singleton]

theorem nodup_concat {α : Type} {xs : List α} {x : α} (h : xs.Nodup) (hx : x ∉ xs) :
    (xs ++ [x]).Nodup := by
  rw [← List.concat_eq_append]
  exact h.concat hx

/-! ## Files -/

theorem Kept.addFile_cases (h : Kept how files s) (path : Path) :
    (.file (files.placeOf path.text) ∈ s.standings files ∧ s.addFile path = s) ∨
      (.file (files.placeOf path.text) ∉ s.standings files ∧
        s.addFile path = { s with
          seen := s.seen ++ [files.placeOf path.text]
          tasks := s.tasks ++ [⟨path.text, path.text, none⟩] }) := by
  -- downloads do not change where a path leads
  have hplace : s.files.placeOf path.text = files.placeOf path.text := by
    rw [FileTree.placeOf, FileTree.placeOf, h.downloaded.resolve_eq]
  have hseen := h.placeOf_mem_seen path.text
  rw [← hplace] at hseen ⊢
  by_cases hmem : s.files.placeOf path.text ∈ s.seen
  · exact .inl ⟨hseen.mp hmem, if_pos (List.contains_iff_mem.mpr hmem)⟩
  · exact .inr ⟨fun hst => hmem (hseen.mpr hst), if_neg (mt List.contains_iff_mem.mp hmem)⟩

theorem Kept.mem_standings_addFile (h : Kept how files s) (path : Path) (st : Standing) :
    st ∈ (s.addFile path).standings files ↔
      st ∈ s.standings files ∨ st = .file (files.placeOf path.text) := by
  rcases h.addFile_cases path with ⟨hold, heq⟩ | ⟨-, heq⟩
  · rw [heq]
    refine (or_iff_left_of_imp ?_).symm
    rintro rfl
    exact hold
  · rw [heq, ← standing_file files path.text none]
    exact mem_standings_concat files rfl st

theorem Kept.addFile (h : Kept how files s) (path : Path) : Kept how files (s.addFile path) := by
  have hmem := h.mem_standings_addFile path
  rcases h.addFile_cases path with ⟨-, heq⟩ | ⟨hnew, heq⟩
  · rwa [heq]
  · rw [heq] at hmem ⊢
    exact {
      downloaded := h.downloaded
      standings := by
        rw [standings_concat files rfl, standing_file]
        exact nodup_concat h.standings hnew
      requested := h.requested
      remote := h.remote
      seen := fun key => by
        rw [hmem, List.mem_append, h.seen, List.mem_singleton, or_assoc, Standing.file.injEq]
      scripts := fun url => by
        rw [hmem, ← h.scripts]
        simp
      errors := h.errors
      holds := fun n t ht hremote => by
        rcases at_concat ht with ht | ⟨-, rfl⟩
        · exact h.holds n t ht hremote
        · exact absurd rfl hremote }

theorem requested_addFile (s : Sources) (path : Path) :
    (s.addFile path).requested = s.requested := by
  unfold Sources.addFile
  dsimp only
  split <;> rfl

theorem tasks_addFile (s : Sources) (path : Path) : s.tasks <+: (s.addFile path).tasks := by
  unfold Sources.addFile
  dsimp only
  split
  · exact List.prefix_refl _
  · exact List.prefix_append _ _

theorem requested_addFiles (s : Sources) (paths : List Path) :
    (paths.foldl Sources.addFile s).requested = s.requested := by
  induction paths generalizing s with
  | nil => rfl
  | cons path rest ih => exact (ih _).trans (requested_addFile s path)

theorem tasks_addFiles (s : Sources) (paths : List Path) :
    s.tasks <+: (paths.foldl Sources.addFile s).tasks := by
  induction paths generalizing s with
  | nil => exact List.prefix_refl _
  | cons path rest ih => exact (tasks_addFile s path).trans (ih _)

theorem Kept.addFiles (h : Kept how files s) (paths : List Path) :
    Kept how files (paths.foldl Sources.addFile s) := by
  induction paths generalizing s with
  | nil => exact h
  | cons path rest ih => exact ih (h.addFile path)

theorem Kept.mem_standings_addFiles (h : Kept how files s) (paths : List Path) (st : Standing) :
    st ∈ (paths.foldl Sources.addFile s).standings files ↔
      st ∈ s.standings files ∨ ∃ path ∈ paths, st = .file (files.placeOf path.text) := by
  induction paths generalizing s with
  | nil => simp
  | cons path rest ih =>
    rw [List.foldl_cons, ih (h.addFile path), h.mem_standings_addFile, List.exists_mem_cons_iff,
      or_assoc]

/-- Files that all have tasks change nothing. -/
theorem Kept.addFiles_of_mem (h : Kept how files s) {paths : List Path}
    (hpaths : ∀ path ∈ paths, .file (files.placeOf path.text) ∈ s.standings files) :
    paths.foldl Sources.addFile s = s := by
  induction paths with
  | nil => rfl
  | cons path rest ih =>
    rw [List.forall_mem_cons] at hpaths
    rcases h.addFile_cases path with ⟨-, heq⟩ | ⟨hnew, -⟩
    · rw [List.foldl_cons, heq, ih hpaths.2]
    · exact absurd hpaths.1 hnew

/-! ## Addresses -/

/-- Sources in which an address has been asked for. -/
def asked (url : Text) (log : List LogLine) (s : Sources) : Sources :=
  { s with seen := s.seen ++ [url], requested := s.requested ++ [url], log := log }

/-- Sources with a download and the task for it. -/
def fetched (target url text : Text) (s : Sources) : Sources :=
  { s with
    files := s.files.put target (.file (Text.Utf8.encode text))
    tasks := s.tasks ++ [⟨target, url, none⟩] }

theorem standings_asked (files : FileTree) (url : Text) (log : List LogLine) (s : Sources) :
    (s.asked url log).standings files = s.standings files := rfl

theorem Kept.withLog (h : Kept how files s) (log : List LogLine) :
    Kept how files { s with log := log } :=
  ⟨h.downloaded, h.standings, h.requested, h.remote, h.seen, h.scripts, h.errors, h.holds⟩

theorem not_arrives_of_failure? {e : ErrorRecord} (h : how.failure? url = some e) :
    ¬ how.Arrives url := by
  rintro ⟨text, -, htext, -⟩
  rw [Fetching.failure?, htext] at h
  cases h

theorem not_arrives_of_suffix {f : UrlFault} (h : Url.suffix url = .error f) :
    ¬ how.Arrives url := by
  rintro ⟨-, suffix, -, hsuffix⟩
  cases h.symm.trans hsuffix

theorem failure?_of_ok {text : Text} (h : how.network url = .ok text) :
    how.failure? url = none := by
  rw [Fetching.failure?, h]

/-- An address that is new has not been asked for. -/
theorem Kept.nodup_asked (h : Kept how files s) (hremote : Url.isRemote url = true)
    (hnew : url ∉ s.seen) : (s.requested ++ [url]).Nodup := by
  rw [h.url_mem_seen hremote] at hnew
  exact nodup_concat h.requested hnew

theorem Kept.remote_asked (h : Kept how files s) (hremote : Url.isRemote url = true) :
    ∀ u ∈ s.requested ++ [url], Url.isRemote u = true := by
  intro u hu
  rcases List.mem_append.mp hu with hu | hu
  · exact h.remote u hu
  · rwa [List.mem_singleton.mp hu]

theorem Kept.seen_asked (h : Kept how files s) (url key : Text) :
    key ∈ s.seen ++ [url] ↔
      key ∈ s.requested ++ [url] ∨ .file key ∈ s.standings files := by
  rw [List.mem_append, h.seen, List.mem_append, or_right_comm]

/-- Asking for an address at which there is no script makes no task. -/
theorem Kept.scripts_asked (h : Kept how files s) (harrives : ¬ how.Arrives url) (u : Text) :
    .script u ∈ s.standings files ↔ u ∈ s.requested ++ [url] ∧ how.Arrives u := by
  rw [h.scripts, List.mem_append, List.mem_singleton]
  refine and_congr_left fun hu => (or_iff_left ?_).symm
  rintro rfl
  exact harrives hu

theorem Kept.failed (h : Kept how files s) {e : ErrorRecord} (hremote : Url.isRemote url = true)
    (hnew : url ∉ s.seen) (herror : how.failure? url = some e) (log : List LogLine) :
    Kept how files { s.asked url log with errors := s.errors ++ [e] } where
  downloaded := h.downloaded
  standings := h.standings
  requested := h.nodup_asked hremote hnew
  remote := h.remote_asked hremote
  seen := h.seen_asked url
  scripts := h.scripts_asked (not_arrives_of_failure? herror)
  errors := by
    rw [h.errors, asked, List.filterMap_append, List.filterMap_cons, herror, List.filterMap_nil]
  holds := h.holds

theorem Kept.astray (h : Kept how files s) {f : UrlFault} {text : Text}
    (hremote : Url.isRemote url = true) (hnew : url ∉ s.seen)
    (htext : how.network url = .ok text) (hsuffix : Url.suffix url = .error f)
    (log : List LogLine) : Kept how files (s.asked url log) where
  downloaded := h.downloaded
  standings := h.standings
  requested := h.nodup_asked hremote hnew
  remote := h.remote_asked hremote
  seen := h.seen_asked url
  scripts := h.scripts_asked (not_arrives_of_suffix hsuffix)
  errors := by
    rw [asked, List.filterMap_append, List.filterMap_cons, failure?_of_ok htext,
      List.filterMap_nil, List.append_nil]
    exact h.errors
  holds := h.holds

/-- A download is in the folder for downloads, and its address is not. -/
theorem isRemote_download {downloads name url : Text} (hroot : downloads.head? = some '/')
    (hremote : Url.isRemote url = true) (content : Option Text) :
    Task.IsRemote ⟨downloads ++ '/' :: name, url, content⟩ := by
  intro heq
  change downloads ++ '/' :: name = url at heq
  have hhead : (downloads ++ '/' :: name).head? = some '/' := by
    rw [List.head?_append, hroot, Option.some_or]
  have hlocal := isRemote_of_head? hhead
  rw [heq, hremote] at hlocal
  cases hlocal

theorem mem_standings_fetched (files : FileTree) (s : Sources) {target : Text} (text : Text)
    (h : Task.IsRemote ⟨target, url, none⟩) (st : Standing) :
    st ∈ (s.fetched target url text).standings files ↔
      st ∈ s.standings files ∨ st = .script url := by
  rw [mem_standings_concat files rfl, standing_script files h]

/-- A download leaves those for fewer tasks where they are. -/
theorem Holds.put {n m : Nat} {t : Task} {suffix : Text} {bytes : List UInt8}
    (h : Holds how files n t) (hroot : how.downloads.head? = some '/') (hsuffix : IsEnding suffix)
    (hn : n ≠ m) :
    Holds how (files.put (how.downloads ++ '/' :: downloadName m suffix) (.file bytes)) n t := by
  obtain ⟨text, suffix', htext, hsuffix', hlocator, hheld⟩ := h
  have hending := Url.isEnding_suffix hsuffix'
  have hplace := files.resolve_download m hroot hsuffix
  have hplace' := files.resolve_download n hroot hending
  refine ⟨text, suffix', htext, hsuffix', hlocator, ?_⟩
  -- both are in the folder for downloads, under names that tell their numbers
  rw [← hheld, hlocator]
  apply FileTree.held?_put_of_apart <;> rw [hplace, hplace', List.prefix_append_right_inj]
  · intro hprefix
    exact hn (eq_of_downloadName_eq hending hsuffix (List.cons_prefix_cons.mp hprefix).1)
  · intro hprefix
    exact hn (eq_of_downloadName_eq hsuffix hending (List.cons_prefix_cons.mp hprefix).1).symm

theorem Kept.fetched (h : Kept how files s) {text suffix : Text}
    (hroot : how.downloads.head? = some '/') (hremote : Url.isRemote url = true)
    (hnew : url ∉ s.seen) (htext : how.network url = .ok text)
    (hsuffix : Url.suffix url = .ok suffix) (log : List LogLine) :
    Kept how files ((s.asked url log).fetched
      (how.downloads ++ '/' :: downloadName s.tasks.length suffix) url text) := by
  have hending := Url.isEnding_suffix hsuffix
  have hdownload : Task.IsRemote ⟨how.downloads ++ '/' :: downloadName s.tasks.length suffix,
      url, none⟩ := isRemote_download hroot hremote none
  have hmem := mem_standings_fetched files (s.asked url log) text hdownload
  exact {
    downloaded := h.downloaded.put hending
    standings := by
      rw [standings_concat files rfl, standing_script files hdownload]
      refine nodup_concat h.standings fun hmem => ?_
      exact hnew ((h.url_mem_seen hremote).mpr ((h.scripts url).mp hmem).1)
    requested := h.nodup_asked hremote hnew
    remote := h.remote_asked hremote
    seen := fun key => by
      rw [hmem, standings_asked]
      refine (h.seen_asked url key).trans (or_congr_right (or_iff_left ?_).symm)
      rintro ⟨⟩
    scripts := fun u => by
      change _ ↔ u ∈ s.requested ++ [url] ∧ how.Arrives u
      rw [hmem, standings_asked, h.scripts, List.mem_append, List.mem_singleton, or_and_right,
        Standing.script.injEq]
      refine or_congr_right (iff_self_and.mpr ?_)
      rintro rfl
      exact ⟨text, suffix, htext, hsuffix⟩
    errors := by
      rw [Sources.fetched, asked, List.filterMap_append, List.filterMap_cons,
        failure?_of_ok htext, List.filterMap_nil, List.append_nil]
      exact h.errors
    holds := fun n t ht hremote' => by
      rcases at_concat ht with ht | ⟨rfl, rfl⟩
      · have hn := (List.getElem?_eq_some_iff.mp ht).1
        exact (h.holds n t ht hremote').put hroot hending (Nat.ne_of_lt hn)
      · exact ⟨text, suffix, htext, hsuffix, rfl, FileTree.held?_put_self _ _ _⟩ }

end Sources

end OperationScan
