import OperationScan.Inputs.Sources
import OperationScan.Proofs.Files.Places
import OperationScan.Proofs.Json.Numbers

/-!
# Downloads

A download is named after the number of tasks so far and the ending of its address. So two downloads
for different numbers of tasks never share a place.

* `eq_of_downloadName_eq`: the name of a download tells the number.
* `Downloaded`: files with some downloads added to them.
* `Apart`: an input names the same files whatever has been downloaded.
-/

namespace OperationScan

/-! ## Endings of downloads -/

/-- A text that begins with a dot and has no slash. -/
def IsEnding (t : Text) : Prop := t.head? = some '.' ∧ '/' ∉ t

theorem Language.notMem_of_ofSuffix? {t : Text} (h : (ofSuffix? t).isSome = true) : '/' ∉ t := by
  have hendings : ∀ e ∈ endings, '/' ∉ e.1 := by decide
  obtain ⟨language, hlookup⟩ := Option.isSome_iff_exists.mp h
  obtain ⟨before, after, heq, -⟩ := List.lookup_eq_some_iff.mp hlookup
  have hentry : (Text.toLower t, language) ∈ endings := by
    rw [heq]
    exact List.mem_append_right _ List.mem_cons_self
  exact fun hmem => hendings _ hentry (List.mem_map_of_mem hmem)

/-- The ending for a download is one. -/
theorem Url.isEnding_suffix {url suffix : Text} (h : Url.suffix url = .ok suffix) :
    IsEnding suffix := by
  unfold Url.suffix at h
  cases hpath : path url with
  | error f =>
    rw [hpath] at h
    cases h
  | ok p =>
    rw [hpath] at h
    change Except.ok _ = Except.ok suffix at h
    rw [← Except.ok.inj h]
    split
    · rename_i hlanguage
      refine ⟨?_, Language.notMem_of_ofSuffix? hlanguage⟩
      revert hlanguage
      unfold Path.suffix Path.suffixOf
      dsimp only
      split
      · decide
      · exact fun _ => rfl
    · exact ⟨by decide, by decide⟩

/-! ## Names of downloads -/

/-- The name of a download, made from the number of tasks so far and an ending. -/
def downloadName (n : Nat) (suffix : Text) : Text :=
  "remote_".toList ++ Text.ofNatPadded 4 n ++ suffix

theorem Sources.nextDownload_eq (s : Sources) (downloads suffix : Text) :
    s.nextDownload downloads suffix = downloads ++ '/' :: downloadName s.tasks.length suffix := by
  have hslash : "/remote_".toList = '/' :: "remote_".toList := by decide
  unfold nextDownload downloadName
  simp only [hslash, List.append_assoc, List.cons_append]

theorem Text.isDigit_ofNatPadded (width n : Nat) :
    ∀ c ∈ Text.ofNatPadded width n, c.isDigit = true := by
  intro c hc
  rcases List.mem_append.mp hc with hc | hc
  · rw [List.eq_of_mem_replicate hc]
    rfl
  · exact Number.isDigit_ofNat n c hc

theorem Number.valueFrom_replicate_zero (k : Nat) (t : Text) :
    valueFrom 10 0 (List.replicate k '0' ++ t) = valueFrom 10 0 t := by
  induction k with
  | zero => rfl
  | succ k ih => exact ih

theorem Text.ofNatPadded_injective (width : Nat) : Function.Injective (ofNatPadded width) := by
  intro m n h
  have hvalue := congrArg (Number.valueFrom 10 0) h
  rw [ofNatPadded, ofNatPadded, Number.valueFrom_replicate_zero, Number.valueFrom_replicate_zero,
    Number.ofNat_eq_toDigits, Number.ofNat_eq_toDigits, Number.valueFrom_toDigits,
    Number.valueFrom_toDigits] at hvalue
  exact Option.some.inj hvalue

theorem takeWhile_downloadName {n : Nat} {suffix : Text} (h : IsEnding suffix) :
    ((downloadName n suffix).drop 7).takeWhile Char.isDigit = Text.ofNatPadded 4 n := by
  obtain ⟨ending, hending⟩ := List.head?_eq_some_iff.mp h.1
  have hdrop : (downloadName n suffix).drop 7 = Text.ofNatPadded 4 n ++ suffix := by
    unfold downloadName
    simp only [List.append_assoc]
    rfl
  -- the ending begins with a dot, so the digits end there
  rw [hdrop, List.takeWhile_append_of_pos (Text.isDigit_ofNatPadded 4 n), hending,
    List.takeWhile_cons_of_neg (by decide), List.append_nil]

/-- The name of a download tells the number. -/
theorem eq_of_downloadName_eq {m n : Nat} {suffix suffix' : Text} (h : IsEnding suffix)
    (h' : IsEnding suffix') (hname : downloadName m suffix = downloadName n suffix') :
    m = n := by
  have hdigits := congrArg (fun t => (t.drop 7).takeWhile Char.isDigit) hname
  simp only [takeWhile_downloadName h, takeWhile_downloadName h'] at hdigits
  exact Text.ofNatPadded_injective 4 hdigits

theorem notMem_downloadName {n : Nat} {suffix : Text} (h : IsEnding suffix) :
    '/' ∉ downloadName n suffix := by
  unfold downloadName
  simp only [List.mem_append]
  rintro ((hmem | hmem) | hmem)
  · revert hmem
    decide
  · have hdigit := Text.isDigit_ofNatPadded 4 n _ hmem
    revert hdigit
    decide
  · exact h.2 hmem

theorem isStep_downloadName (n : Nat) (suffix : Text) :
    FileTree.IsStep (downloadName n suffix) := by
  have hhead : (downloadName n suffix).head? = some 'r' := rfl
  refine ⟨?_, ?_, ?_⟩ <;> intro h <;> rw [h] at hhead <;> cases hhead

theorem FileTree.resolve_download (t : FileTree) {downloads suffix : Text} (n : Nat)
    (hroot : downloads.head? = some '/') (h : IsEnding suffix) :
    t.resolve (downloads ++ '/' :: downloadName n suffix) =
      t.resolve downloads ++ [downloadName n suffix] :=
  resolve_child t hroot (isStep_downloadName n suffix) (notMem_downloadName h)

/-! ## Files with downloads -/

/-- Files with some downloads added to them. -/
inductive Downloaded (downloads : Text) (files : FileTree) : FileTree → Prop where
  | none : Downloaded downloads files files
  | put {files' : FileTree} {n : Nat} {suffix : Text} {bytes : List UInt8}
      (h : Downloaded downloads files files') (hsuffix : IsEnding suffix) :
      Downloaded downloads files
        (files'.put (downloads ++ '/' :: downloadName n suffix) (.file bytes))

/-- An input names the same files whatever is downloaded: the folder for downloads lies outside of
it. -/
def Apart (downloads : Text) (files : FileTree) (input : Text) : Prop :=
  ∀ files', Downloaded downloads files files' → expandInput files' input = expandInput files input

variable {downloads path : Text} {files files' : FileTree}

/-- Downloads do not move the working folder. -/
theorem Downloaded.resolve_eq (h : Downloaded downloads files files') (path : Text) :
    files'.resolve path = files.resolve path := by
  induction h with
  | none => rfl
  | put _ _ ih => exact ih

theorem Downloaded.spelled_eq (h : Downloaded downloads files files') (path : Text) :
    files'.spelled path = files.spelled path := by
  induction h with
  | none => rfl
  | put _ _ ih => exact ih

/-- Downloads do not change what the system refuses. -/
theorem Downloaded.refusals_eq (h : Downloaded downloads files files') :
    files'.refusals = files.refusals := by
  induction h with
  | none => rfl
  | put _ _ ih => exact ih

theorem FileTree.Plain.downloaded (hplain : files.Plain path)
    (h : Downloaded downloads files files') : files'.Plain path := by
  have hallowed : files'.refusals.fault? .look path = none := by
    rw [h.refusals_eq]
    exact hplain.allowed
  refine ⟨hallowed, hplain.noNull, hplain.nonempty, hplain.size, ?_, ?_⟩ <;> rw [h.spelled_eq]
  · exact hplain.steps
  · exact hplain.sizes

/-- What lies neither above nor in the folder for downloads stays as it is. -/
theorem Downloaded.held?_eq (h : Downloaded downloads files files')
    (hroot : downloads.head? = some '/')
    (habove : ¬ files.resolve path <+: files.resolve downloads)
    (hbelow : ¬ files.resolve downloads <+: files.resolve path) :
    files'.held? path = files.held? path := by
  induction h with
  | none => rfl
  | @put files' n suffix bytes h hsuffix ih =>
    have hplace := files'.resolve_download n hroot hsuffix
    rw [← ih]
    refine FileTree.held?_put_of_apart files' (.file bytes) ?_ ?_ <;>
      rw [hplace, h.resolve_eq, h.resolve_eq]
    · rw [List.prefix_concat_iff]
      rintro (heq | hprefix)
      · exact hbelow (heq ▸ List.prefix_append _ _)
      · exact habove hprefix
    · exact fun hprefix => hbelow ((List.prefix_append _ _).trans hprefix)

/-- The folder for downloads lies outside of a file or a folder that is neither above nor in it. -/
theorem apart_of_plain {input : Text} (hroot : downloads.head? = some '/')
    (hplain : files.Plain (Path.ofText input).text) (hglob : Glob.ofText? input = none)
    (habove : ¬ files.resolve (Path.ofText input).text <+: files.resolve downloads)
    (hbelow : ¬ files.resolve downloads <+: files.resolve (Path.ofText input).text) :
    Apart downloads files input := by
  intro files' h
  have hheld := h.held?_eq hroot habove hbelow
  have hplain' := hplain.downloaded h
  simp only [expandInput, scriptsBelow, hglob, FileTree.isFile, FileTree.isFolder, hplain.passes_eq,
    hplain.entriesAt_eq, hplain'.passes_eq, hplain'.entriesAt_eq, hheld]

end OperationScan
