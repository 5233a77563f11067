import OperationScan.Proofs.Pattern.Standard

/-!
# The shape of matches

Whatever pattern a match comes from, its text has been cut so that it begins with a keyword and
ends with a closing brace. That is enough for its kind to be known.

* `IsOperationShaped`: a keyword at the start, as a whole word, and a closing brace at the end.
* `isOperationShaped_of_mem_matchesIn`: the matches of all patterns of the library.
* `IsOperationShaped.describe`: the kind of such a text is that of the keyword.
-/

namespace OperationScan

open Text

/-- A text begins with a keyword, as a whole word, and ends with a closing brace. -/
structure IsOperationShaped (t : Text) : Prop where
  begins : BeginsKeyword t
  ends : t.getLast? = some '\x7d'

variable {t u : Text}

/-! ## Keywords at the start -/

theorem brace_notMem_word : ∀ k ∈ Kind.keywords, '\x7b' ∉ k.word := by
  decide

/-- A piece of a text that reaches up to a brace has kept the keyword. -/
theorem BeginsKeyword.of_isPrefix (h : BeginsKeyword t) (hpiece : u <+: t) (hbrace : '\x7b' ∈ u) :
    BeginsKeyword u := by
  obtain ⟨k, hk, rest, rfl, hends⟩ := h
  obtain ⟨v, hv⟩ := hpiece
  rcases List.append_eq_append_iff.mp hv with ⟨x, hword, -⟩ | ⟨x, hu, hrest⟩
  · exact absurd (hword ▸ List.mem_append_left x hbrace) (brace_notMem_word k hk)
  · refine ⟨k, hk, x, hu, ?_⟩
    cases x with
    | nil => rfl
    | cons c x => rwa [hrest] at hends

theorem BeginsKeyword.append (h : BeginsKeyword t) (hbrace : '\x7b' ∈ t) (v : Text) :
    BeginsKeyword (t ++ v) := by
  obtain ⟨k, hk, rest, rfl, hends⟩ := h
  refine ⟨k, hk, rest ++ v, List.append_assoc .., ?_⟩
  cases rest with
  | nil =>
    rw [List.append_nil] at hbrace
    exact absurd hbrace (brace_notMem_word k hk)
  | cons c rest => exact hends

/-- A text that begins with a keyword is described as what the keyword says. -/
theorem BeginsKeyword.describe (h : BeginsKeyword t) :
    ∃ k ∈ Kind.keywords, ∃ rest, t = k.word ++ rest ∧ wordEnds rest = true ∧
      (Head.describe t).kind = k := by
  obtain ⟨k, hk, rest, rfl, hends⟩ := h
  refine ⟨k, hk, rest, rfl, hends, ?_⟩
  have hblank : (k.word ++ rest).head?.any isBlank = false := by
    rw [List.head?_append_of_ne_nil _ (Head.word_ne_nil k hk)]
    exact not_isBlank_head?_word k hk
  have hread : (Place.start (k.word ++ rest)).Reads k.word ⟨0 + k.word.length, rest⟩ := ⟨rfl, rfl⟩
  have hat : Kind.at? (.start (k.word ++ rest)) = some (k, ⟨0 + k.word.length, rest⟩) :=
    Head.kindAt?_eq_some_iff.mpr ⟨hk, hread, hends⟩
  rw [Head.describe, trimStart, dropWhile_eq_self hblank]
  cases hhead : Head.at? (.start (k.word ++ rest)) with
  | some m =>
    obtain ⟨-, s, hs, hsame, hspelled⟩ := Head.exists_of_at? hhead
    obtain ⟨q, hword, -⟩ := hspelled.append_cases
    dsimp only
    rw [← hsame]
    exact Head.eq_of_reads_word hs.kind hk hword hread
  | none =>
    have hskip : (Place.start (k.word ++ rest)).skipBlanks = .start (k.word ++ rest) := by
      refine Place.skipBlanks_eq_iff.mpr ⟨[], .refl _, isBlank_nil, hblank⟩
    dsimp only
    rw [Head.loose?, hskip, hat]
    dsimp only
    split
    · rfl
    · rfl

theorem IsOperationShaped.trimmed (h : IsOperationShaped t) : Trimmed t := by
  constructor
  · obtain ⟨k, hk, rest, rfl, -⟩ := h.begins
    rw [List.head?_append_of_ne_nil _ (Head.word_ne_nil k hk)]
    exact not_isBlank_head?_word k hk
  · rw [h.ends]
    decide

/-- What is recorded of such a text has the kind that its keyword says. -/
theorem IsOperationShaped.describe (h : IsOperationShaped t) :
    (Head.describe t).kind ≠ .unknown ∧ (Head.describe t).kind.word <+: t := by
  obtain ⟨k, hk, rest, ht, -, hkind⟩ := h.begins.describe
  rw [hkind]
  refine ⟨?_, rest, ht.symm⟩
  rintro rfl
  revert hk
  decide

/-! ## Anchoring, clipping and repair -/

theorem exists_of_mem_keywordPlacesFrom {index count : Nat} {before : Option Char}
    {found : List Place} {p : Place} (h : p ∈ keywordPlacesFrom index before found count t) :
    p ∈ found ∨ ∃ v, t = v ++ p.rest ∧ wordBegins (lastOr before v) = true ∧
      BeginsKeyword p.rest := by
  induction t generalizing index before found count with
  | nil =>
    cases count with
    | zero => exact .inl h
    | succ count => exact .inl h
  | cons c t ih =>
    cases count with
    | zero => exact .inl h
    | succ count =>
      rcases ih h with hfound | ⟨v, rfl, hbefore, hbegins⟩
      · split at hfound
        · rename_i hkeyword
          rcases List.mem_cons.mp hfound with rfl | hfound
          · exact .inr ⟨[], rfl, keyword?_isSome_iff.mp hkeyword⟩
          · exact .inl hfound
        · exact .inl hfound
      · exact .inr ⟨c :: v, rfl, by rwa [lastOr_cons], hbegins⟩

/-- An anchored text is what is left of a text from a keyword on. -/
theorem exists_of_anchor? (h : anchor? t = some u) :
    ∃ v, t = v ++ u ∧ wordBegins v.getLast? = true ∧ BeginsKeyword u := by
  have hplaces : ∀ {count : Nat}, ∀ p ∈ keywordPlaces t count,
      ∃ v, t = v ++ p.rest ∧ wordBegins v.getLast? = true ∧ BeginsKeyword p.rest := by
    intro count p hp
    obtain ⟨v, hv, hbefore, hbegins⟩ :=
      (exists_of_mem_keywordPlacesFrom hp).resolve_left List.not_mem_nil
    rw [lastOr, Option.or_none] at hbefore
    exact ⟨v, hv, hbefore, hbegins⟩
  unfold anchor? at h
  split at h
  · cases h
  · dsimp only at h
    split at h
    · rename_i p hfind
      cases h
      exact hplaces p (List.mem_of_find?_eq_some hfind)
    · obtain ⟨p, hlast, rfl⟩ := Option.map_eq_some_iff.mp h
      exact hplaces p (List.mem_of_getLast? hlast)

/-- What is stripped from the end of a text leaves a brace and all in front of it. -/
theorem brace_mem_dropEndWhile (h : '\x7b' ∈ t) : '\x7b' ∈ dropEndWhile isResidue t := by
  rw [← dropEndWhile_append isResidue t, List.mem_append] at h
  rcases h with h | h
  · exact h
  · rw [List.mem_reverse] at h
    have hresidue := List.all_eq_true.mp List.all_takeWhile _ h
    cases hresidue

theorem isOperationShaped_repair (h : BeginsKeyword t) (hbrace : '\x7b' ∈ t) :
    IsOperationShaped (repair t).1 := by
  have hmem := brace_mem_dropEndWhile hbrace
  have hbegins := h.of_isPrefix ⟨_, dropEndWhile_append isResidue t⟩ hmem
  unfold repair
  dsimp only
  split
  · rename_i hlast
    exact ⟨hbegins, beq_iff_eq.mp hlast⟩
  · exact ⟨hbegins.append hmem _, by simp⟩

/-- A text up to the end of a body keeps what stands in front of the body. -/
theorem isOperationShaped_take {brace stop : Nat} (h : BeginsKeyword t)
    (hbrace : t[brace]? = some '\x7b') (hstop : Body.end? t brace = some stop) :
    IsOperationShaped (t.take stop) := by
  obtain ⟨n, hlength, rfl⟩ := Option.map_eq_some_iff.mp hstop
  obtain ⟨body, rest, hbody, hclose, -, rfl⟩ := Body.length?_eq_some_iff.mp hlength
  have htake : t.take (brace + body.length) = t.take brace ++ body := by
    rw [List.take_add, hbody, List.take_left]
  have hhead : body.head? = some '\x7b' := by
    rw [← hbrace, ← List.head?_drop, hbody, List.head?_append_of_ne_nil _ hclose.ne_nil]
  constructor
  · refine h.of_isPrefix (List.take_prefix _ _) ?_
    rw [htake]
    exact List.mem_append_right _ (List.mem_of_mem_head? hhead)
  · rw [htake, List.getLast?_append_of_ne_nil _ hclose.ne_nil]
    exact hclose.getLast?

theorem isOperationShaped_of_clip? {repairable repaired : Bool}
    (h : clip? repairable t = some (u, repaired)) : IsOperationShaped u := by
  unfold clip? at h
  split at h
  · cases h
  · rename_i anchored hanchor
    obtain ⟨-, -, -, hbegins⟩ := exists_of_anchor? hanchor
    split at h
    · cases h
    · rename_i brace hfind
      obtain ⟨hlt, hbrace, -⟩ := List.findIdx?_eq_some_iff_getElem.mp hfind
      have hget : anchored[brace]? = some '\x7b' := by
        rw [List.getElem?_eq_getElem hlt, beq_iff_eq.mp hbrace]
      split at h
      · rename_i stop hstop
        cases h
        exact isOperationShaped_take hbegins hget hstop
      · split at h
        · have hu : u = (repair anchored).1 := by
            rw [Option.some.inj h]
          rw [hu]
          exact isOperationShaped_repair hbegins (List.mem_of_getElem? hget)
        · cases h

/-! ## Matches -/

theorem IsOperation.isOperationShaped (h : IsOperation t) : IsOperationShaped t := by
  obtain ⟨s, body, hs, hbrace, hbody, rfl⟩ := h.exists_append
  obtain ⟨hclose, -⟩ := Body.length?_eq_length_iff.mp hbody
  constructor
  · have hread : (Place.mk s.kind.word.length (s.nameText ++ s.tail.text ++ body)).Reads
        (s.nameText ++ s.tail.text) ⟨_, body⟩ := ⟨rfl, rfl⟩
    refine ⟨s.kind, hs.kind, s.nameText ++ s.tail.text ++ body, ?_,
      Head.wordEnds_of_spelling hs hread hbrace⟩
    rw [Head.Spelling.text, List.append_assoc]
  · rw [List.getLast?_append_of_ne_nil _ hclose.ne_nil, hclose.getLast?]

theorem isOperationShaped_of_finished? {p : Pattern} {s : Span} {m : PatternMatch}
    (hclipped : p.finish ≠ .asFound) (h : p.finished? s = some m) : IsOperationShaped m.text := by
  unfold Pattern.finished? at h
  split at h
  · rename_i hfinish
    exact absurd hfinish hclipped
  · split at h
    · cases h
    · rename_i body repaired hclip
      split at h
      · cases h
      · cases h
        exact isOperationShaped_of_clip? hclip

theorem finish_of_mem_aggressive : ∀ p ∈ Pattern.aggressive,
    ∃ repairable, p.finish = .clipped repairable minPatternMatchLength := by
  simp [Pattern.aggressive, Pattern.minified, Pattern.quoted, Pattern.escaped, Pattern.split]

/-- Every match of every pattern has the shape of an operation. -/
theorem isOperationShaped_of_mem_matchesIn {p : Pattern} (hp : p ∈ Pattern.all) {m : PatternMatch}
    (h : m ∈ p.matchesIn t) : IsOperationShaped m.text := by
  rcases List.mem_cons.mp hp with rfl | hp
  · exact (isOperation_of_mem_matchesIn h).isOperationShaped
  · obtain ⟨s, -, hm⟩ := List.mem_filterMap.mp h
    obtain ⟨repairable, hfinish⟩ := finish_of_mem_aggressive p hp
    exact isOperationShaped_of_finished? (by simp [hfinish]) hm

end OperationScan
