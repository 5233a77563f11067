import OperationScan.Proofs.Pattern.Standard

/-!
# Describing what is spelled

A head that is spelled from its parts and put in front of a body says what the parts say, whatever
the body holds. Names are any names, the word `on` and the keywords included.

* `Spelling.Valid` can be checked.
* `describe_spelled`: the description of a spelled head.
-/

namespace OperationScan

open Text

/-! ## Checking spellings -/

section Decidable

variable (t : Text)

instance : Decidable (IsBlank t) := decidable_of_iff (t.all isBlank = true) List.all_eq_true

instance : Decidable (IsGap t) := inferInstanceAs (Decidable (t ≠ [] ∧ IsBlank t))

instance : Decidable (IsInside t) :=
  decidable_of_iff (t.all Place.isInside = true) List.all_eq_true

instance : Decidable (IsName t) :=
  match t with
  | [] => inferInstanceAs (Decidable False)
  | c :: rest =>
    decidable_of_iff (isNameStart c = true ∧ rest.all isNameChar = true)
      (and_congr_right fun _ => List.all_eq_true)

end Decidable

namespace Head

instance (a : Arguments) : Decidable a.Valid :=
  decidable_of_iff (IsBlank a.blanks ∧ IsInside a.inside)
    ⟨fun ⟨hblanks, hinside⟩ => ⟨hblanks, hinside⟩, fun h => ⟨h.blanks, h.inside⟩⟩

instance (c : Condition) : Decidable c.Valid :=
  decidable_of_iff (IsBlank c.blanks ∧ IsGap c.gap ∧ IsName c.type)
    ⟨fun ⟨hblanks, hgap, htype⟩ => ⟨hblanks, hgap, htype⟩, fun h => ⟨h.blanks, h.gap, h.type⟩⟩

instance (d : Directive) : Decidable d.Valid :=
  decidable_of_iff (IsBlank d.blanks ∧ IsName d.name ∧ ∀ t ∈ d.inside, IsInside t)
    ⟨fun ⟨hblanks, hname, hinside⟩ => ⟨hblanks, hname, hinside⟩,
      fun h => ⟨h.blanks, h.name, h.inside⟩⟩

instance (t : Tail) : Decidable t.Valid :=
  decidable_of_iff ((∀ a ∈ t.args, a.Valid) ∧ (∀ c ∈ t.condition, c.Valid) ∧
      (∀ d ∈ t.directives, d.Valid) ∧ IsBlank t.blanks)
    ⟨fun ⟨hargs, hcondition, hdirectives, hblanks⟩ => ⟨hargs, hcondition, hdirectives, hblanks⟩,
      fun h => ⟨h.args, h.condition, h.directives, h.blanks⟩⟩

instance (s : Spelling) : Decidable s.Valid :=
  decidable_of_iff (s.kind ∈ Kind.keywords ∧ (∀ n ∈ s.name, IsGap n.gap ∧ IsName n.word) ∧
      s.tail.Valid ∧
      (s.name = none → s.tail.args = none → ∀ c ∈ s.tail.condition, c.blanks ≠ []))
    ⟨fun ⟨hkind, hname, htail, hapart⟩ => ⟨hkind, hname, htail, hapart⟩,
      fun h => ⟨h.kind, h.name, h.tail, h.apart⟩⟩

/-! ## Describing -/

variable {s : Spelling} {lead body : Text}

/-- White space in front of a head does not belong to it. -/
theorem trimStart_spelled (hs : s.Valid) (hlead : IsBlank lead) :
    trimStart (lead ++ (s.text ++ body)) = s.text ++ body := by
  have hword := not_isBlank_head?_word s.kind hs.kind
  have hhead : (s.text ++ body).head?.any isBlank = false := by
    rw [Spelling.text, List.append_assoc,
      List.head?_append_of_ne_nil _ (word_ne_nil s.kind hs.kind)]
    exact hword
  rw [trimStart, hlead.dropWhile_append, dropWhile_eq_self hhead]

/-- The description of a spelled head in front of a body is what its parts say. -/
theorem describe_spelled (hs : s.Valid) (hlead : IsBlank lead)
    (hbody : body.head? = some '\x7b') :
    describe (lead ++ (s.text ++ body)) = ⟨s.kind, s.name.map NamePart.word,
      s.tail.args.map Arguments.inside⟩ := by
  have hread : (Place.start (s.text ++ body)).Reads s.text ⟨0 + s.text.length, body⟩ := ⟨rfl, rfl⟩
  rw [describe, trimStart_spelled hs hlead, at?_of_reads hs hread hbody]
  rfl

/-- A fragment with the name `on`, arguments, a type condition on `on` that touches them, and
directives with the names of keywords. -/
def confusing : Spelling where
  kind := .fragment
  name := some ⟨"\u3000\n".toList, "on".toList⟩
  tail :=
    { args := some ⟨[], "$on: on = \x7bquery: 1\x7d".toList⟩
      condition := some ⟨[], "\u2028".toList, "on".toList⟩
      directives := [⟨[], "query".toList, some "on: \x7b\x7d".toList⟩,
        ⟨"\t ".toList, "mutation".toList, none⟩]
      blanks := "\x85".toList }

def confusingText : Text :=
  (" \nfragment\u3000\non($on: on = \x7bquery: 1\x7d)on\u2028on" ++
    "@query(on: \x7b\x7d)\t @mutation\x85\x7b on \x7d").toList

/-- The word `on` is the name once and the type once, and the keywords further on count for
nothing. -/
theorem describe_spelled_confusing :
    confusing.Valid ∧ IsBlank " \n".toList ∧
    confusingText = " \n".toList ++ (confusing.text ++ "\x7b on \x7d".toList) ∧
    describe confusingText =
      ⟨.fragment, some "on".toList, some "$on: on = \x7bquery: 1\x7d".toList⟩ := by
  have hs : confusing.Valid := by decide +kernel
  have hlead : IsBlank " \n".toList := by decide
  have htext : confusingText = " \n".toList ++ (confusing.text ++ "\x7b on \x7d".toList) := by
    decide +kernel
  refine ⟨hs, hlead, htext, ?_⟩
  rw [htext]
  exact describe_spelled hs hlead rfl

end Head

end OperationScan
