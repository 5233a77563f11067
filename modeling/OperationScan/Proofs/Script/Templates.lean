import OperationScan.Proofs.Text.Utf8
import OperationScan.Script.Literal
import OperationScan.Script.Parse

/-!
# Templates and their holes

The holes of a template are cut out of its bytes. Each hole stands between two offsets in bytes, and
behind it the cursor is again at the start of a character, whatever the width of the characters in
front of the hole, in it and behind it.

* `Hole`: a hole with the static text behind it.
* `IsTemplateOf`: a node is a template of static text and holes, and its holes are nodes.
* `staticBytesFrom_eq`: the bytes from some place on, whatever stands in front of it.
* `staticBytes_eq`, `extract_ranges`: the bytes of a template without its holes, and those of the
  holes.
* `templateText_eq_cook_static`: what a template stands for.
-/

namespace OperationScan.Script

open Text.Utf8

/-- The source text of a substitution in a template, with the static text behind it. -/
structure Hole where
  inside : Text
  behind : Text

namespace Hole

/-- A hole as it stands in a template. -/
def text (h : Hole) : Text := '$' :: '\x7b' :: (h.inside ++ ['\x7d'])

/-- Holes as they stand in a template, each with the static text behind it. -/
def written (holes : List Hole) : Text := holes.flatMap fun h => h.text ++ h.behind

/-- The ranges of the characters of holes in a script; the first hole stands at an offset. -/
def ranges (start : Nat) : List Hole → List (Nat × Nat)
  | [] => []
  | h :: rest =>
    (start, start + h.text.length) :: ranges (start + h.text.length + h.behind.length) rest

/-- The static text of a template. -/
def static (first : Text) (holes : List Hole) : Text := first ++ holes.flatMap behind

theorem written_cons (h : Hole) (holes : List Hole) :
    written (h :: holes) = h.text ++ h.behind ++ written holes := rfl

theorem static_cons (first : Text) (h : Hole) (holes : List Hole) :
    static first (h :: holes) = first ++ static h.behind holes := by
  rw [static, static, List.flatMap_cons]

end Hole

/-- The ranges of the holes among nodes. -/
def holeRanges (nodes : List Node) : List (Nat × Nat) :=
  (nodes.filter fun c => c.kind == .substitution).map fun c => (c.start, c.stop)

/-- A node is a template of static text with holes in it, and of its children those that are holes
cover exactly these. -/
structure IsTemplateOf (n : Node) (first : Text) (holes : List Hole) : Prop where
  text : n.text = '\x60' :: (first ++ Hole.written holes ++ ['\x60'])
  ranges : holeRanges n.children = Hole.ranges (n.start + 1 + first.length) holes

variable {n : Node} {before first : Text} {h : Hole} {holes : List Hole}

theorem IsTemplateOf.ranges_eq (h : IsTemplateOf n first holes) :
    holeRanges n.children = Hole.ranges (n.start + (['\x60'] ++ first).length) holes := by
  rw [h.ranges, List.length_append, List.length_singleton, Nat.add_assoc]

/-- Offsets of the same character, counted in characters and in bytes. -/
theorem byteOffset_eq {after : Text} (htext : n.text = before ++ after) :
    byteOffset n (n.start + before.length) = size before := by
  rw [byteOffset, htext, Nat.add_sub_cancel_left, List.take_left]

theorem holeRanges_hole {c : Node} (hc : c.kind = .substitution) (nodes : List Node) :
    holeRanges (c :: nodes) = (c.start, c.stop) :: holeRanges nodes := by
  rw [holeRanges, List.filter_cons_of_pos (by simp [hc]), List.map_cons]
  rfl

theorem holeRanges_other {c : Node} (hc : c.kind ≠ .substitution) (nodes : List Node) :
    holeRanges (c :: nodes) = holeRanges nodes := by
  rw [holeRanges, List.filter_cons_of_neg (by simpa using hc)]
  rfl

/-- The text of a template, cut at the start of a hole and at its end. -/
theorem cut_at_hole (htext : n.text = before ++ (first ++ Hole.written (h :: holes) ++ ['\x60'])) :
    n.text = before ++ first ++ (h.text ++ (h.behind ++ Hole.written holes ++ ['\x60'])) ∧
    n.text = before ++ first ++ h.text ++ (h.behind ++ Hole.written holes ++ ['\x60']) := by
  rw [htext, Hole.written_cons]
  simp only [List.append_assoc, and_self]

/-- From a place in a template on, the bytes outside its holes are those of its static text. What
has been cut in front of the place does not matter. -/
theorem staticBytesFrom_eq {nodes : List Node}
    (htext : n.text = before ++ (first ++ Hole.written holes ++ ['\x60']))
    (hnodes : holeRanges nodes = Hole.ranges (n.start + (before ++ first).length) holes) :
    staticBytesFrom n (encode n.text) (size before) (size (before ++ first ++ Hole.written holes))
      nodes = encode (Hole.static first holes) := by
  induction nodes generalizing before first holes with
  | nil =>
    cases holes with
    | cons h holes => cases hnodes
    | nil =>
      have hstatic : Hole.static first [] = first := List.append_nil first
      have hwritten : Hole.written [] = [] := rfl
      rw [staticBytesFrom, hstatic, htext, hwritten, List.append_nil, List.append_nil,
        extract_encode]
  | cons c nodes ih =>
    by_cases hc : c.kind = .substitution
    · rw [holeRanges_hole hc] at hnodes
      cases holes with
      | nil => cases hnodes
      | cons h holes =>
        obtain ⟨hrange, hrest⟩ := List.cons.inj hnodes
        obtain ⟨hstart, hstop⟩ := Prod.mk.inj hrange
        rw [Nat.add_assoc, ← List.length_append] at hstop
        obtain ⟨hopen, hclose⟩ := cut_at_hole htext
        have hcut : (encode n.text).extract (size before) (byteOffset n c.start) =
            encode first := by
          rw [hstart, byteOffset_eq hopen, hopen, List.append_assoc before, extract_encode]
        have hlast : before ++ first ++ Hole.written (h :: holes) =
            before ++ first ++ h.text ++ h.behind ++ Hole.written holes := by
          rw [Hole.written_cons]
          simp only [List.append_assoc]
        have hrest : holeRanges nodes =
            Hole.ranges (n.start + (before ++ first ++ h.text ++ h.behind).length) holes := by
          rw [hrest, Nat.add_assoc n.start, ← List.length_append, Nat.add_assoc,
            ← List.length_append]
        rw [staticBytesFrom, if_pos (by simp [hc]), hcut, hstop, byteOffset_eq hclose, hlast,
          ih hclose hrest, Hole.static_cons, encode_append]
    · rw [staticBytesFrom, if_neg (by simpa using hc)]
      exact ih htext (holeRanges_other hc nodes ▸ hnodes)

/-- The bytes of a template without its marks and holes. -/
theorem staticBytes_eq (h : IsTemplateOf n first holes) :
    staticBytes n = encode (Hole.static first holes) := by
  have hmark : encode ['\x60'] = [0x60] := by decide
  have htext : n.text = ['\x60'] ++ (first ++ Hole.written holes ++ ['\x60']) := h.text
  have hsource : encode n.text = encode (['\x60'] ++ first ++ Hole.written holes) ++ [0x60] := by
    rw [htext, ← hmark, ← encode_append]
    simp only [List.append_assoc]
  have hlast : (encode n.text).getLast? = some 0x60 := by
    rw [hsource, List.getLast?_concat]
  have hlength : (encode n.text).length - 1 = size (['\x60'] ++ first ++ Hole.written holes) := by
    rw [hsource, List.length_append, length_encode, List.length_singleton, Nat.add_sub_cancel]
  rw [staticBytes, hlast, if_pos (by decide), hlength]
  exact staticBytesFrom_eq htext h.ranges_eq

/-- The bytes at the ranges of holes are those of the holes. -/
theorem extract_ranges (htext : n.text = before ++ (first ++ Hole.written holes ++ ['\x60'])) :
    (Hole.ranges (n.start + (before ++ first).length) holes).map
      (fun r => (encode n.text).extract (byteOffset n r.1) (byteOffset n r.2)) =
        holes.map fun hole => encode hole.text := by
  induction holes generalizing before first with
  | nil => rfl
  | cons h holes ih =>
    obtain ⟨hopen, hclose⟩ := cut_at_hole htext
    have hrest := ih hclose
    rw [List.length_append, List.length_append, ← Nat.add_assoc, ← Nat.add_assoc] at hrest
    rw [Hole.ranges, List.map_cons, List.map_cons, hrest, byteOffset_eq hopen, Nat.add_assoc,
      ← List.length_append, byteOffset_eq hclose, hopen, extract_encode]

/-- A template stands for its static text. The holes are cut out of its bytes at exactly the places
where they stand, so that nothing of them is left and all other characters are whole, whatever the
holes hold and however wide the characters are. -/
theorem templateText_eq_cook_static (h : IsTemplateOf n first holes) :
    (holeRanges n.children).map (fun r =>
      (encode n.text).extract (byteOffset n r.1) (byteOffset n r.2)) =
        holes.map (fun hole => encode hole.text) ∧
    staticBytes n = encode (Hole.static first holes) ∧
    templateText n = cook (Hole.static first holes) := by
  have hbytes : staticBytes n = encode (Hole.static first holes) := staticBytes_eq h
  refine ⟨?_, hbytes, ?_⟩
  · rw [h.ranges_eq]
    exact extract_ranges h.text
  · rw [templateText, hbytes, decode_encode]

/-- A template in a script, between characters of every width: two holes touch, one holds a
template with a hole of its own, and one stands at the end. -/
def nestedTemplate : Text :=
  "'é'; f(\x60é€$\x7ba\x7d$\x7b\x60😀$\x7bb\x7d\x60\x7d😀\\n$\x7bc.é\x7d\x60)".toList

/-- The holes of the outer one. -/
def nestedHoles : List Hole := [
  ⟨"a".toList, []⟩, ⟨"\x60😀$\x7bb\x7d\x60".toList, "😀\\n".toList⟩, ⟨"c.é".toList, []⟩]

theorem templateText_eq_cook_static_nested : ∃ root, parse? .javascript nestedTemplate = some root ∧
    ∃ s ∈ Site.walk root, s.kind = .template ∧ IsTemplateOf s.node "é€".toList nestedHoles ∧
      templateText s.node = "é€😀\n".toList := by
  obtain ⟨root, hroot, hfacts⟩ : ∃ root, parse? .javascript nestedTemplate = some root ∧
      decide (∃ s ∈ Site.walk root, s.kind = .template ∧
        s.node.text = '\x60' :: ("é€".toList ++ Hole.written nestedHoles ++ ['\x60']) ∧
        holeRanges s.node.children =
          Hole.ranges (s.node.start + 1 + "é€".toList.length) nestedHoles) = true := by
    rw [← Option.any_eq_true]
    decide +kernel
  obtain ⟨s, hs, hkind, htext, hranges⟩ := of_decide_eq_true hfacts
  have htemplate : IsTemplateOf s.node "é€".toList nestedHoles := ⟨htext, hranges⟩
  have hcook : cook (Hole.static "é€".toList nestedHoles) = "é€😀\n".toList := by decide +kernel
  exact ⟨root, hroot, s, hs, hkind, htemplate,
    (templateText_eq_cook_static htemplate).2.2.trans hcook⟩

end OperationScan.Script
