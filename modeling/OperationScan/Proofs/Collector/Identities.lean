import Mathlib.Data.Finset.Dedup
import OperationScan.Proofs.Operation.Identity

/-!
# The order and the spelling of sightings

What is on record follows from the set of signatures that have been sighted, whatever the order of
the sightings, their repetitions and the spelling of their texts.

* `Collector.mem_identities_iff`: signatures, kinds and names on record after sightings.
* `Collector.identities_record`: histories with the same set of signatures agree about them.
-/

namespace OperationScan.Collector

theorem mem_identities_iff (source origin : Text) (l : List Sighting) (i : Text × Kind × Text) :
    i ∈ ((empty source origin).record l).operations.map Operation.identity ↔
      ∃ s ∈ l, normalize s.text ≠ [] ∧
        i = (normalize s.text, kindOf (normalize s.text), nameOf (normalize s.text)) := by
  have hregular := (regular_empty source origin).record l
  have hsignatures := mem_signatures_record (empty source origin) l
  generalize (empty source origin).record l = c at hregular hsignatures ⊢
  constructor
  · intro hi
    obtain ⟨o, ho, rfl⟩ := List.mem_map.mp hi
    have hmem : o.signature ∈ c.signatures := List.mem_map_of_mem ho
    rcases (hsignatures o.signature).mp hmem with hnone | ⟨hne, s, hs, hsame⟩
    · cases hnone
    · rw [Sighting.signature, Text.normalize_trim] at hsame
      refine ⟨s, hs, hsame ▸ hne, ?_⟩
      rw [(hregular o ho).identity_eq, hsame]
  · rintro ⟨s, hs, hne, rfl⟩
    have hmem : normalize s.text ∈ c.signatures := by
      refine (hsignatures _).mpr (.inr ⟨hne, s, hs, ?_⟩)
      rw [Sighting.signature, Text.normalize_trim]
    obtain ⟨o, ho, hsame⟩ := List.mem_map.mp hmem
    refine List.mem_map.mpr ⟨o, ho, ?_⟩
    rw [(hregular o ho).identity_eq, hsame]

/-- Two histories with the same set of signatures leave operations of the same signatures, kinds
and names on record. Kind and name of an operation follow from its signature, in whatever history
it was recorded. -/
theorem identities_record (source origin source' origin' : Text) (l l' : List Sighting) :
    ((l.map fun s => normalize s.text).toFinset = (l'.map fun s => normalize s.text).toFinset →
      (((empty source origin).record l).operations.map Operation.identity).toFinset =
        (((empty source' origin').record l').operations.map Operation.identity).toFinset) ∧
    ∀ o ∈ ((empty source origin).record l).operations,
      ∀ o' ∈ ((empty source' origin').record l').operations,
        o.signature = o'.signature → o.kind = o'.kind ∧ o.name = o'.name := by
  constructor
  · intro hsame
    have hsub : ∀ {a b : List Sighting},
        (a.map fun s => normalize s.text).toFinset = (b.map fun s => normalize s.text).toFinset →
        ∀ s ∈ a, ∃ t ∈ b, normalize t.text = normalize s.text := by
      intro a b hab s hs
      have hmem : normalize s.text ∈ (b.map fun s => normalize s.text).toFinset := by
        rw [← hab, List.mem_toFinset]
        exact List.mem_map_of_mem hs
      simpa using hmem
    ext i
    rw [List.mem_toFinset, List.mem_toFinset, mem_identities_iff, mem_identities_iff]
    constructor
    · rintro ⟨s, hs, hi⟩
      obtain ⟨t, ht, heq⟩ := hsub hsame s hs
      exact ⟨t, ht, heq ▸ hi⟩
    · rintro ⟨s, hs, hi⟩
      obtain ⟨t, ht, heq⟩ := hsub hsame.symm s hs
      exact ⟨t, ht, heq ▸ hi⟩
  · intro o ho o' ho' hsame
    have h := (regular_empty source origin).record l o ho
    have h' := (regular_empty source' origin').record l' o' ho'
    exact ⟨by rw [h.kind, h'.kind, hsame], by rw [h.name, h'.name, hsame]⟩

/-- Two spellings of a named query and an unnamed one in either order. -/
theorem identities_record_spellings :
    let named : Sighting := ⟨"query  A\n\x7b a \x7d".toList, "x".toList, []⟩
    let respaced : Sighting := ⟨" query A \x7b a \x7d".toList, [], []⟩
    let unnamed : Sighting := ⟨"mutation \x7b b \x7d".toList, [], []⟩
    ([named, unnamed, respaced].map fun s => normalize s.text).toFinset =
      ([unnamed, respaced].map fun s => normalize s.text).toFinset ∧
    (((empty [] []).record [named, unnamed, respaced]).operations.map
        Operation.identity).toFinset =
      (((empty [] []).record [unnamed, respaced]).operations.map Operation.identity).toFinset := by
  intro named respaced unnamed
  have hsame : ([named, unnamed, respaced].map fun s => normalize s.text).toFinset =
      ([unnamed, respaced].map fun s => normalize s.text).toFinset := by
    decide +kernel
  exact ⟨hsame, (identities_record [] [] [] [] _ _).1 hsame⟩

end OperationScan.Collector
