import OperationScan.Proofs.Scan.Sightings

/-!
# The spans that a scan claims

* `claimWith`: the spans in which a scan finds operations, one after the other.
* `exists_of_claimWith_cons`, `outcome_claimWith_cons`: the scan of spans finishes if that of each
  span does.
* `sublist_of_claimWith`: the claimed spans are some of the spans, in order.
-/

namespace OperationScan

open Collecting

/-- The spans of a list in which a scan finds operations. -/
def claimWith (scan : QuotedSpan → Collecting Nat) : List QuotedSpan → Collecting (List QuotedSpan)
  | [] => pure []
  | s :: rest => do
    let n ← scan s
    let more ← claimWith scan rest
    return if n == 0 then more else s :: more

theorem scanSpans_eq [Json.Nesting] (aggressive : Bool) (spans : List QuotedSpan) :
    scanSpans aggressive spans = claimWith (scanSpan aggressive) spans := by
  induction spans with
  | nil => rfl
  | cons s rest ih => rw [scanSpans, claimWith, ih]

variable {scan scan' : QuotedSpan → Collecting Nat} {s : QuotedSpan}
  {spans claimed more : List QuotedSpan} {c c₁ c' : Collector} {n : Nat}

theorem claimWith_congr (h : ∀ s ∈ spans, scan s = scan' s) :
    claimWith scan spans = claimWith scan' spans := by
  induction spans with
  | nil => rfl
  | cons s rest ih =>
    obtain ⟨hs, hrest⟩ := List.forall_mem_cons.mp h
    rw [claimWith, claimWith, hs, ih hrest]

theorem outcome_claimWith_cons (hs : (scan s).outcome c = (.ok n, c₁))
    (hmore : (claimWith scan spans).outcome c₁ = (.ok more, c')) :
    (claimWith scan (s :: spans)).outcome c = (.ok (if n == 0 then more else s :: more), c') := by
  rw [claimWith, outcome_bind_ok hs, outcome_bind_ok hmore]
  rfl

/-- A finished scan of spans has finished the first one and the others. -/
theorem exists_of_claimWith_cons
    (h : (claimWith scan (s :: spans)).outcome c = (.ok claimed, c')) :
    ∃ n c₁ more, (scan s).outcome c = (.ok n, c₁) ∧
      (claimWith scan spans).outcome c₁ = (.ok more, c') ∧
      claimed = if n == 0 then more else s :: more := by
  obtain ⟨n, c₁, hs, hrest⟩ := exists_of_outcome_bind h
  obtain ⟨more, c₂, hmore, hlast⟩ := exists_of_outcome_bind hrest
  cases hlast
  exact ⟨n, c₁, more, hs, hmore, rfl⟩

/-- Whatever is claimed, some spans are left out and the order stays. -/
theorem sublist_of_claimWith (h : (claimWith scan spans).outcome c = (.ok claimed, c')) :
    claimed.Sublist spans := by
  induction spans generalizing claimed c with
  | nil =>
    cases h
    exact .slnil
  | cons s spans ih =>
    obtain ⟨n, c₁, more, -, hmore, rfl⟩ := exists_of_claimWith_cons h
    split
    · exact (ih hmore).cons s
    · exact (ih hmore).cons_cons s

end OperationScan
