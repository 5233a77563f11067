import OperationScan.Text.Basic

/-!
# Similar texts

Two texts are as similar as the stretches that they share are long. The longest shared stretch
comes first, and then those on either side of it.

* `sharedLength`: the length of all shared stretches.
* `mostSimilar`: the texts of a list that are most similar to a given one.
-/

namespace OperationScan.Text

/-- The length of what two texts share at their starts. -/
def sharedStart : Text → Text → Nat
  | c :: cs, d :: ds => if c == d then sharedStart cs ds + 1 else 0
  | _, _ => 0

/-- A stretch of two texts: where it starts in each, and its length. -/
structure SharedStretch where
  left : Nat
  right : Nat
  length : Nat
  deriving Repr, DecidableEq

/-- The longest stretch from the start of one text anywhere in another, unless a known one is
as long. -/
def longestFrom (s : Text) (left : Nat) : (right : Nat) → Text → SharedStretch → SharedStretch
  | _, [], best => best
  | right, d :: ds, best =>
    let length := sharedStart s (d :: ds)
    longestFrom s left (right + 1) ds (if best.length < length then ⟨left, right, length⟩ else best)

/-- The longest stretch of two texts, the first of several in the one text and then in the
other. -/
def longestShared (t : Text) : (left : Nat) → Text → SharedStretch → SharedStretch
  | _, [], best => best
  | left, c :: cs, best => longestShared t (left + 1) cs (longestFrom (c :: cs) left 0 t best)

/-- The length of all shared stretches, with at most `fuel` of them after each other. -/
def sharedWithin : (fuel : Nat) → Text → Text → Nat
  | 0, _, _ => 0
  | fuel + 1, s, t =>
    let best := longestShared t 0 s ⟨0, 0, 0⟩
    if best.length == 0 then 0
    else
      sharedWithin fuel (s.take best.left) (t.take best.right) + best.length +
        sharedWithin fuel (s.drop (best.left + best.length)) (t.drop (best.right + best.length))

/-- The length of all stretches that two texts share. -/
def sharedLength (s t : Text) : Nat := sharedWithin s.length s t

/-- A text shares at least three fifths with another. -/
def isSimilar (s t : Text) : Bool := 3 * (s.length + t.length) ≤ 10 * sharedLength s t

/-- One text is at least as similar to a given one as another; of two equally similar ones, that
behind in the order of texts. -/
def atLeastAsSimilar (t s₁ s₂ : Text) : Bool :=
  let left := sharedLength s₁ t * (s₂.length + t.length)
  let right := sharedLength s₂ t * (s₁.length + t.length)
  right < left || (left == right && atMost s₂ s₁)

/-- The most similar ones of some texts, at most so many. -/
def mostSimilar (count : Nat) (t : Text) (texts : List Text) : List Text :=
  ((texts.filter fun s => isSimilar s t).mergeSort (atLeastAsSimilar t)).take count

end OperationScan.Text
