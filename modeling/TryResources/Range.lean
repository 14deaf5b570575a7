import TryResources.Position

/-!
# Ranges of nodes

An inclusive span of a method body. A range holds at least one node: `Range.between` refuses a
span that ends before it starts. Ranges are ordered by their first position and then by their last.

* `between_eq_ok_iff`: which spans are ranges.
* `contains_iff`, `count_pos`: membership, and the number of nodes.
-/

namespace TryResources

/-- The nodes from `first` to `last`, both included. -/
structure Range where
  first : Nat
  last : Nat
  first_le_last : first ≤ last
  deriving Repr, DecidableEq

namespace Range

/-- The range from `first` to `last`, unless it is reversed. -/
def between (first last : Nat) : Except Fault Range :=
  if h : first ≤ last then .ok ⟨first, last, h⟩ else .error (.reversedRange first last)

theorem between_eq_ok_iff {first last : Nat} {r : Range} :
    between first last = .ok r ↔ r.first = first ∧ r.last = last := by
  obtain ⟨a, b, hab⟩ := r
  unfold between
  split
  · simp [eq_comm]
  · rename_i h
    constructor
    · intro e; cases e
    · rintro ⟨rfl, rfl⟩; exact absurd hab h

/-- The node at a position belongs to the range. -/
def contains (r : Range) (p : Nat) : Bool :=
  r.first ≤ p && p ≤ r.last

theorem contains_iff (r : Range) (p : Nat) :
    r.contains p = true ↔ r.first ≤ p ∧ p ≤ r.last := by
  simp [contains]

/-- The number of nodes in a range, markers included. -/
def count (r : Range) : Nat :=
  r.last - r.first + 1

theorem count_pos (r : Range) : 0 < r.count := Nat.succ_pos _

/-- A range is written `#first..=#last`. -/
def render (r : Range) : String :=
  Position.render r.first ++ "..=" ++ Position.render r.last

/-- The order of ranges: by the first position, then by the last. -/
def precedes (r s : Range) : Bool :=
  r.first < s.first || (r.first == s.first && r.last ≤ s.last)

/-- Ranges in ascending order. -/
def sort (rs : List Range) : List Range :=
  rs.mergeSort precedes

end Range

end TryResources
