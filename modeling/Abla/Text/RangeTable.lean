/-!
# Tables of code-point ranges

A table is a sorted array of disjoint closed ranges `(lo, hi)`. Membership is found by halving
the part of the table that can still hold the code point.
-/

namespace Abla

/-- A sorted array of disjoint closed code-point ranges. -/
structure RangeTable where
  ranges : Array (Nat × Nat)

namespace RangeTable

/-- Looks for `n` among the ranges with index in `[lo, hi)`. -/
def searchIn (t : RangeTable) (n : Nat) (lo hi : Nat) : Bool :=
  if _h : lo < hi then
    let mid := (lo + hi) / 2
    match t.ranges[mid]? with
    | none => false
    | some (a, b) =>
      if n < a then t.searchIn n lo mid
      else if b < n then t.searchIn n (mid + 1) hi
      else true
  else false
termination_by hi - lo

/-- Whether the code point `n` lies in one of the ranges. -/
def contains (t : RangeTable) (n : Nat) : Bool := t.searchIn n 0 t.ranges.size

end RangeTable

end Abla
