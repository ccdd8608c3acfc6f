/-
Averages of floating-point numbers.

* `pairwiseSum`: a sum by halves, in which long lists lose little to rounding;
* `mean`: the sum by the number of its terms;
* `median`: the number in the middle of the sorted list, or the half of the sum of the
  two numbers there.
-/

namespace LocalSat.Analysis

/-! ### Sums -/

/-- The sum of the numbers of an array from left to right, after a first summand. -/
def sumFrom (first : Float) (a : Array Float) : Float := a.foldl (· + ·) first

/-- The sum of every eighth number from the one at place `j` on, out of the full groups
of eight. -/
def laneSum (a : Array Float) (j : Nat) : Float :=
  (List.range (a.size / 8)).tail.foldl (fun s k => s + a.getD (8 * k + j) 0) (a.getD j 0)

/-- The sum of at least eight numbers by eight lanes, and of what is left after the last
full group. -/
def blockSum (a : Array Float) : Float :=
  let lane := laneSum a
  sumFrom (((lane 0 + lane 1) + (lane 2 + lane 3)) + ((lane 4 + lane 5) + (lane 6 + lane 7)))
    (a.extract (8 * (a.size / 8)) a.size)

/-- The sum of an array. More than 128 numbers are added by halves, of which the first
one consists of full groups of eight. -/
def pairwiseSum (a : Array Float) : Float :=
  if a.size < 8 then sumFrom 0 a
  else if _h : a.size ≤ 128 then blockSum a
  else
    let half := a.size / 2 / 8 * 8
    pairwiseSum (a.extract 0 half) + pairwiseSum (a.extract half a.size)
termination_by a.size
decreasing_by
  all_goals
    simp only [Array.size_extract]
    omega

/-! ### Averages -/

/-- A number in which zero has no sign. -/
def unsignedZero (x : Float) : Float := if x == 0 then 0 else x

/-- The sum of an array by its size. -/
def average (a : Array Float) : Float :=
  unsignedZero (pairwiseSum a / a.size.toFloat)

/-- The mean of a list of numbers; an empty one has none. -/
def mean (xs : List Float) : Option Float :=
  if xs.isEmpty then none else some (average xs.toArray)

/-- The median of a list of numbers; an empty one has none. -/
def median (xs : List Float) : Option Float :=
  let sorted := (xs.mergeSort fun x y => x ≤ y).toArray
  let middle := sorted.size / 2
  if sorted.isEmpty then none
  else if sorted.size % 2 = 1 then some (average (sorted.extract middle (middle + 1)))
  else some (average (sorted.extract (middle - 1) (middle + 1)))

end LocalSat.Analysis
