/-
Checking assignments, apart from any search.

* `PartialAssignment`: truth values for some of the variable numbers;
* `makesTrue`: a literal is true when its variable has the value that its sign asks
  for; the literal zero never is;
* `isSatisfied`: every clause has a literal that is true.
-/
import LocalSat.Literal

namespace LocalSat

/-- Truth values for some of the variable numbers. -/
abbrev PartialAssignment := Nat → Option Bool

namespace PartialAssignment

/-- The values of the variables from one on. -/
def ofValues (values : Array Bool) : PartialAssignment := fun v =>
  if v = 0 then none else values[v - 1]?

/-- The values in a list of entries. Of two entries for a variable the later one
counts. -/
def ofEntries (entries : List (Int × Bool)) : PartialAssignment := fun v =>
  entries.foldl (fun found e => if e.1 = (v : Int) then some e.2 else found) none

/-- Whether a literal is true. Neither literal of a variable without a value is. -/
def makesTrue (a : PartialAssignment) (l : Int) : Bool :=
  match a l.natAbs with
  | some true => 0 < l
  | some false => l < 0
  | none => false

/-- Whether every clause has a literal that is true. -/
def isSatisfied (a : PartialAssignment) (clauses : List (List Int)) : Bool :=
  clauses.all fun c => c.any a.makesTrue

/-- An assignment extends another when it has all of its values. -/
def Extends (b a : PartialAssignment) : Prop :=
  ∀ v x, a v = some x → b v = some x

/-- An assignment is total when every variable number from one on has a value. -/
def IsTotal (a : PartialAssignment) : Prop :=
  ∀ v, v ≠ 0 → (a v).isSome

end PartialAssignment

/-- A total assignment as values of variable numbers. -/
def Assignment.toPartial {n : Nat} (a : Assignment n) : PartialAssignment :=
  PartialAssignment.ofValues a.toArray

end LocalSat
