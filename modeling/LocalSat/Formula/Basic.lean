/-
Formulas by number.

* `Formula`: clauses of numbers and a number of variables;
* `Formula.ofClauses`, `Formula.widened`: with the variables that the clauses name, and with at
  least these;
* `clausesJson`: clauses as a value.
-/
import LocalSat.Fault

namespace LocalSat

/-- The largest absolute value in lists of numbers, zero if there is none. -/
def largestVariable (clauses : List (List Int)) : Nat :=
  clauses.foldl (fun m c => c.foldl (fun k l => max k l.natAbs) m) 0

/-- Clauses as a value. -/
def clausesJson (clauses : List (List Int)) : Json :=
  .arr (clauses.map fun c => .arr (c.map Json.int))

/-- Clauses of numbers, with a number of variables. -/
structure Formula where
  /-- The number of variables. -/
  varCount : Nat
  /-- The clauses. -/
  clauses : List (List Int)
  deriving Repr, DecidableEq

/-- The formula of given clauses, with the variables that they name. -/
def Formula.ofClauses (clauses : List (List Int)) : Formula :=
  ⟨largestVariable clauses, clauses⟩

/-- The formula with at least the variables that its clauses name. -/
def Formula.widened (f : Formula) : Formula :=
  { f with varCount := max f.varCount (largestVariable f.clauses) }

end LocalSat
