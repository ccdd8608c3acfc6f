/-
The lines of the report on a solve.

* `headLines`: the title, the size of the instance and the heads of the columns;
* `progressLine`: a row of the table;
* `roundLine`: a line on a pass of unit propagation.
-/
import LocalSat.Number.Fixed
import LocalSat.Propagation.Propagate
import LocalSat.Solver.State
import LocalSat.Text.Align

namespace LocalSat.Report

open LocalSat.Text LocalSat.Number

/-- A line of equality signs. -/
def rule (width : Nat) : String := String.ofList (List.replicate width '=')

/-- The line between the parts of the table. -/
def separator : String := rule 79

/-- A number at the right end of a column. -/
def cell (width : Nat) (i : Int) : String := alignRight width (intString i)

/-- The title, the size of the instance and the heads of the columns. -/
def headLines {n : Nat} {γ : Type} (s : Solver n γ) (budget : Int) : List String :=
  [rule 28 ++ "[ Search Statistics ]" ++ rule 30,
    "| Vars " ++ cell 8 n ++ " | Clauses " ++ cell 8 s.added.size ++ " | Reduced " ++
      cell 8 s.clauses.size ++ " | Forced " ++ cell 8 s.forcedCount ++ " | Budget " ++
      cell 10 budget ++ " |",
    "|   Flips    |   Unsat   Best      |  Noise   |",
    separator]

/-- A part of a whole in percent. -/
def percent (part whole : Nat) : Float := nearest false (part * 100) whole

/-- A row of the table: flips, clauses without a true literal now and at best, and the
share of random flips. -/
def progressLine (counters : Counters) (unsat minUnsat : Nat) : String :=
  "| " ++ cell 10 counters.flips ++ " | " ++ cell 9 unsat ++ " " ++ cell 9 minUnsat ++ " | " ++
    alignRight 6 (fixedString 2 (percent counters.noise counters.flips)) ++ " % |"

/-- A line on a pass of unit propagation. -/
def roundLine (number : Nat) : Round → String
  | .contradiction => "simplify round " ++ toString number ++ ": contradiction"
  | .reduced clauses forced =>
      "simplify round " ++ toString number ++ ": " ++ toString clauses ++ " clauses, " ++
        toString forced ++ " forced"

end LocalSat.Report
