/-
Named problems.

* `Problem`: a formula with a name, whose parts are values that are checked when a solver
  is built;
* `Problem.readLines`: the formulas on the lines of a text, named by their place;
* `Problem.readFolder`: the formulas in the formula files of a folder, named by the file.
-/
import LocalSat.Folder
import LocalSat.Formula.Dimacs
import LocalSat.Formula.Line

namespace LocalSat

open LocalSat.Text

/-- A formula with a name. -/
structure Problem where
  /-- The name. -/
  name : Json
  /-- The number of variables. -/
  varCount : Json
  /-- The clauses. -/
  clauses : Json

namespace Problem

/-- The problem of a formula. -/
def ofFormula (name : String) (f : Formula) : Problem :=
  ⟨.str name, .int f.varCount, clausesJson f.clauses⟩

/-- The number of clauses. -/
def clauseCount (p : Problem) : Nat := (p.clauses.items?.getD []).length

/-! ### Lines -/

/-- The name of the problem on a line. -/
def lineName (i : Nat) : String := "line_" ++ toString i

/-- The formulas on lines, of which the first has the place `i`, by name. -/
def readLinesFrom : (i : Nat) → List (List Char) → Except Fault (List (String × Formula))
  | _, [] => .ok []
  | i, l :: ls => do
      let f ← readLine l
      let rest ← readLinesFrom (i + 1) ls
      pure ((lineName i, f) :: rest)

/-- The formulas on the lines of a text that are not blank, by name. -/
def readLines (text : String) : Except Fault (List (String × Formula)) :=
  readLinesFrom 0 (contentLines text.toList)

/-! ### Folders -/

/-- The formulas in files, by name. -/
def readFiles : List (String × String) → Except Fault (List (String × Formula))
  | [] => .ok []
  | (name, text) :: files => do
      let f ← loadDimacs text.toList
      let rest ← readFiles files
      pure ((name, f) :: rest)

/-- The formulas in the formula files of a folder, by name. -/
def readFolder (f : Folder) : Except Fault (List (String × Formula)) :=
  readFiles (f.select Folder.isFormulaName)

/-- The problems of named formulas. -/
def ofFormulas (formulas : List (String × Formula)) : List Problem :=
  formulas.map fun (name, f) => ofFormula name f

end Problem

end LocalSat
