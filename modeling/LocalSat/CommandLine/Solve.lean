/-
The command that solves one formula file.

* `SolveCommand`: what the command line of the command says;
* `SolveCommand.runWith`, `SolveCommand.run`: the solve of a formula, by any reader of formula
  files and by ours, with the lines of its report;
* `resultText`: the text of the result file, which is a model on a line or the word for
  having none;
* `Finish`: what is printed and written after a solve, and the exit code.
-/
import LocalSat.CommandLine.Words
import LocalSat.Formula.Dimacs
import LocalSat.Formula.Line
import LocalSat.Solver.Setup
import LocalSat.Solver.Solve

namespace LocalSat

open LocalSat.CommandLine LocalSat.Number LocalSat.Text

/-! ### The command line -/

/-- What is to be solved, and how. -/
structure SolveCommand where
  /-- The path of the formula file. The empty path stands for the formula without
  clauses. -/
  input : String
  /-- The path of the result file, or a hyphen for the report. -/
  output : Option String := none
  /-- The seed. -/
  seed : Json := .int 42
  /-- The number of flips for each variable. -/
  flipsFactor : Json := .int 35
  /-- The chance of a random flip. -/
  noise : Json := .float 0.5
  /-- Whether flips that break nothing are made first. -/
  zeroBreakFirst : Bool := false
  /-- How much is reported. -/
  verbosity : Json := .int 1
  deriving Repr, Inhabited

namespace SolveCommand

/-- The switches of the command. -/
def switches : List Switch :=
  [⟨["-i", "--input_file"], .text [], true⟩, ⟨["-o", "--output_file"], .text [], false⟩,
    ⟨["--seed"], .integer [], false⟩, ⟨["--flips-factor"], .integer [], false⟩,
    ⟨["--noise"], .number, false⟩, ⟨["--zero-break-first"], .nothing, false⟩,
    ⟨["-v", "--verbosity"], .integer [0, 1, 2], false⟩]

/-- The command of a command line. -/
def ofWords (words : List String) : Except UsageError SolveCommand := do
  let s ← parse switches words
  pure {
    input := (s.text? "--input_file").getD ""
    output := s.text? "--output_file"
    seed := s.value "--seed" (.int 42)
    flipsFactor := s.value "--flips-factor" (.int 35)
    noise := s.value "--noise" (.float 0.5)
    zeroBreakFirst := s.isPresent "--zero-break-first"
    verbosity := s.value "--verbosity" (.int 1) }

/-- The options that the solver is built with. -/
def setup (c : SolveCommand) : Setup where
  flipsFactor := c.flipsFactor
  noise := c.noise
  zeroBreakFirst := .bool c.zeroBreakFirst

/-! ### The solve -/

/-- A solve that has come to an outcome. -/
structure Solved where
  /-- The statistics of the solver. -/
  stats : Solver.Stats
  /-- The assignment, if one was found. -/
  model : Option (List Bool)

/-- A solver for a formula. -/
def start (c : SolveCommand) (f : Formula) : Except Fault (Sigma fun n => Solver n Pcg64) :=
  (c.setup.build (.int f.varCount) (clausesJson f.clauses) c.seed).map fun ⟨n, s⟩ =>
    ⟨n, { s with verbosity := c.verbosity.numeral? }⟩

/-- The assignment of a solver after an outcome. -/
def found {n : Nat} {γ : Type} (outcome : Status) (s : Solver n γ) : Option (List Bool) :=
  if outcome = .satisfied then s.model.map Vector.toList else none

/-- The solve of the formula that a reader finds in a text, with the lines of its report. -/
def runWith (reader : List Char → Except Fault Formula) (c : SolveCommand) (text : String) :
    List String × Except Fault Solved :=
  match (loadWith reader text.toList).bind c.start with
  | .error e => ([], .error e)
  | .ok ⟨_, s⟩ =>
      match Solver.solve s with
      | .error e t => (t.report.toList, .error e)
      | .ok outcome t => (t.report.toList, .ok ⟨t.stats, found outcome t⟩)

/-- The solve of the formula in a text, with the lines of its report. -/
def run (c : SolveCommand) (text : String) : List String × Except Fault Solved :=
  c.runWith readDimacs text

/-! ### After the solve -/

/-- The heads of the lines about a solve, which are aligned. -/
def statLine (head text : String) : String := alignLeft 22 head ++ ": " ++ text

/-- A number with a remark behind it. -/
def remark (n : Nat) (text : String) : String := alignLeft 14 (toString n) ++ " (" ++ text ++ ")"

/-- The lines about a solve. The number of flips in a second is given. -/
def statLines (s : Solver.Stats) (rate : String) : List String :=
  let share : Float :=
    if s.counters.flips = 0 then 0 else Report.percent s.counters.noise s.counters.flips
  [statLine "simplify rounds" (toString s.rounds),
    statLine "forced variables" (toString s.forcedCount),
    statLine "reduced clauses" (toString s.clauses),
    statLine "flips" (remark s.counters.flips (rate ++ " /sec")),
    statLine "noise moves" (remark s.counters.noise (fixedString 2 share ++ " % of flips")),
    statLine "zero-break moves" (toString s.counters.zeroBreak),
    statLine "best unsat" (toString s.minUnsat)]

/-- The literals of a model from the variable at a place on. -/
def modelLiterals : (place : Nat) → List Bool → List Int
  | _, [] => []
  | place, b :: model => numberAt place b :: modelLiterals (place + 1) model

/-- There is a literal for each value. -/
@[simp] theorem length_modelLiterals (place : Nat) (model : List Bool) :
    (modelLiterals place model).length = model.length := by
  induction model generalizing place with
  | nil => rfl
  | cons b model ih => simp [modelLiterals, ih]

/-- A model on a line, as a clause is written. -/
def modelLine (model : List Bool) : String := String.ofList (clauseChars (modelLiterals 0 model))

/-- The lines of a result. -/
def resultLines : Option (List Bool) → List String
  | some model => ["SAT", modelLine model]
  | none => ["INDET"]

/-- The text of a result file. -/
def resultText (model : Option (List Bool)) : String :=
  String.join ((resultLines model).map fun l => l ++ "\n")

/-- The word for a result. That no assignment was found proves nothing. -/
def verdict (model : Option (List Bool)) : String :=
  if model.isSome then "SATISFIABLE" else "INDETERMINATE"

/-- The exit code for a result. -/
def exitCode (model : Option (List Bool)) : Nat := if model.isSome then 10 else 0

/-- What is printed and written after a solve. -/
structure Finish where
  /-- The lines that are printed. -/
  lines : List String
  /-- The file that is written, by path and text. -/
  file : Option (String × String)
  /-- The exit code. -/
  exitCode : Nat
  deriving Repr, DecidableEq

/-- Whether the statistics are printed. -/
def isLoud (c : SolveCommand) : Bool :=
  match c.verbosity.numeral? with
  | some x => (Numeral.int 1).le x
  | none => false

/-- What is printed and written after a solve. -/
def finish (c : SolveCommand) (s : Solved) (rate : String) : Finish :=
  let stats := if c.isLoud then statLines s.stats rate else []
  let (printed, file) : List String × Option (String × String) := match c.output with
    | none => ([], none)
    | some "" => ([], none)
    | some "-" => (resultLines s.model, none)
    | some path => ([], some (path, resultText s.model))
  { lines := stats ++ [verdict s.model] ++ printed, file, exitCode := exitCode s.model }

end SolveCommand

end LocalSat
