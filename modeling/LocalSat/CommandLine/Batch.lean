/-
The command that runs a batch.

* `BatchCommand`: what the command line of the command says;
* `BatchCommand.run`: the records of the runs on named formulas;
* `solvedLine`, `recordsText`: what is printed and written about them.
-/
import LocalSat.Batch.Run
import LocalSat.CommandLine.Words
import LocalSat.Json.Printer

namespace LocalSat

open LocalSat.CommandLine

/-- Where the formulas of a batch come from. -/
inductive BatchInput where
  /-- The lines of a text file. -/
  | lines (path : String)
  /-- The formula files of a folder. -/
  | folder (path : String)
  deriving Repr, DecidableEq, Inhabited

/-- What is to be run, and how. -/
structure BatchCommand where
  /-- Where the formulas come from. -/
  input : BatchInput
  /-- The path of the record file. -/
  savePath : String
  /-- The number of seeds for each formula. -/
  seeds : Json
  /-- The first seed. -/
  firstSeed : Json
  /-- The number of flips for each variable. -/
  flipsFactor : Json
  /-- The chance of a random flip. -/
  noise : Json
  /-- Whether flips that break nothing are made first. -/
  zeroBreakFirst : Bool
  /-- Whether the flips are recorded. -/
  recordTrace : Bool
  /-- The number of workers, which does not matter to the records. -/
  workers : Json
  deriving Repr, Inhabited

namespace BatchCommand

/-! ### The command line -/

/-- The switches of the command. -/
def switches : List Switch :=
  [⟨["--mode"], .text ["txt", "folder"], true⟩, ⟨["--txt-file"], .text [], false⟩,
    ⟨["--folder"], .text [], false⟩, ⟨["--save-path"], .text [], false⟩,
    ⟨["--seeds"], .integer [], false⟩, ⟨["--first-seed"], .integer [], false⟩,
    ⟨["--flips-factor"], .integer [], false⟩, ⟨["--noise"], .number, false⟩,
    ⟨["--zero-break-first"], .nothing, false⟩, ⟨["--record-trace"], .nothing, false⟩,
    ⟨["--workers"], .integer [], false⟩]

/-- Where the formulas come from. The path that the mode requires must be there and not be
empty. -/
def inputOf (s : Settings) : Except UsageError BatchInput :=
  let path (key : String) : String := (s.text? key).getD ""
  if s.text? "--mode" = some "txt" then
    if path "--txt-file" = "" then .error (.missingWith "--txt-file" "--mode" "txt")
    else .ok (.lines (path "--txt-file"))
  else
    if path "--folder" = "" then .error (.missingWith "--folder" "--mode" "folder")
    else .ok (.folder (path "--folder"))

/-- The command of a command line. -/
def ofWords (words : List String) : Except UsageError BatchCommand := do
  let s ← parse switches words
  let input ← inputOf s
  pure {
    input
    savePath := (s.text? "--save-path").getD "./output/walksat/walksat.json"
    seeds := s.value "--seeds" (.int 10)
    firstSeed := s.value "--first-seed" (.int 0)
    flipsFactor := s.value "--flips-factor" (.int 35)
    noise := s.value "--noise" (.float 0.5)
    zeroBreakFirst := s.isPresent "--zero-break-first"
    recordTrace := s.isPresent "--record-trace"
    workers := s.value "--workers" (.int 1) }

/-! ### The runs -/

/-- The seeds of every formula. -/
def seedList (c : BatchCommand) : Except Fault (List Json) := do
  let first ← c.firstSeed.toIndex
  let count ← c.seeds.toIndex
  pure ((List.range count.toNat).map fun (k : Nat) => .int (first + k))

/-- The options that the solvers are built with. -/
def setup (c : BatchCommand) : Setup where
  flipsFactor := c.flipsFactor
  noise := c.noise
  zeroBreakFirst := .bool c.zeroBreakFirst
  recordTrace := .bool c.recordTrace

/-- The jobs on named formulas, after the seeds and the workers are checked. -/
def jobList (c : BatchCommand) (formulas : List (String × Formula)) : Except Fault (List Job) := do
  let seeds ← c.seedList
  checkWorkers c.workers
  pure (jobs (Problem.ofFormulas formulas) seeds)

/-- The records of the runs on named formulas. -/
def run (c : BatchCommand) (formulas : List (String × Formula)) : Except Fault (List Record) := do
  let js ← c.jobList formulas
  js.mapM fun j => j.run c.setup

/-! ### After the runs -/

/-- The line about the runs. -/
def solvedLine (records : List Record) : String :=
  "Solved " ++ toString (records.countP Record.solved) ++ " / " ++ toString records.length ++
    " runs."

/-- The text of a record file. The times of each run are given. -/
def recordsText (records : List (Record × Json)) : String :=
  Json.documentText (.arr (records.map fun (r, times) => r.toJson times))

end BatchCommand

end LocalSat
