/-
The program.

* `solve`: one formula file;
* `batch`: the formulas of a text or of a folder, each with several seeds;
* `generate`: a bucket of formulas around hidden assignments;
* `analyse`: a summary of the record files of a folder.

Reading, printing, writing and measuring times is all that happens here.
-/
import LocalSat.Analysis.Report
import LocalSat.CommandLine.Batch
import LocalSat.CommandLine.Generate
import LocalSat.CommandLine.Solve

namespace LocalSat.Program

open LocalSat.CommandLine LocalSat.Number

/-! ### Messages -/

/-- Prints lines. -/
def printLines (lines : List String) : IO Unit := lines.forM fun l => IO.println l

/-- Prints why the words are no command line. -/
def rejectUsage (e : UsageError) : IO UInt32 := do
  match e with
  | .help =>
      IO.println "commands: solve, batch, generate, analyse"
      pure 0
  | _ =>
      IO.eprintln ("error: " ++ e.message)
      pure 2

/-- Prints why a command failed. -/
def reject (e : Fault) : IO UInt32 := do
  IO.eprintln ("error: " ++ e.message)
  pure 1

/-! ### Files -/

/-- The files of a folder. -/
def readFolder (path : String) : IO Folder := do
  let entries ← (← IO.FS.realPath path).readDir
  let names := entries.toList.map fun e => e.fileName
  let wanted := names.filter fun name => Folder.isFormulaName name || Folder.isRecordName name
  let files ← wanted.mapM fun name => do
    let file : String := path ++ "/" ++ name
    let text ← IO.FS.readFile file
    pure (name, text)
  pure (Folder.ofFiles files)

/-- The path of the folder around a file. -/
def parentOf (path : String) : String :=
  let parent := (path.toList.reverse.dropWhile (· != '/')).reverse
  if parent.isEmpty then "." else String.ofList parent

/-! ### Commands -/

/-- The number of flips in a second. -/
def flipRate (flips milliseconds : Nat) : String :=
  toString (if milliseconds = 0 then 0 else roundHalfEven (flips * 1000) milliseconds)

/-- Solves one formula file. -/
def solve (words : List String) : IO UInt32 := do
  match SolveCommand.ofWords words with
  | .error e => rejectUsage e
  | .ok c =>
      let text ← if c.input = "" then pure "" else IO.FS.readFile c.input
      let start ← IO.monoMsNow
      let (lines, result) ← IO.lazyPure fun _ => c.run text
      let stop ← IO.monoMsNow
      printLines lines
      match result with
      | .error e => reject e
      | .ok solved =>
          let finish := c.finish solved (flipRate solved.stats.counters.flips (stop - start))
          printLines finish.lines
          if let some (path, text) := finish.file then IO.FS.writeFile path text
          pure (UInt32.ofNat finish.exitCode)

/-- Nanoseconds as a number of milliseconds. -/
def millisecondsJson (nanoseconds : Nat) : Json := .float (nearest false nanoseconds 1000000)

/-- The record of a job, with the times that its parts took. -/
def runJob (setup : Setup) (j : Job) : IO (Except Fault (Record × Json)) := do
  let start ← IO.monoNanosNow
  match ← IO.lazyPure fun _ => j.build setup with
  | .error e => pure (.error e)
  | .ok ⟨_, s⟩ =>
      let built ← IO.monoNanosNow
      match ← IO.lazyPure fun _ => Solver.simplify s with
      | .error e _ => pure (.error e)
      | .ok _ t =>
          let simplified ← IO.monoNanosNow
          match ← IO.lazyPure fun _ => Solver.solve t with
          | .error e _ => pure (.error e)
          | .ok outcome u =>
              let stop ← IO.monoNanosNow
              let times : Json := .obj [("build", millisecondsJson (built - start)),
                ("simplify", millisecondsJson (simplified - built)),
                ("search", millisecondsJson (stop - simplified)),
                ("total", millisecondsJson (stop - start))]
              pure (.ok (.ofRun j.problem j.seed setup outcome u, times))

/-- The records of jobs, with the times that their parts took. -/
def runJobs (setup : Setup) : List Job → IO (Except Fault (List (Record × Json)))
  | [] => pure (.ok [])
  | j :: js => do
      match ← runJob setup j with
      | .error e => pure (.error e)
      | .ok record =>
          let rest ← runJobs setup js
          pure (rest.map fun records => record :: records)

/-- Runs a batch. -/
def batch (words : List String) : IO UInt32 := do
  match BatchCommand.ofWords words with
  | .error e => rejectUsage e
  | .ok c =>
      let formulas ← match c.input with
        | .lines path => do
            let text ← IO.FS.readFile path
            pure (Problem.readLines text)
        | .folder path => do
            let folder ← readFolder path
            pure (Problem.readFolder folder)
      match formulas with
      | .error e => reject e
      | .ok named =>
          match c.jobList named with
          | .error e => reject e
          | .ok js =>
              match ← runJobs c.setup js with
              | .error e => reject e
              | .ok records =>
                  IO.println (BatchCommand.solvedLine (records.map fun r => r.1))
                  IO.FS.createDirAll (parentOf c.savePath)
                  IO.FS.writeFile c.savePath (BatchCommand.recordsText records)
                  pure 0

/-- Writes a bucket of formulas. -/
def generate (words : List String) : IO UInt32 := do
  match GenerateCommand.ofWords words with
  | .error e => rejectUsage e
  | .ok c =>
      match c.run with
      | .error e => reject e
      | .ok (lines, failure) =>
          let folder := c.folder.getD "."
          let file : String := folder ++ "/" ++ c.fileName
          IO.FS.createDirAll folder
          IO.FS.writeFile file (String.join (lines.map fun l => l ++ "\n"))
          match failure with
          | none => pure 0
          | some e => reject e

/-- Summarises the record files of a folder. -/
def analyse (words : List String) : IO UInt32 := do
  let path := words.headD "./output/walksat"
  let (skipped, records) := (← readFolder path).records path
  printLines skipped
  match records with
  | .error e => reject e
  | .ok files =>
      let (lines, failure) := Analysis.report path files
      printLines lines
      match failure with
      | none => pure 0
      | some e => reject e

end LocalSat.Program

/-- The commands by name. -/
def main (words : List String) : IO UInt32 :=
  match words with
  | "solve" :: rest => LocalSat.Program.solve rest
  | "batch" :: rest => LocalSat.Program.batch rest
  | "generate" :: rest => LocalSat.Program.generate rest
  | "analyse" :: rest => LocalSat.Program.analyse rest
  | _ => do
      IO.eprintln "commands: solve, batch, generate, analyse"
      pure 2
