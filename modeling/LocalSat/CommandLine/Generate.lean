/-
The command that writes a bucket of planted formulas.

* `GenerateCommand`: what the command line of the command says;
* `GenerateCommand.run`: the lines of the bucket, with the failure that ends them.
-/
import LocalSat.CommandLine.Words
import LocalSat.Planted.Bucket

namespace LocalSat

open LocalSat.CommandLine

/-- Which bucket is to be written, and where. What was dropped from the command line is
none. -/
structure GenerateCommand where
  /-- The smallest number of variables. -/
  variablesMin : Option Int
  /-- The largest number of variables. -/
  variablesMax : Option Int
  /-- The number of formulas. -/
  samples : Option Int
  /-- The smallest number of clauses for each variable. -/
  ratioMin : Option Float
  /-- The largest number of clauses for each variable. -/
  ratioMax : Option Float
  /-- The number of literals of a clause. -/
  clauseSize : Option Int
  /-- The seed, for which none counts as zero. -/
  seed : Option Int
  /-- The path of the folder. -/
  folder : Option String

namespace GenerateCommand

/-- The switches of the command. -/
def switches : List Switch :=
  [⟨["--vars-min"], .integer [], true⟩, ⟨["--vars-max"], .integer [], true⟩,
    ⟨["--samples"], .integer [], true⟩, ⟨["--ratio-min"], .number, false⟩,
    ⟨["--ratio-max"], .number, false⟩, ⟨["--clause-size"], .integer [], false⟩,
    ⟨["--seed"], .integer [], false⟩, ⟨["--out-dir"], .text [], true⟩]

/-- The command of a command line. -/
def ofWords (words : List String) : Except UsageError GenerateCommand := do
  let s ← parse switches words
  pure {
    variablesMin := s.integer "--vars-min" 0
    variablesMax := s.integer "--vars-max" 0
    samples := s.integer "--samples" 0
    ratioMin := s.number "--ratio-min" 3.0
    ratioMax := s.number "--ratio-max" 3.5
    clauseSize := s.integer "--clause-size" 3
    seed := s.integer "--seed" 42
    folder := s.textIfKept? "--out-dir" }

/-! ### The bucket -/

/-- The bucket, if nothing was dropped. -/
def bucket? (c : GenerateCommand) : Option Bucket := do
  pure {
    variablesMin := ← c.variablesMin
    variablesMax := ← c.variablesMax
    samples := ← c.samples
    ratioMin := ← c.ratioMin
    ratioMax := ← c.ratioMax
    clauseSize := ← c.clauseSize }

/-- The name of the file. -/
def fileName (c : GenerateCommand) : String :=
  let part : Option Int → String
    | some i => Number.intString i
    | none => "[]"
  Bucket.fileNameOf (part c.variablesMin) (part c.variablesMax)

/-- What ends the first formula when something was dropped that it needs: everything is
drawn that is drawn before that. -/
def drawIncomplete (c : GenerateCommand) : EStateM Fault Pcg64 Unit :=
  match c.variablesMin, c.variablesMax with
  | some low, some high => do
      let n ← Pcg64.between low (high + 1)
      match c.ratioMin, c.ratioMax with
      | some a, some b => do
          let ratio ← Pcg64.uniform a b
          match Bucket.clauseCount ratio n with
          | .error e => throw e
          | .ok _ => throw .notNumeric
      | _, _ => throw .notNumeric
  | none, some high =>
      if Number.twoPow 63 ≤ high then throw .wideChoice
      else if high < -(Number.twoPow 63) then throw .emptyChoice
      else throw .notNumeric
  | _, none => throw .notNumeric

/-- The failure of a command from which something was dropped, if there is a formula to be
drawn. -/
def incompleteFault (c : GenerateCommand) (g : Pcg64) : Option Fault :=
  match c.samples with
  | none => some .notNumeric
  | some k =>
      match checkCount k with
      | .error e => some e
      | .ok 0 => none
      | .ok (_ + 1) =>
          match c.drawIncomplete g with
          | .error e _ => some e
          | .ok () _ => none

/-- The lines of the bucket, with the failure that ends them if there is one. Without a
generator or a folder there is no file at all. -/
def run (c : GenerateCommand) : Except Fault (List String × Option Fault) := do
  let g ← Pcg64.ofInt (c.seed.getD 0)
  if c.folder.isNone then throw .noFolder
  else
    match c.bucket? with
    | some b => pure (b.lines g)
    | none => pure ([], c.incompleteFault g)

end GenerateCommand

end LocalSat
