/-
Buckets of planted formulas.

* `Bucket`: the ranges from which the sizes of formulas are drawn;
* `Bucket.lines`: formulas on lines, up to the first failure.
-/
import LocalSat.Formula.Line
import LocalSat.Number.Dyadic
import LocalSat.Planted.Formula

namespace LocalSat

/-- The ranges of a bucket of formulas. -/
structure Bucket where
  /-- The smallest number of variables. -/
  variablesMin : Int
  /-- The largest number of variables. -/
  variablesMax : Int
  /-- The number of formulas. -/
  samples : Int
  /-- The smallest number of clauses for each variable. -/
  ratioMin : Float
  /-- The largest number of clauses for each variable. -/
  ratioMax : Float
  /-- The number of literals of a clause. -/
  clauseSize : Int

namespace Bucket

open LocalSat.Number

/-- The name of the file of a bucket with given texts for the numbers of variables. -/
def fileNameOf (low high : String) : String := "sat_" ++ low ++ "_" ++ high ++ ".txt"

/-- The name of the file of a bucket. -/
def fileName (b : Bucket) : String :=
  fileNameOf (intString b.variablesMin) (intString b.variablesMax)

/-- The number of clauses for a number of variables: the product, rounded to the nearest
integer, a half to the even one. -/
def clauseCount (ratio : Float) (varCount : Int) : Except Fault Int :=
  match ofInt? varCount with
  | none => .error .beyondFloats
  | some n =>
      match roundToInt? (ratio * n) with
      | some k => .ok k
      | none => .error .integerOfInfinity

/-- One formula of a bucket, on a line. -/
def formula (b : Bucket) : EStateM Fault Pcg64 String := do
  let n ← Pcg64.between b.variablesMin (b.variablesMax + 1)
  let ratio ← Pcg64.uniform b.ratioMin b.ratioMax
  match clauseCount ratio n with
  | .error e => throw e
  | .ok m =>
      let planted ← plantWithin n m b.clauseSize
      pure (lineText planted.clauses)

/-- The lines of formulas, and the failure that ended them if there was one. -/
def draw (b : Bucket) : (count : Nat) → Pcg64 → List String × Option Fault
  | 0, _ => ([], none)
  | count + 1, g =>
      match b.formula g with
      | .error e _ => ([], some e)
      | .ok line g' =>
          let (lines, failure) := b.draw count g'
          (line :: lines, failure)

/-- The lines of the formulas of a bucket. -/
def lines (b : Bucket) (g : Pcg64) : List String × Option Fault :=
  match checkCount b.samples with
  | .error e => ([], some e)
  | .ok count => b.draw count g

end Bucket

end LocalSat
