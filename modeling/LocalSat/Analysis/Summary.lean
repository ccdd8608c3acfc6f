/-
Summaries of runs.

* `Runs`: the runs by their outcome, and the flips of the ones that found an assignment;
* `Summary`: numbers of runs, the rate of success and averages of flips;
* `summarize`: the summary of a list of records.
-/
import LocalSat.Analysis.Average
import LocalSat.Analysis.Metric

namespace LocalSat.Analysis

open LocalSat.Number

/-! ### Counting -/

/-- Runs by their outcome. -/
structure Runs where
  /-- The runs that found an assignment. -/
  solved : Nat
  /-- The runs whose clauses were refuted. -/
  contradictions : Nat
  /-- The runs that used up their flips. -/
  exhausted : Nat
  /-- The readable numbers of flips of the runs that found an assignment. -/
  flips : Array Float

namespace Runs

/-- No runs. -/
def none : Runs := ⟨0, 0, 0, #[]⟩

/-- One more run that found an assignment. -/
def addSolved (r : Runs) (flips : Option Float) : Runs :=
  { r with
    solved := r.solved + 1
    flips := match flips with
      | some x => r.flips.push x
      | .none => r.flips }

/-- The runs with the one of a record. -/
def add (r : Runs) (record : Json) : Except Fault Runs := do
  let stats ← statistics record
  match stats.get? "status" with
  | some (.str (.plain "SAT")) => (readMetric stats "flips").map r.addSolved
  | some (.str (.plain "CONTRADICTION")) => pure { r with contradictions := r.contradictions + 1 }
  | some (.str (.plain "EXHAUSTED")) => pure { r with exhausted := r.exhausted + 1 }
  | _ => pure r

/-- The runs of a list of records. -/
def ofRecords (records : List Json) : Except Fault Runs := records.foldlM add Runs.none

end Runs

/-! ### Summaries -/

/-- A summary of runs. -/
structure Summary where
  /-- The number of runs. -/
  runs : Nat
  /-- The number of runs that found an assignment. -/
  solved : Nat
  /-- The part of the runs that found an assignment. -/
  successRate : Option Float
  /-- The median of the flips of these runs. -/
  flipsMedian : Option Float
  /-- The mean of the flips of these runs. -/
  flipsMean : Option Float
  /-- The number of runs whose clauses were refuted. -/
  contradictions : Nat
  /-- The number of runs that used up their flips. -/
  exhausted : Nat

/-- The summary of a number of runs. -/
def Runs.summary (r : Runs) (count : Nat) : Summary where
  runs := count
  solved := r.solved
  successRate := if count = 0 then Option.none else some (nearest false r.solved count)
  flipsMedian := median r.flips.toList
  flipsMean := mean r.flips.toList
  contradictions := r.contradictions
  exhausted := r.exhausted

/-- The summary of a list of records. -/
def summarize (records : List Json) : Except Fault Summary :=
  (Runs.ofRecords records).map fun r => r.summary records.length

end LocalSat.Analysis
