/-
Records of runs.

* `Record`: what is kept of a run;
* `Record.fields`: the fields of a record as an object; the times are given by who
  measures them;
* `Record.ofRun`: the record of a solver that has come to an outcome.
-/
import LocalSat.Batch.Problem
import LocalSat.Solver.Setup
import LocalSat.Solver.Solve
import LocalSat.Trace.Text

namespace LocalSat

/-- What is kept of a run. -/
structure Record where
  /-- The name of the problem, as it was given. -/
  name : Json
  /-- The number of variables, as it was given. -/
  varCount : Json
  /-- The number of clauses. -/
  clauses : Nat
  /-- The seed, as it was given. -/
  seed : Json
  /-- Whether an assignment was found. -/
  solved : Bool
  /-- The statistics of the solver. -/
  stats : Solver.Stats
  /-- Whether the assignment that was found satisfies the clauses. -/
  verified : Option Bool
  /-- The flips, if they were recorded. -/
  flips : Option (List Flip)

/-- The statistics of a solver as an object. -/
def Solver.Stats.toJson (s : Solver.Stats) : Json :=
  let nat (n : Nat) : Json := .int n
  .obj [("status", .str s.status.text), ("simplify_rounds", nat s.rounds),
    ("forced_vars", nat s.forcedCount), ("n_reduced", nat s.clauses),
    ("flips", nat s.counters.flips), ("noise_moves", nat s.counters.noise),
    ("greedy_moves", nat s.counters.greedy), ("zero_break_moves", nat s.counters.zeroBreak),
    ("min_unsat", nat s.minUnsat)]

namespace Record

/-- The fields of a record. -/
def fields (r : Record) (times : Json) : List (JsonString × Json) :=
  let always : List (JsonString × Json) :=
    [("name", r.name), ("n_v", r.varCount), ("n_c", .int r.clauses), ("seed", r.seed),
      ("solved", .bool r.solved), ("walksat_stats", r.stats.toJson), ("time_ms", times)]
  let verified : List (JsonString × Json) := match r.verified with
    | some b => [("verified", .bool b)]
    | none => []
  let flips : List (JsonString × Json) := match r.flips with
    | some l => [("flip_trace", .str (traceText l))]
    | none => []
  always ++ verified ++ flips

/-- A record as an object. -/
def toJson (r : Record) (times : Json) : Json := .obj (r.fields times)

/-- The record of a solver that has come to an outcome on a problem. -/
def ofRun {n : Nat} {γ : Type} (p : Problem) (seed : Json) (setup : Setup) (outcome : Status)
    (s : Solver n γ) : Record where
  name := p.name
  varCount := p.varCount
  clauses := p.clauseCount
  seed := seed
  solved := outcome = .satisfied
  stats := s.stats
  verified := if outcome = .satisfied then s.model.map s.confirms else none
  flips :=
    if setup.recordTrace.isTruthy then some (s.trace.toList.map Event.toFlip) else none

end Record

end LocalSat
