/-
Batches of runs.

* `Job`: a problem with a seed; `jobs` pairs every problem with every seed;
* `Job.run`: simplification, then a solve, on a solver of its own;
* `runBatch`: the records of all jobs, ordered by problem and then by seed.
-/
import LocalSat.Batch.Record

namespace LocalSat

/-- A problem with a seed. -/
structure Job where
  /-- The problem. -/
  problem : Problem
  /-- The seed. -/
  seed : Json

/-- Every problem with every seed, ordered by problem and then by seed. -/
def jobs (problems : List Problem) (seeds : List Json) : List Job :=
  problems.flatMap fun p => seeds.map fun seed => ⟨p, seed⟩

namespace Job

/-- A silent solver for a job. -/
def build (j : Job) (setup : Setup) : Except Fault (Sigma fun n => Solver n Pcg64) :=
  (setup.build j.problem.varCount j.problem.clauses j.seed).map fun ⟨n, s⟩ =>
    ⟨n, { s with verbosity := some (.int 0) }⟩

/-- Simplification, then a solve. -/
def work {n : Nat} {γ : Type} [RandomSource γ] : Solver.Action n γ Status := do
  let _ ← Solver.simplify
  Solver.solve

/-- The record of a job. -/
def run (j : Job) (setup : Setup) : Except Fault Record := do
  let ⟨_, s⟩ ← j.build setup
  match work s with
  | .ok outcome t => pure (.ofRun j.problem j.seed setup outcome t)
  | .error e _ => throw e

end Job

/-- Checks a number of workers. It must be a number, and a whole one if it is above one.
The records do not depend on it. -/
def checkWorkers (workers : Json) : Except Fault Unit :=
  match workers.numeral? with
  | none => .error .notNumeric
  | some (.int _) => .ok ()
  | some (.float x) => if Number.floatLeInt x 1 then .ok () else .error .notNumeric

/-- The jobs on problems with the seeds that a value gives. Without problems the seeds do
not matter. -/
def jobsOf (problems : List Problem) (seeds : Json) : Except Fault (List Job) :=
  if problems.isEmpty then .ok [] else seeds.items.map (jobs problems)

/-- The records of the runs of every problem with every seed. Unknown settings are
noticed by the first run. -/
def runBatch (problems : List Problem) (seeds settings workers : Json) :
    Except Fault (List Record) := do
  let js ← jobsOf problems seeds
  checkWorkers workers
  if js.isEmpty then pure []
  else
    let setup ← Setup.ofJson settings
    js.mapM fun j => j.run setup

end LocalSat
