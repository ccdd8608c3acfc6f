/-
Solving.

* `solve`: simplification if there was none yet, then a fresh search within the flips
  that the options allow;
* `Stats`: the numbers that describe the last solve;
* `solveInstance`: a solver built from values, and the assignment that it finds.
-/
import LocalSat.Random.Pcg64
import LocalSat.Random.Seed
import LocalSat.Solver.Search
import LocalSat.Solver.Simplify

namespace LocalSat.Solver

variable {n : Nat} {γ : Type}

/-- The number of flips that a solve may make. -/
def maxFlips (s : Solver n γ) : Int := n * s.options.flipsFactor

/-- Whether an assignment satisfies the clauses as they were added, by the checker that
knows nothing of the search. -/
def confirms (s : Solver n γ) (a : Assignment n) : Bool :=
  a.toPartial.isSatisfied (s.added.toList.map Clause.toInts)

/-- The state without the flips of an earlier search. -/
def cleared (s : Solver n γ) : Solver n γ :=
  { s with counters := .zero, trace := #[] }

/-- Adds lines to the report of a solver that is to report on its search. -/
def announce (lines : List String) : Action n γ Unit := do
  let loud ← attempt ((← get).reports 1)
  if loud then
    modify fun s => { s with report := s.report ++ lines.toArray }

/-- Takes the current assignment as the model, after the final check. -/
def acceptModel : Action n γ Unit := do
  modify fun s => { s with model := s.values }
  let s ← get
  match s.model with
  | some a => if s.options.checkModel && !s.confirms a then throw .invalidModel
  | none => pure ()

/-- The search of a solve, on clauses that have not been refuted. -/
def solveSearch [RandomSource γ] : Action n γ Status := do
  modify cleared
  initSearch
  let s ← get
  announce (Report.headLines s s.maxFlips)
  let status ← search s.maxFlips
  modify fun s => { s with status }
  announce [Report.separator]
  if status = .satisfied then acceptModel
  pure status

/-- Solves: simplifies the clauses if that was never done, and searches unless they are
refuted. Every call is a new search, which goes on with the same source. -/
def solve [RandomSource γ] : Action n γ Status := do
  modify fun s => { s with model := none }
  if (← get).rounds = 0 then
    let _ ← simplify
  if (← get).ok then solveSearch
  else
    modify fun s => { s with status := .contradiction }
    pure .contradiction

/-! ### Statistics -/

/-- The numbers that describe the last solve. -/
structure Stats where
  /-- The outcome. -/
  status : Status
  /-- The number of passes of unit propagation. -/
  rounds : Nat
  /-- The number of values that unit propagation has forced. -/
  forcedCount : Nat
  /-- The number of clauses that are left. -/
  clauses : Nat
  /-- The flips. -/
  counters : Counters
  /-- The smallest number of clauses without a true literal. -/
  minUnsat : Nat
  deriving Repr, DecidableEq

/-- The numbers that describe the last solve. -/
def stats (s : Solver n γ) : Stats :=
  ⟨s.status, s.rounds, s.forcedCount, s.clauses.size, s.counters, s.minUnsat⟩

/-! ### Instances -/

/-- A solve from values: the seed is read first, then the number of variables, the
options in order and the clauses. Gives the assignment, if one is found, and the lines
of the report. -/
def solveInstance (varCount clauses seed verbosity : Json) (options : List (String × Json)) :
    Except Fault (Option (List Bool)) × List String :=
  match seedOfBytes seed with
  | .error e => (.error e, [])
  | .ok value =>
      match variableCount varCount with
      | .error e => (.error e, [])
      | .ok n =>
          let run : Action n Pcg64 Status := do
            options.forM fun (name, option) => setOption name option
            addClausesOf clauses
            solve
          match run { new n (Pcg64.ofSeed value) with verbosity := verbosity.numeral? } with
          | .error e s => (.error e, s.report.toList)
          | .ok status s =>
              let found := if status = .satisfied then s.model.map Vector.toList else none
              (.ok found, s.report.toList)

end LocalSat.Solver
