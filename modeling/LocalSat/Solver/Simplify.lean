/-
Simplification of the clauses of a solver.

* `force`: a literal made true by hand;
* `simplify`: unit propagation on the clauses that are left; `simplified` is the state after
  it, and `passed` the state after a pass that cannot be reported.
-/
import LocalSat.Solver.Report

namespace LocalSat.Solver

variable {n : Nat} {γ : Type}

/-- Makes a literal true, unless its negation is forced. Tells whether it is true now. -/
def force (l : Literal n) : Action n γ Bool := do
  let s ← get
  match s.forced.force? l with
  | some forced =>
      set { s with forced }
      pure true
  | none => pure false

/-- The lines on passes, of which the first has the number `first`. -/
def roundLines (first : Nat) : List Round → List String
  | [] => []
  | r :: rounds => Report.roundLine first r :: roundLines (first + 1) rounds

/-- The state after unit propagation, which is reported when the report is to be `loud`. -/
def simplified (s : Solver n γ) (loud : Bool) : Solver n γ :=
  let p := propagate s.forced s.forcedCount s.clauses.toList
  { s with
    ok := p.ok
    clauses := p.clauses.toArray
    forced := p.forced
    forcedCount := p.forcedCount
    rounds := s.rounds + p.rounds.length
    report :=
      if loud then s.report ++ (roundLines (s.rounds + 1) p.rounds).toArray
      else s.report }

/-- The state after the first pass of unit propagation, when it is not known whether to
report on it. What a pass leaves of the clauses counts only after its report. -/
def passed (s : Solver n γ) : Solver n γ :=
  match pass s.forced s.clauses.toList with
  | .refuted forced found =>
      { s with
        ok := false
        clauses := #[]
        forced
        forcedCount := s.forcedCount + found
        rounds := s.rounds + 1 }
  | .reduced _ forced found _ =>
      { s with forced, forcedCount := s.forcedCount + found, rounds := s.rounds + 1 }

/-- Unit propagation on the clauses that are left. Clauses that have been refuted stay
so. Tells whether they are not refuted. -/
def simplify : Action n γ Bool := do
  let s ← get
  if s.ok then
    match s.reports 2 with
    | .ok loud =>
        set (s.simplified loud)
        pure (← get).ok
    | .error e =>
        set s.passed
        throw e
  else pure false

end LocalSat.Solver
