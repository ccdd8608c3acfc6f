/-
The search.

* `initSearch`: a random completion of the forced values, and its index;
* `pickNext`, `flipVariable`: the choice of a flip and the flip itself;
* `step`: one flip with its record and its row of the report;
* `search`: flips until every clause has a true literal or the flips are used up.
-/
import LocalSat.Search.Choice
import LocalSat.Solver.Report

namespace LocalSat.Solver

variable {n : Nat} {γ : Type} [RandomSource γ]

/-! ### Setting up -/

/-- Sets variables, one after the other, to their forced value or else to the side that
a fair coin shows. -/
def complete (f : Forced n) : List (Fin n) → EStateM Fault (Assignment n × γ) Unit
  | [] => pure ()
  | v :: vs => do
      match f.get v with
      | some b => modify fun (a, g) => (a.write v b, g)
      | none =>
          fun (a, g) =>
            match RandomSource.coin (0.5 : Float) g with
            | .ok b g' => .ok () (a.write v b, g')
            | .error e g' => .error e (a, g')
      complete f vs

/-- The state in which a search starts from an assignment. -/
def started (s : Solver n γ) (a : Assignment n) (source : γ) : Solver n γ :=
  let x := Index.build s.clauses.toVector a
  { s with
    values := some a
    initial := if s.options.recordTrace then some a else s.initial
    index := some ⟨s.clauses.size, x⟩
    minUnsat := x.residual.size
    source }

/-- Sets up a search. When a coin fails, the values that were set so far stay, and so
does the index of the search before. -/
def initSearch : Action n γ Unit := fun s =>
  match complete s.forced (List.finRange n) (Vector.replicate n false, s.source) with
  | .ok () (a, source) => .ok () (s.started a source)
  | .error e (a, source) => .error e { s with values := some a, source }

/-! ### One flip -/

/-- How flips are chosen. -/
def policy (s : Solver n γ) : Policy := ⟨s.options.noise, s.options.zeroBreakFirst⟩

/-- The current assignment and its index, which there are once a search is set up. -/
def current (s : Solver n γ) : Option (Assignment n × Sigma (Index n)) := do
  let a ← s.values
  let x ← s.index
  pure (a, x)

/-- The break count of a variable, counted no further than one above a bound. -/
def breakCountUpTo (s : Solver n γ) (v : Fin n) (bound : Int) : Except Fault Nat :=
  match s.current with
  | some (a, ⟨_, x⟩) => .ok (x.breakCountUpTo a v bound)
  | none => .error .badIndex

/-- The break count of a variable. -/
def breakCount (s : Solver n γ) (v : Fin n) : Except Fault Nat :=
  match s.current with
  | some (a, ⟨_, x⟩) => .ok (x.breakCount a v)
  | none => .error .badIndex

/-- Chooses a flip in a clause. -/
def pick (c : Clause n) : Action n γ (Fin n × Move) := fun s =>
  ask (chooseFlip s.policy (fun v k => s.breakCountUpTo v k) s.clauses.size
    (c.map Literal.var)) s

/-- The clause in the first slot of the residual set. -/
def firstResidual (s : Solver n γ) : Except Fault (Clause n) :=
  match s.index with
  | none => .error .notInitialised
  | some ⟨_, x⟩ =>
      match x.residual.first? with
      | none => .error .badIndex
      | some i =>
          match s.clauses[i.index.val]? with
          | none => .error .badIndex
          | some c => .ok c

/-- Chooses a flip in the clause in the first slot of the residual set. -/
def pickNext : Action n γ (Fin n × Move) := do
  let c ← attempt (← get).firstResidual
  pick c

/-- Flips a variable. -/
def flipVariable (v : Fin n) : Action n γ Unit := do
  let s ← get
  match s.current with
  | none => throw .badIndex
  | some (a, ⟨m, x⟩) =>
      let y ← attempt (x.flip a v)
      set { s with values := some (a.flip v), index := some ⟨m, y⟩ }

/-- The number of clauses without a true literal. -/
def unsat (s : Solver n γ) : Nat :=
  match s.index with
  | some ⟨_, x⟩ => x.residual.size
  | none => 0

/-- The literal of a variable that is true now. -/
def literalOf (s : Solver n γ) (v : Fin n) : Option (Literal n) := s.values.map (·.literal v)

/-- The state after a flip has been counted and recorded. -/
def recorded (s : Solver n γ) (v : Fin n) (move : Move) : Solver n γ :=
  { s with
    counters := s.counters.add move
    trace :=
      if s.options.recordTrace then
        match s.literalOf v with
        | some literal => s.trace.push ⟨move, literal⟩
        | none => s.trace
      else s.trace
    minUnsat := min s.minUnsat s.unsat }

/-- A row of the report, when it is due. -/
def progress : Action n γ Unit := do
  let s ← get
  let loud ← attempt (s.reports 1)
  if loud then
    let due ← attempt s.isRowDue
    if due then say (Report.progressLine s.counters s.unsat s.minUnsat)

/-- One flip with its record and its row of the report. -/
def step : Action n γ Unit := do
  let (v, move) ← pickNext
  flipVariable v
  modify fun s => s.recorded v move
  progress

/-! ### Many flips -/

/-- Makes flips until every clause has a true literal, at most as many as are left. -/
def searchFor : (left : Nat) → Action n γ Status
  | 0 => do
      match (← get).index with
      | none => throw .notInitialised
      | some ⟨_, x⟩ => pure (if x.residual.isEmpty then .satisfied else .exhausted)
  | left + 1 => do
      match (← get).index with
      | none => throw .notInitialised
      | some ⟨_, x⟩ =>
          if x.residual.isEmpty then pure .satisfied
          else
            step
            searchFor left

/-- Makes flips until every clause has a true literal or there have been as many flips
as are allowed. -/
def search (maxFlips : Int) : Action n γ Status := do
  searchFor (maxFlips - (← get).counters.flips).toNat

/-- Makes at most `k` flips without counting or recording them. For each flip its kind,
the literal that it made true and the residual clauses after it are given. -/
def walk : (k : Nat) → Action n γ (List (Event n × List Int))
  | 0 => pure []
  | k + 1 => do
      match (← get).index with
      | none => throw .notInitialised
      | some ⟨_, x⟩ =>
          if x.residual.isEmpty then pure []
          else
            let (v, move) ← pickNext
            flipVariable v
            let s ← get
            let slots := match s.index with
              | some ⟨_, y⟩ => y.residual.slots.toList.map SignedIndex.toInt
              | none => []
            let rest ← walk k
            match s.literalOf v with
            | some literal => pure ((⟨move, literal⟩, slots) :: rest)
            | none => pure rest

end LocalSat.Solver
