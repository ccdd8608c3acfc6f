/-
The state of a solver.

* `Solver n γ`: the clauses, what is forced, the current search and its record, and the
  source of randomness;
* `Solver.Action`: an operation, which leaves the state it has reached also when it
  fails;
* `variableCount`, `readClause`: the checks of a number of variables and of a clause;
* `Solver.new`, `setOption`, `addClause`, `addClauses`: building a solver.
-/
import LocalSat.Capacity
import LocalSat.Checker
import LocalSat.Options
import LocalSat.Propagation.Propagate
import LocalSat.Random.Source
import LocalSat.Search.Index
import LocalSat.Trace.Event

namespace LocalSat

/-! ### The state -/

/-- The outcome of the last solve. -/
inductive Status where
  /-- An assignment was found. -/
  | satisfied
  /-- Unit propagation refuted the clauses. -/
  | contradiction
  /-- The flips were used up. -/
  | exhausted
  /-- There was no solve yet. -/
  | undefined
  deriving Repr, DecidableEq, Inhabited

/-- The word for an outcome. -/
def Status.text : Status → String
  | .satisfied => "SAT"
  | .contradiction => "CONTRADICTION"
  | .exhausted => "EXHAUSTED"
  | .undefined => "UNDEF"

/-- The numbers of flips. -/
structure Counters where
  /-- All flips. -/
  flips : Nat
  /-- The random ones. -/
  noise : Nat
  /-- Those that broke least. -/
  greedy : Nat
  /-- Those that broke nothing and were made first. -/
  zeroBreak : Nat
  deriving Repr, DecidableEq, Inhabited

namespace Counters

/-- No flips. -/
def zero : Counters := ⟨0, 0, 0, 0⟩

/-- One more flip of a kind. -/
def add (c : Counters) : Move → Counters
  | .noise => { c with flips := c.flips + 1, noise := c.noise + 1 }
  | .greedy => { c with flips := c.flips + 1, greedy := c.greedy + 1 }
  | .zeroBreak => { c with flips := c.flips + 1, zeroBreak := c.zeroBreak + 1 }

end Counters

/-- A solver for `n` variables with a source of randomness. -/
structure Solver (n : Nat) (γ : Type) where
  /-- The options of the search. -/
  options : Options
  /-- How much is reported: nothing below one, the search from one on, the passes of
  unit propagation from two on. There is none when something else than a number was
  set. -/
  verbosity : Option Numeral
  /-- The number of flips between two rows of the report. There is none when something
  else than a number was set. -/
  progressInterval : Option Numeral
  /-- Whether the clauses have not been refuted. -/
  ok : Bool
  /-- The clauses as they were added. -/
  added : Array (Clause n)
  /-- The clauses that are left of them. -/
  clauses : Array (Clause n)
  /-- The values forced on variables. -/
  forced : Forced n
  /-- The number of passes of unit propagation. -/
  rounds : Nat
  /-- The number of values that unit propagation has forced. -/
  forcedCount : Nat
  /-- The current assignment, once a search has been set up. -/
  values : Option (Assignment n)
  /-- The index of the current search, over the clauses that there were when it was set
  up. -/
  index : Option (Sigma (Index n))
  /-- The assignment at the start of the last recorded search. -/
  initial : Option (Assignment n)
  /-- The assignment that the last solve has found. -/
  model : Option (Assignment n)
  /-- The outcome of the last solve. -/
  status : Status
  /-- The flips of the current search. -/
  counters : Counters
  /-- The smallest number of clauses without a true literal in the current search. -/
  minUnsat : Nat
  /-- The recorded flips. -/
  trace : Array (Event n)
  /-- The lines of the report. -/
  report : Array String
  /-- The source of randomness. -/
  source : γ

namespace Solver

variable {n : Nat} {γ : Type}

/-- An operation of a solver. When it fails, the state that it has reached stays. -/
abbrev Action (n : Nat) (γ : Type) (α : Type) := EStateM Fault (Solver n γ) α

/-- A solver without clauses. -/
def new (n : Nat) (source : γ) : Solver n γ where
  options := {}
  verbosity := some (.int 1)
  progressInterval := some (.int 1000)
  ok := true
  added := #[]
  clauses := #[]
  forced := Forced.none n
  rounds := 0
  forcedCount := 0
  values := none
  index := none
  initial := none
  model := none
  status := .undefined
  counters := .zero
  minUnsat := 0
  trace := #[]
  report := #[]
  source := source

/-- Puts a question to the source of randomness. -/
def ask {α : Type} (question : EStateM Fault γ α) : Action n γ α := fun s =>
  match question s.source with
  | .ok a source => .ok a { s with source }
  | .error e source => .error e { s with source }

/-- Adds a line to the report. -/
def say (line : String) : Action n γ Unit :=
  modify fun s => { s with report := s.report.push line }

/-- Fails for a cause, or goes on with a value. -/
def attempt {α : Type} : Except Fault α → Action n γ α
  | .ok a => pure a
  | .error e => throw e

/-- Whether the report goes as far as a level. -/
def reports (s : Solver n γ) (level : Int) : Except Fault Bool :=
  match s.verbosity with
  | some x => .ok ((Numeral.int level).le x)
  | none => .error .notNumeric

/-- Whether a row of the report is due after the flips so far. -/
def isRowDue (s : Solver n γ) : Except Fault Bool :=
  match s.progressInterval with
  | some k => if k.isZero then .error .zeroInterval else .ok (k.divides s.counters.flips)
  | none => .error .notNumeric

/-! ### Input -/

/-- The number of variables that a value gives: a number without a fraction, from one
on. -/
def variableCount (value : Json) : Except Fault Nat :=
  match value with
  | .bool _ => .error (.variableCount value)
  | _ => do
      let i ← value.toInt
      if !value.equalsInt i || i < 1 then throw (.variableCount value) else checkSize i

/-- The literal that a value gives. -/
def readLiteral (n : Nat) : Json → Except Fault (Literal n)
  | .int i =>
      match Literal.ofInt? n i with
      | some l => .ok l
      | none => .error (.literalRange i n)
  | value => .error (.literalType value)

/-- The clause that a value gives. -/
def readClause (n : Nat) (value : Json) : Except Fault (Clause n) :=
  match value.items? with
  | some items => items.mapM (readLiteral n)
  | none => .error .notIterable

/-- Sets an option. -/
def setOption (name : String) (value : Json) : Action n γ Unit := do
  let s ← get
  let options ← attempt (s.options.set name value)
  set { s with options }

/-- Adds a clause. -/
def pushClause (s : Solver n γ) (c : Clause n) : Solver n γ :=
  { s with added := s.added.push c, clauses := s.clauses.push c }

/-- Adds the clause that a value gives, after checking it. -/
def addClause (value : Json) : Action n γ Unit := do
  let c ← attempt (readClause n value)
  modify fun s => s.pushClause c

/-- Adds clauses up to the first one that is none. -/
def addClauses : List Json → Action n γ Unit
  | [] => pure ()
  | value :: values => do
      addClause value
      addClauses values

/-- Adds the clauses that a value gives, up to the first one that is none. -/
def addClausesOf (values : Json) : Action n γ Unit := do
  let clauses ← attempt values.items
  addClauses clauses

end Solver

end LocalSat
