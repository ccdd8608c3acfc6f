/-
Operations of a solver on values.

* `variableOf`: a variable by its place, which may be counted from the end;
* `forceOf`, `flipOf`, `breakCountOf`, `pickOf`: the operations of the solver on what values
  stand for;
* `walkOf`, `searchOf`: many flips, as far as a value says; `Numeral.budget` is the number of
  flips that are fewer than a number.
-/
import LocalSat.Literal.Value
import LocalSat.Random.Valued
import LocalSat.Solver.Solve

namespace LocalSat

/-! ### Bounds -/

namespace Numeral

/-- The largest number of flips that a search is ever allowed. -/
def endless : Int := Number.twoPow 62

/-- The number of flips that are fewer than a number. What is no number is above none. -/
def budget (x : Numeral) : Int :=
  match x.ceil? with
  | some i => i
  | none => if x.le (.int 0) then 0 else endless

/-- The bound that counting stops at; none when it does not stop. -/
def countBound? (x : Numeral) : Option Int :=
  match x.floor? with
  | some i => some i
  | none => if x.le (.int 0) then some (-1) else none

end Numeral

namespace Solver

variable {n : Nat} {γ : Type}

/-! ### Variables -/

/-- The variable at a place that may be counted from the end. -/
def variableAt (n : Nat) (place : Int) : Except Fault (Fin n) :=
  match SignedIndex.ofInt? n place with
  | some s => .ok s.index
  | none => .error .badIndex

/-- The variable at the place that a value gives. -/
def variableOf (n : Nat) (place : Json) : Except Fault (Fin n) :=
  place.toIndex.bind (variableAt n)

/-- Makes a literal true, given by its number. -/
def forceOf (literal : Json) : Action n γ Bool := do
  let l ← attempt literal.toIndex
  let v ← attempt (variableAt n (placeOf l))
  force ⟨v, 0 < l⟩

/-- Flips the variable at a place. -/
def flipOf (place : Json) : Action n γ Unit := do
  let v ← attempt (variableOf n place)
  flipVariable v

/-- The break count of the variable at a place, exact up to a bound unless it is null. A
bound that is no number fails as soon as something is counted. -/
def breakCountOf (s : Solver n γ) (place bound : Json) : Except Fault Nat := do
  let v ← variableOf n place
  match bound.numeral? with
  | some x =>
      match x.countBound? with
      | some k => s.breakCountUpTo v k
      | none => s.breakCount v
  | none => do
      let k ← s.breakCount v
      if k = 0 || bound matches .null then pure k else throw .notNumeric

/-! ### Choices -/

/-- A literal in a clause that is given as a value. -/
structure Candidate where
  /-- The place of its variable, for counting. -/
  place : Except Fault Int
  /-- The answer when it is chosen without counting. -/
  answer : Except Fault Json

/-- The candidate that an item of a clause gives. -/
def Candidate.ofItem (item : Json) : Candidate :=
  ⟨item.toIndex.map placeOf, placeValue item⟩

/-- The candidates in a clause. An object has only names to count with, and none of its
fields is found by an index. -/
def candidates (clause : Json) : Except Fault (List Candidate) :=
  match clause with
  | .obj fields =>
      .ok ((List.range fields.length).map fun (i : Nat) =>
        ⟨.error .notNumeric, .error (.absentMember (.int i))⟩)
  | _ => clause.items.map fun items => items.map Candidate.ofItem

/-- Chooses a flip in a clause. The place of the variable is given. For a clause that is
none the coin is tossed all the same when it comes first. -/
def pickOf [RandomSource γ] (clause : Json) : Action n γ (Json × Move) := do
  let s ← get
  match candidates clause with
  | .error e =>
      if !s.options.zeroBreakFirst then
        let _ ← ask (RandomSource.coin s.options.noise)
      throw e
  | .ok cs =>
      let breaks (c : Candidate) (k : Nat) : Except Fault Nat := do
        let v ← c.place.bind (variableAt n)
        s.breakCountUpTo v k
      let (chosen, move) ← ask (chooseFlip s.policy breaks s.clauses.size cs)
      let answer ← attempt chosen.answer
      pure (answer, move)

/-! ### Many flips -/

/-- Makes flips until every clause has a true literal or there have been as many flips
as a value allows. The value matters only when there is a flip to make. -/
def searchOf [RandomSource γ] (maxFlips : Json) : Action n γ Status := do
  match maxFlips.numeral? with
  | some x => search x.budget
  | none =>
      match (← get).index with
      | none => throw .notInitialised
      | some ⟨_, x⟩ => if x.residual.isEmpty then pure .satisfied else throw .notNumeric

/-- Makes at most as many flips as a value says, without counting or recording them. -/
def walkOf [RandomSource γ] (count : Json) : Action n γ (List (Event n × List Int)) := do
  let k ← attempt count.toIndex
  walk k.toNat

end Solver

end LocalSat
