/-
Clauses around a hidden assignment.

* `randomAssignment`: a value for each variable, by a draw out of two numbers;
  `assignmentWithin` is the same within the limits of a machine;
* `signed`: literals for given variables, each of which is true under the hidden
  assignment by the toss of a coin; the last one is true if no other is;
* `plantedClause`: a clause of a given size over different variables.
-/
import LocalSat.Capacity
import LocalSat.Literal
import LocalSat.Random.Sample

namespace LocalSat

variable {γ : Type} [Sampler γ]

/-! ### The hidden assignment -/

/-- Values for `count` variables. -/
def randomValues : (count : Nat) → EStateM Fault γ (List Bool)
  | 0 => pure []
  | count + 1 => do
      let i ← RandomSource.index 2
      let values ← randomValues count
      pure ((i == 1) :: values)

/-- A random assignment of a number of variables. -/
def randomAssignment (varCount : Int) : EStateM Fault γ (List Bool) :=
  if varCount < 0 then throw .negativeSize else randomValues varCount.toNat

/-- A random assignment of a number of variables for which there is room. -/
def assignmentWithin (varCount : Int) : EStateM Fault γ (List Bool) :=
  match checkWords varCount with
  | .error e => throw e
  | .ok _ => randomAssignment varCount

/-! ### Clauses -/

/-- Literals for the variables at given places, where `held` tells whether a literal
before them is true. -/
def signed (hidden : Array Bool) (held : Bool) : List Nat → EStateM Fault γ (List Int)
  | [] => pure []
  | v :: vs => do
      let heads ← RandomSource.coin (0.5 : Float)
      match hidden[v]? with
      | none => throw .badIndex
      | some value =>
          let holds := heads || (vs.isEmpty && !held)
          let literals ← signed hidden (held || holds) vs
          pure (numberAt v (value == holds) :: literals)

/-- A clause of a given size over different variables with a literal that is true under
the hidden assignment. -/
def plantedClause (hidden : Array Bool) (size : Int) : EStateM Fault γ (List Int) := do
  let places ← Sampler.sample hidden.size size
  signed hidden false places

/-- A number of clauses of a given size. -/
def plantedClauses (hidden : Array Bool) (size : Int) :
    (count : Nat) → EStateM Fault γ (List (List Int))
  | 0 => pure []
  | count + 1 => do
      let c ← plantedClause hidden size
      let cs ← plantedClauses hidden size count
      pure (c :: cs)

end LocalSat
