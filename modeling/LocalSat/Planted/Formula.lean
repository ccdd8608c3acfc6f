/-
Satisfiable formulas around a hidden assignment.

* `Planted`: an assignment with clauses that it satisfies;
* `plant`: a formula of a requested size in which every variable occurs;
* `plantWithin`: the same within the limits of a machine.
-/
import LocalSat.Planted.Clause
import LocalSat.Planted.Patch

namespace LocalSat

/-- Clauses with the assignment around which they were made. -/
structure Planted where
  /-- The assignment. -/
  hidden : List Bool
  /-- The clauses. -/
  clauses : List (List Int)
  deriving Repr, DecidableEq

/-- The places of the variables that do not occur in some clauses. -/
def unusedPlaces (varCount : Nat) (clauses : List (List Int)) : List Int :=
  let table := OccurrenceTable.ofClauses clauses
  ((List.range varCount).map fun (v : Nat) => (v : Int)).filter fun v =>
    !table.contains (v + 1)

variable {γ : Type}

/-- Clauses with the variables at given places put into them. -/
def cover [RandomSource γ] (hidden : Array Bool) (clauses : List (List Int))
    (places : List Int) : EStateM Fault γ (List (List Int)) := fun g =>
  match Patching.patchAll hidden places (Patching.start clauses g) with
  | .ok () s => .ok s.clauses s.source
  | .error e s => .error e s.source

/-- A formula with a number of variables, a number of clauses and a size of its
clauses. -/
def plant [Sampler γ] (varCount clauses size : Int) : EStateM Fault γ Planted := do
  if varCount < size then throw (.fewVariables size varCount)
  else
    let hidden ← randomAssignment varCount
    let drawn ← plantedClauses hidden.toArray size clauses.toNat
    let covering ← cover hidden.toArray drawn (unusedPlaces hidden.length drawn)
    pure ⟨hidden, covering⟩

/-- Whether there are as many variables as a clause needs, and room for them. -/
def checkPlan (varCount size : Int) : Except Fault Unit :=
  if varCount < size then .error (.fewVariables size varCount)
  else (checkWords varCount).map fun _ => ()

/-- A formula of a requested size for which there is room. -/
def plantWithin [Sampler γ] (varCount clauses size : Int) : EStateM Fault γ Planted :=
  match checkPlan varCount size with
  | .error e => throw e
  | .ok () => plant varCount clauses size

end LocalSat
