/-
The choice of a flip inside of a clause.

* `leastBreaking`: the candidates with the smallest break count, in order, each count
  cut off above the smallest one so far;
* `chooseFlip`: one of two policies, the coin first or a flip that breaks nothing
  first.
-/
import LocalSat.Random.Source
import LocalSat.Trace.Event

namespace LocalSat

/-- How a flip is chosen. -/
structure Policy where
  /-- The chance of a random candidate. -/
  noise : Float
  /-- Whether a candidate that breaks nothing is taken without a coin. -/
  zeroBreakFirst : Bool

/-- The candidates with the smallest break count, after those in `ties`, which have the
count `least`. The break count of a candidate is asked for with the bound to which it
has to be exact. -/
def leastBreaking {α : Type} (breaks : α → Nat → Except Fault Nat) :
    (least : Nat) → (ties : List α) → List α → Except Fault (Nat × List α)
  | least, ties, [] => .ok (least, ties)
  | least, ties, v :: vs => do
      let k ← breaks v least
      if k < least then leastBreaking breaks k [v] vs
      else if k = least then leastBreaking breaks least (ties ++ [v]) vs
      else leastBreaking breaks least ties vs

variable {γ : Type} [RandomSource γ]

/-- A random candidate. -/
def noiseMove {α : Type} (candidates : List α) : EStateM Fault γ (α × Move) := do
  let v ← RandomSource.pickMember candidates
  pure (v, .noise)

/-- A random one of the candidates with the smallest break count. -/
def greedyMove {α : Type} (ties : List α) : EStateM Fault γ (α × Move) := do
  let v ← RandomSource.pickMember ties
  pure (v, .greedy)

/-- A random one of the candidates that break nothing, without a question when there is
just one. -/
def zeroBreakMove {α : Type} : (ties : List α) → EStateM Fault γ (α × Move)
  | [v] => pure (v, .zeroBreak)
  | ties => do
      let v ← RandomSource.pickMember ties
      pure (v, .zeroBreak)

/-- The smallest break count and its candidates, or the failure of a count. -/
def tiesOf {α : Type} (breaks : α → Nat → Except Fault Nat) (start : Nat)
    (candidates : List α) : EStateM Fault γ (Nat × List α) :=
  match leastBreaking breaks start [] candidates with
  | .ok found => pure found
  | .error e => throw e

/-- Chooses the flip among the candidates of a clause. Break counts are compared from
`start` on, which is to be the number of clauses. -/
def chooseFlip {α : Type} (policy : Policy) (breaks : α → Nat → Except Fault Nat)
    (start : Nat) (candidates : List α) : EStateM Fault γ (α × Move) := do
  if policy.zeroBreakFirst then
    let (least, ties) ← tiesOf breaks start candidates
    if least = 0 then zeroBreakMove ties
    else
      let heads ← RandomSource.coin policy.noise
      if heads then noiseMove candidates else greedyMove ties
  else
    let heads ← RandomSource.coin policy.noise
    if heads then noiseMove candidates
    else
      let (_, ties) ← tiesOf breaks start candidates
      greedyMove ties

end LocalSat
