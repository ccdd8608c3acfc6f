/-
Scripted random answers.

* `Script`: a list of coins and a list of indices that are answered in order;
* `Logged`: a source together with the questions it was asked.
-/
import LocalSat.Random.Source

namespace LocalSat

/-! ### Scripts -/

/-- Random answers that are fixed beforehand. -/
structure Script where
  /-- The answers of the coins to come. -/
  coins : List Bool
  /-- The indices to come. -/
  indices : List Int
  deriving Repr, DecidableEq, Inhabited

namespace Script

/-- The next coin; its chance does not matter. -/
def coin (_chance : Float) : EStateM Fault Script Bool := fun g =>
  match g.coins with
  | [] => .error .scriptExhausted g
  | b :: coins => .ok b { g with coins }

/-- The next index. One that does not fit is used up all the same. -/
def index (length : Int) : EStateM Fault Script Nat := fun g =>
  match g.indices with
  | [] => .error .scriptExhausted g
  | i :: indices =>
      let g' := { g with indices }
      if 0 ≤ i ∧ i < length then .ok i.toNat g' else .error .scriptRange g'

end Script

/-- A script answers by its lists. -/
instance : RandomSource Script where
  coin := Script.coin
  index := Script.index

/-! ### Logs -/

/-- A question to a source. -/
inductive Call where
  /-- A coin with its chance of heads. -/
  | coin (chance : Json)
  /-- An index into a sequence of a length. -/
  | index (length : Json)
  deriving Repr, Inhabited

/-- A source with the questions it was asked, the last one last. -/
structure Logged (γ : Type) where
  /-- The source. -/
  source : γ
  /-- The questions so far. -/
  calls : Array Call

namespace Logged

variable {γ : Type}

/-- A source that was asked nothing. -/
def ofSource (source : γ) : Logged γ := ⟨source, #[]⟩

/-- Asks the source and notes the question, whether it is answered or not. -/
def ask {α : Type} (call : Call) (question : EStateM Fault γ α) :
    EStateM Fault (Logged γ) α := fun g =>
  match question g.source with
  | .ok a source => .ok a ⟨source, g.calls.push call⟩
  | .error e source => .error e ⟨source, g.calls.push call⟩

end Logged

/-- A logged source answers as the source does. -/
instance {γ : Type} [RandomSource γ] : RandomSource (Logged γ) where
  coin chance := Logged.ask (.coin (.float chance)) (RandomSource.coin chance)
  index length := Logged.ask (.index (.int length)) (RandomSource.index length)

end LocalSat
