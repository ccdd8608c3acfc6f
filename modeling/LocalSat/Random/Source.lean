/-
Sources of random answers.

* `RandomSource`: a source answers two kinds of questions, a coin with a given chance
  of heads and an index into a sequence of a given length;
* `LawfulSource`: coins never fail, and an index into a sequence that is not empty
  never fails and lies inside of it;
* `pickMember`: a member of a list, chosen by one index;
* of two kinds of sources, one of either kind is a source.
-/
import LocalSat.Fault

namespace LocalSat

/-- A source of random answers, which is its own state. -/
class RandomSource (γ : Type) where
  /-- A coin that shows heads with the given chance. -/
  coin : Float → EStateM Fault γ Bool
  /-- An index into a sequence of the given length. -/
  index : Int → EStateM Fault γ Nat

/-- A source that answers every sensible question and stays inside of the sequences it
is asked about. -/
class LawfulSource (γ : Type) [RandomSource γ] : Prop where
  /-- Coins never fail. -/
  coin_ok : ∀ (chance : Float) (g : γ),
    ∃ heads g', RandomSource.coin chance g = .ok heads g'
  /-- An index into a sequence with at least one member is the index of a member. -/
  index_ok : ∀ (length : Int) (g : γ), 1 ≤ length →
    ∃ i g', RandomSource.index length g = .ok i g' ∧ (i : Int) < length

namespace RandomSource

variable {γ : Type} [RandomSource γ]

/-- A member of a list, chosen by one index. -/
def pickMember {α : Type} (members : List α) : EStateM Fault γ α := do
  let i ← index members.length
  match members[i]? with
  | some x => pure x
  | none => throw .badIndex

end RandomSource

/-- The answer of a source inside of a larger state. -/
def mapState {ε σ τ α : Type} (f : σ → τ) :
    EStateM.Result ε σ α → EStateM.Result ε τ α
  | .ok a s => .ok a (f s)
  | .error e s => .error e (f s)

/-- A source of either kind answers by its kind. -/
instance {α β : Type} [RandomSource α] [RandomSource β] : RandomSource (α ⊕ β) where
  coin chance
    | .inl g => mapState .inl (RandomSource.coin chance g)
    | .inr g => mapState .inr (RandomSource.coin chance g)
  index length
    | .inl g => mapState .inl (RandomSource.index length g)
    | .inr g => mapState .inr (RandomSource.index length g)

end LocalSat
