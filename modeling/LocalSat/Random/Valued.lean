/-
Questions to random sources that are put with values.

* `ValuedSource`: a source that is also asked for a coin whose chance is any value, and for
  an index into a sequence whose length is any value;
* `Pcg64.coinOf`, `Pcg64.indexOf`: a chance that is no number fails after the draw, and a
  length that is no number before it; a list of lengths asks for one index each, of which
  there may be only one;
* `Script.indexOf`: a scripted index is compared with the length as it is.
-/
import LocalSat.Json.Convert
import LocalSat.Random.Pcg64
import LocalSat.Random.Script

namespace LocalSat

/-- A source of random answers to questions that are put with values. -/
class ValuedSource (γ : Type) extends RandomSource γ where
  /-- A coin that shows heads with the chance that a value gives. -/
  coinOf : Json → EStateM Fault γ Bool
  /-- An index into a sequence of the length that a value gives. -/
  indexOf : Json → EStateM Fault γ Nat

/-! ### A generator -/

namespace Pcg64

/-- Whether a float in `[0, 1)` is below a chance. -/
def isBelow (x : Float) : Numeral → Bool
  | .int i => 1 ≤ i
  | .float chance => x < chance

/-- A coin with the chance that a value gives. -/
def coinOf (chance : Json) : EStateM Fault Pcg64 Bool := fun g =>
  let (x, g') := g.unit
  match chance.numeral? with
  | some p => .ok (isBelow x p) g'
  | none => .error .notNumeric g'

/-- The lengths in a list, all of which must be such that there is an index. -/
def readLengths (items : List Json) : Except Fault (List Int) := do
  let lengths ← items.mapM Json.toIndex
  if lengths.any fun n => Number.twoPow 63 < n then throw .wideChoice
  else if lengths.any fun n => n ≤ 0 then throw .emptyChoice
  else pure lengths

/-- An index into a sequence of the length that a value gives. -/
def indexOf (length : Json) : EStateM Fault Pcg64 Nat := do
  match length with
  | .arr items =>
      match readLengths items with
      | .error e => throw e
      | .ok lengths =>
          match ← lengths.mapM index with
          | [i] => pure i
          | _ => throw .notNumeric
  | _ =>
      match length.toInt with
      | .error e => throw e
      | .ok n => index n

end Pcg64

/-- A generator is asked with values. -/
instance : ValuedSource Pcg64 where
  coinOf := Pcg64.coinOf
  indexOf := Pcg64.indexOf

/-! ### A script -/

namespace Script

/-- Whether an index is below a length. -/
def fits (i : Int) : Numeral → Bool
  | .int length => i < length
  | .float length => Number.intLeFloat i length && !Number.floatLeInt length i

/-- The next index. The length matters only to an index that is not negative. -/
def indexOf (length : Json) : EStateM Fault Script Nat := fun g =>
  match g.indices with
  | [] => .error .scriptExhausted g
  | i :: indices =>
      let g' := { g with indices }
      if i < 0 then .error .scriptRange g'
      else
        match length.numeral? with
        | none => .error .notNumeric g'
        | some n => if fits i n then .ok i.toNat g' else .error .scriptRange g'

end Script

/-- A script is asked with values; what the chance of a coin is does not matter. -/
instance : ValuedSource Script where
  coinOf _ := Script.coin 0
  indexOf := Script.indexOf

/-! ### Sums and logs -/

/-- A source of either kind is asked with values if both kinds are. -/
instance {α β : Type} [ValuedSource α] [ValuedSource β] : ValuedSource (α ⊕ β) where
  coinOf chance
    | .inl g => mapState .inl (ValuedSource.coinOf chance g)
    | .inr g => mapState .inr (ValuedSource.coinOf chance g)
  indexOf length
    | .inl g => mapState .inl (ValuedSource.indexOf length g)
    | .inr g => mapState .inr (ValuedSource.indexOf length g)

/-- A logged source notes the values that it is asked with. -/
instance {γ : Type} [ValuedSource γ] : ValuedSource (Logged γ) where
  coinOf chance := Logged.ask (.coin chance) (ValuedSource.coinOf chance)
  indexOf length := Logged.ask (.index length) (ValuedSource.indexOf length)

end LocalSat
