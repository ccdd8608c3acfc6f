/-
Indices that may be counted from the end of a sequence.

* `SignedIndex.ofInt?`: an integer from `0` to `n - 1` counts from the front, and one
  from `-n` to `-1` from the end; `ofInt?_toInt` and `toInt_of_ofInt?` make the two
  forms one;
* `SignedIndex.ofValue`: the same for values, among which a truth value names one of the
  first two places; `SignedIndex.toJson` gives the value back.
-/
import LocalSat.Json.Convert

namespace LocalSat

/-- A place in a sequence of length `n`, with the form in which it is named. -/
structure SignedIndex (n : Nat) where
  /-- The place. -/
  index : Fin n
  /-- Whether it is counted from the end. -/
  fromEnd : Bool
  /-- Whether it is named by a truth value. -/
  isTruth : Bool := false
  deriving Repr, DecidableEq

namespace SignedIndex

variable {n : Nat}

/-- The place counted from the front. -/
def ofFin (i : Fin n) : SignedIndex n := ⟨i, false, false⟩

/-- The integer that names the place. -/
def toInt (s : SignedIndex n) : Int := if s.fromEnd then (s.index : Int) - n else s.index

/-- The place that an integer names. -/
def ofInt? (n : Nat) (i : Int) : Option (SignedIndex n) :=
  if h : 0 ≤ i ∧ i < n then some ⟨⟨i.toNat, by omega⟩, false, false⟩
  else if h : -(n : Int) ≤ i ∧ i < 0 then some ⟨⟨(i + n).toNat, by omega⟩, true, false⟩
  else none

/-- A place is what its integer names, up to its being named by a truth value. -/
@[simp] theorem ofInt?_toInt (s : SignedIndex n) :
    ofInt? n s.toInt = some { s with isTruth := false } := by
  obtain ⟨⟨i, hi⟩, fromEnd, isTruth⟩ := s
  cases fromEnd
  · have h : 0 ≤ (i : Int) ∧ (i : Int) < n := by omega
    simp [toInt, ofInt?, h]
  · simp only [toInt, ofInt?, if_true]
    rw [dif_neg (by omega), dif_pos (by omega)]
    simp

/-- An integer that names a place is the integer of that place. -/
theorem toInt_of_ofInt? {i : Int} {s : SignedIndex n} (h : ofInt? n i = some s) :
    s.toInt = i := by
  unfold ofInt? at h
  split at h
  · cases h
    simp [toInt]
    omega
  · split at h
    · cases h
      simp [toInt]
      omega
    · cases h

/-! ### Values -/

/-- The place that a value names. -/
def ofValue (n : Nat) (v : Json) : Except Fault (SignedIndex n) := do
  let i ← v.toIndex
  match ofInt? n i, v with
  | some s, .bool _ => pure { s with isTruth := true }
  | some s, _ => pure s
  | none, _ => throw .badIndex

/-- The value that names the place. -/
def toJson (s : SignedIndex n) : Json :=
  if s.isTruth then .bool (s.toInt != 0) else .int s.toInt

end SignedIndex

end LocalSat
