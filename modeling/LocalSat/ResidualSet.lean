/-
Sets of indices with constant-time insertion, removal and choice.

* `ResidualSet`: the members in slots, and for every index the slot it is in;
* `ResidualSet.sizeOf`: a value as the number of indices;
* `insert`, `remove?`, `contains`, `first?`: removal moves the last member into the
  slot that becomes free;
* `WellFormed`: slots and positions are inverse to each other.
-/
import LocalSat.Capacity
import LocalSat.SignedIndex
import LocalSat.Table

namespace LocalSat

/-- A set of indices below `n`. -/
structure ResidualSet (n : Nat) where
  /-- The members, each in the form in which it was inserted. -/
  slots : Array (SignedIndex n)
  /-- For every index the slot that holds it. -/
  position : Table n (Option Nat)

namespace ResidualSet

variable {n : Nat}

/-- The number of indices that a value gives. -/
def sizeOf (v : Json) : Except Fault Nat := v.toIndex.bind checkSize

/-- The set without members. -/
def empty (n : Nat) : ResidualSet n := ⟨#[], Vector.replicate n none⟩

/-- The number of members. -/
def size (r : ResidualSet n) : Nat := r.slots.size

/-- Whether there is no member. -/
def isEmpty (r : ResidualSet n) : Bool := r.slots.isEmpty

/-- Whether an index is a member. -/
def contains (r : ResidualSet n) (i : SignedIndex n) : Bool := (r.position.get i.index).isSome

/-- The member in the first slot. -/
def first? (r : ResidualSet n) : Option (SignedIndex n) := r.slots[0]?

/-- The set with an index; a member stays where it is. -/
def insert (r : ResidualSet n) (i : SignedIndex n) : ResidualSet n :=
  if r.contains i then r
  else
    { slots := r.slots.push i
      position := r.position.write i.index (some r.slots.size) }

/-- The set without a member; none when the index is no member. -/
def remove? (r : ResidualSet n) (i : SignedIndex n) : Option (ResidualSet n) := do
  let k ← r.position.get i.index
  let last ← r.slots.back?
  let slots := r.slots.pop
  if h : k < slots.size then
    some
      { slots := slots.set k last
        position := (r.position.write last.index (some k)).write i.index none }
  else some { slots, position := r.position.write i.index none }

/-- Slots and positions are inverse to each other. -/
structure WellFormed (r : ResidualSet n) : Prop where
  /-- The position of what is in a slot is that slot. -/
  position_slot : ∀ (k : Nat) (i : SignedIndex n), r.slots[k]? = some i →
    r.position.get i.index = some k
  /-- An index with a position is in that slot. -/
  slot_position : ∀ (i : Fin n) (k : Nat), r.position.get i = some k →
    ∃ s, r.slots[k]? = some s ∧ s.index = i

/-- The set without members is well formed. -/
theorem wellFormed_empty : (empty n).WellFormed where
  position_slot k i h := by simp [empty] at h
  slot_position i k h := by simp [empty] at h

end ResidualSet

end LocalSat
