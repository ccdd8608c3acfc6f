/-
Endless random answers.

* `Tape`: two endless sequences of answers, one for the coins and one for the indices;
* a tape is a lawful source, and every sequence of lawful answers is on a tape.
-/
import LocalSat.Random.Source

namespace LocalSat

/-- Random answers that never run out. -/
structure Tape where
  /-- The coins to come. -/
  coins : Nat → Bool
  /-- The indices to come, of which one too large is taken modulo the length it is to fit
  into. -/
  indices : Nat → Nat

namespace Tape

/-- The tape of tails and of first members. -/
def zero : Tape := ⟨fun _ => false, fun _ => 0⟩

end Tape

instance : RandomSource Tape where
  coin _ g := .ok (g.coins 0) { g with coins := fun k => g.coins (k + 1) }
  index length g :=
    .ok (g.indices 0 % length.toNat) { g with indices := fun k => g.indices (k + 1) }

/-- A tape answers every sensible question. -/
instance : LawfulSource Tape where
  coin_ok _ _ := ⟨_, _, rfl⟩
  index_ok length g h := by
    refine ⟨_, _, rfl, ?_⟩
    have := Nat.mod_lt (g.indices 0) (by omega : 0 < length.toNat)
    omega

end LocalSat
