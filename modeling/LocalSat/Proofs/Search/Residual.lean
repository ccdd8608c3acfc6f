/-
Residual sets as sets.

* `WellFormed.contains_iff`, `WellFormed.nodup_slots`, `WellFormed.isEmpty_iff`: a set whose
  slots and positions are inverse has each of its members in exactly one slot;
* `wellFormed_insert`, `contains_insert`: an insertion adds the index;
* `exists_remove?`: the removal of a member succeeds, and takes only this index away.
-/
import LocalSat.ResidualSet
import Mathlib.Data.List.Nodup
import Mathlib.Tactic.Common

namespace LocalSat.ResidualSet

variable {n : Nat} {r : ResidualSet n}

/-- An index is a member when it has a slot. -/
lemma contains_eq_true (r : ResidualSet n) (i : SignedIndex n) :
    r.contains i = true ↔ ∃ k, r.position.get i.index = some k := by
  rw [contains, Option.isSome_iff_exists]

/-- Whether an index is a member does not depend on how it is named. -/
lemma contains_congr (r : ResidualSet n) {i j : SignedIndex n} (h : i.index = j.index) :
    r.contains i = r.contains j := by
  rw [contains, contains, h]

/-! ### Members and slots -/

namespace WellFormed

/-- The members are what the slots hold. -/
lemma contains_iff (hr : r.WellFormed) (i : SignedIndex n) :
    r.contains i = true ↔ ∃ s ∈ r.slots, s.index = i.index := by
  rw [contains_eq_true]
  constructor
  · rintro ⟨k, hk⟩
    obtain ⟨s, hs, hsi⟩ := hr.slot_position i.index k hk
    exact ⟨s, Array.mem_of_getElem? hs, hsi⟩
  · rintro ⟨s, hs, hsi⟩
    obtain ⟨k, hk⟩ := Array.mem_iff_getElem?.1 hs
    exact ⟨k, hsi ▸ hr.position_slot k s hk⟩

/-- Slots that hold the same index are the same. -/
lemma slot_inj (hr : r.WellFormed) {j k : Nat} {s t : SignedIndex n}
    (hs : r.slots[j]? = some s) (ht : r.slots[k]? = some t) (h : s.index = t.index) :
    j = k := by
  have hj := hr.position_slot j s hs
  have hk := hr.position_slot k t ht
  rw [h, hk] at hj
  exact (Option.some.inj hj).symm

/-- No index is in two slots. -/
lemma nodup_slots (hr : r.WellFormed) : (r.slots.toList.map (·.index)).Nodup := by
  rw [List.nodup_iff_injective_get]
  intro j k hjk
  have hj : j.val < r.slots.size := by simpa using j.isLt
  have hk : k.val < r.slots.size := by simpa using k.isLt
  refine Fin.ext (hr.slot_inj (Array.getElem?_eq_getElem hj) (Array.getElem?_eq_getElem hk) ?_)
  simpa using hjk

/-- A set is empty when no index is a member. -/
lemma isEmpty_iff (hr : r.WellFormed) :
    r.isEmpty = true ↔ ∀ i : Fin n, r.contains (.ofFin i) = false := by
  rw [isEmpty, Array.isEmpty_iff]
  constructor
  · intro h i
    rw [← Bool.not_eq_true, hr.contains_iff, h]
    simp
  · intro h
    rw [Array.eq_empty_iff_forall_not_mem]
    intro s hs
    have hc : r.contains (.ofFin s.index) = true := (hr.contains_iff _).2 ⟨s, hs, rfl⟩
    rw [h s.index] at hc
    cases hc

end WellFormed

/-! ### Insertion -/

/-- After an insertion the members are those before and the index. -/
lemma contains_insert (r : ResidualSet n) (i j : SignedIndex n) :
    (r.insert i).contains j = true ↔ i.index = j.index ∨ r.contains j = true := by
  unfold insert
  split
  · next hi =>
    refine ⟨.inr, fun h => ?_⟩
    rcases h with h | h
    · rwa [← r.contains_congr h]
    · exact h
  · rw [contains, Table.get_write]
    split
    · next h => simp [h]
    · next h => simp [h, contains]

/-- An insertion keeps slots and positions inverse. -/
lemma wellFormed_insert (hr : r.WellFormed) (i : SignedIndex n) : (r.insert i).WellFormed := by
  unfold insert
  split
  · exact hr
  next hi =>
  have hnone : r.position.get i.index = none := by
    rwa [contains, Option.not_isSome_iff_eq_none] at hi
  constructor
  · intro k s hs
    rw [Array.getElem?_push] at hs
    rw [Table.get_write]
    split at hs
    · next hk =>
      cases hs
      simp [hk]
    · have hpos := hr.position_slot k s hs
      rw [if_neg, hpos]
      intro h
      rw [← h, hnone] at hpos
      cases hpos
  · intro j k hk
    rw [Table.get_write] at hk
    split at hk
    · next h =>
      cases hk
      exact ⟨i, by simp, h⟩
    · obtain ⟨s, hs, hsj⟩ := hr.slot_position j k hk
      refine ⟨s, ?_, hsj⟩
      obtain ⟨hlt, -⟩ := Array.getElem?_eq_some_iff.1 hs
      rw [Array.getElem?_push, if_neg (by omega), hs]

/-! ### Removal -/

/-- What the removal of the index in slot `k` leaves, where the last slot holds `last`. -/
def removed (r : ResidualSet n) (i last : SignedIndex n) (k : Nat) : ResidualSet n :=
  if h : k < r.slots.pop.size then
    { slots := r.slots.pop.set k last
      position := (r.position.write last.index (some k)).write i.index none }
  else { slots := r.slots.pop, position := r.position.write i.index none }

/-- The removal of an index that is in a slot. -/
lemma remove?_eq_removed {i last : SignedIndex n} {k : Nat}
    (hk : r.position.get i.index = some k) (hlast : r.slots.back? = some last) :
    r.remove? i = some (r.removed i last k) := by
  simp only [remove?, hk, hlast, removed, bind, Option.bind]
  split <;> rfl

/-- When the last slot is given up with the index in it, slots and positions stay
inverse. -/
lemma wellFormed_pop (hr : r.WellFormed) {i : SignedIndex n}
    (hi : r.position.get i.index = some (r.slots.size - 1)) :
    WellFormed { slots := r.slots.pop, position := r.position.write i.index none } := by
  obtain ⟨s, hs, hsi⟩ := hr.slot_position i.index _ hi
  constructor
  · intro j t ht
    rw [Array.getElem?_pop] at ht
    split at ht
    · rw [Table.get_write, if_neg, hr.position_slot j t ht]
      intro h
      have := hr.slot_inj hs ht (hsi.trans h)
      omega
    · cases ht
  · intro x j hj
    rw [Table.get_write] at hj
    split at hj
    · cases hj
    next hix =>
    obtain ⟨t, ht, htx⟩ := hr.slot_position x j hj
    refine ⟨t, ?_, htx⟩
    obtain ⟨hjlt, -⟩ := Array.getElem?_eq_some_iff.1 ht
    have hjl : j ≠ r.slots.size - 1 := by
      rintro rfl
      rw [hs] at ht
      cases ht
      exact hix (hsi.symm.trans htx)
    rw [Array.getElem?_pop, if_pos (by omega), ht]

/-- When the last index moves into the slot of another one, which is given up, slots and
positions stay inverse. -/
lemma wellFormed_move (hr : r.WellFormed) {i last : SignedIndex n} {k : Nat}
    (hk : r.position.get i.index = some k)
    (hlast : r.slots[r.slots.size - 1]? = some last) (hlt : k < r.slots.pop.size) :
    WellFormed
      { slots := r.slots.pop.set k last
        position := (r.position.write last.index (some k)).write i.index none } := by
  obtain ⟨s, hs, hsi⟩ := hr.slot_position i.index k hk
  have hpop : r.slots.pop.size = r.slots.size - 1 := Array.size_pop
  have hli : last.index ≠ i.index := by
    intro h
    have := hr.slot_inj hlast hs (h.trans hsi.symm)
    omega
  constructor
  · intro j t ht
    rw [Table.get_write, Table.get_write]
    rw [Array.getElem?_set] at ht
    split at ht
    · next hkj =>
      cases ht
      rw [if_neg hli.symm, if_pos rfl, hkj]
    · next hkj =>
      obtain ⟨hjlt, -⟩ := Array.getElem?_eq_some_iff.1 ht
      rw [Array.getElem?_pop, if_pos (by omega)] at ht
      rw [if_neg fun h => ?_, if_neg fun h => ?_, hr.position_slot j t ht]
      · have := hr.slot_inj hlast ht h
        omega
      · exact hkj (hr.slot_inj hs ht (hsi.trans h))
  · intro x j hj
    rw [Table.get_write, Table.get_write] at hj
    split at hj
    · cases hj
    next hix =>
    split at hj
    · next hlx =>
      cases hj
      exact ⟨last, by simp, hlx⟩
    next hlx =>
    obtain ⟨t, ht, htx⟩ := hr.slot_position x j hj
    refine ⟨t, ?_, htx⟩
    obtain ⟨hjlt, -⟩ := Array.getElem?_eq_some_iff.1 ht
    have hjk : k ≠ j := by
      rintro rfl
      rw [hs] at ht
      cases ht
      exact hix (hsi.symm.trans htx)
    have hjl : j ≠ r.slots.size - 1 := by
      rintro rfl
      rw [hlast] at ht
      cases ht
      exact hlx htx
    rw [Array.getElem?_set, if_neg hjk, Array.getElem?_pop, if_pos (by omega), ht]

/-- The removal of a member keeps slots and positions inverse. -/
lemma wellFormed_removed (hr : r.WellFormed) {i last : SignedIndex n} {k : Nat}
    (hk : r.position.get i.index = some k) (hlast : r.slots.back? = some last) :
    (r.removed i last k).WellFormed := by
  rw [Array.back?_eq_getElem?] at hlast
  unfold removed
  split
  · next hlt => exact wellFormed_move hr hk hlast hlt
  · next hge =>
    obtain ⟨s, hs, -⟩ := hr.slot_position i.index k hk
    obtain ⟨hklt, -⟩ := Array.getElem?_eq_some_iff.1 hs
    rw [Array.size_pop] at hge
    obtain rfl : k = r.slots.size - 1 := by omega
    exact wellFormed_pop hr hk

/-- After a removal the members are those before, without the index. -/
lemma contains_removed (hr : r.WellFormed) {i last : SignedIndex n} (k : Nat)
    (hlast : r.slots.back? = some last) (j : SignedIndex n) :
    (r.removed i last k).contains j = true ↔ i.index ≠ j.index ∧ r.contains j = true := by
  have hmem : r.contains last = true := by
    rw [Array.back?_eq_getElem?] at hlast
    exact (hr.contains_iff last).2 ⟨last, Array.mem_of_getElem? hlast, rfl⟩
  unfold removed
  split
  · rw [contains, Table.get_write, Table.get_write]
    split
    · next h => simp [h]
    · next h =>
      split
      · next hl => simp [h, ← r.contains_congr hl, hmem]
      · simp [h, contains]
  · rw [contains, Table.get_write]
    split
    · next h => simp [h]
    · next h => simp [h, contains]

/-- The removal of a member succeeds, keeps slots and positions inverse, and takes away
nothing but this index. -/
lemma exists_remove? (hr : r.WellFormed) {i : SignedIndex n} (hi : r.contains i = true) :
    ∃ t, r.remove? i = some t ∧ t.WellFormed ∧
      ∀ j, t.contains j = true ↔ i.index ≠ j.index ∧ r.contains j = true := by
  obtain ⟨k, hk⟩ := (r.contains_eq_true i).1 hi
  obtain ⟨s, hs, -⟩ := hr.slot_position i.index k hk
  obtain ⟨last, hlast⟩ : ∃ last, r.slots.back? = some last := by
    obtain ⟨hlt, -⟩ := Array.getElem?_eq_some_iff.1 hs
    rw [Array.back?_eq_getElem?]
    exact ⟨_, Array.getElem?_eq_getElem (by omega)⟩
  exact ⟨_, remove?_eq_removed hk hlast, wellFormed_removed hr hk hlast,
    contains_removed hr k hlast⟩

end LocalSat.ResidualSet
