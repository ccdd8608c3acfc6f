/-
Residual sets under arbitrary operations.

* `Names n i`, `wrap n i`: which integers name an index, and the index that one names;
* `Operation`, `perform`: what may be asked of a residual set, with any integers; `run` goes on
  after operations that fail;
* `slotInts`, `positionInts`, `members`: the two arrays as they are shown, and the set that they
  stand for; `Inverse` says that the arrays determine each other;
* `Operation.effect`: what an operation is to do to the set; `Performs`: what it is to answer,
  and what it is to do to the slots;
* `WellFormed.after`, `WellFormed.performs`: one operation on a well-formed set;
  `wellFormed_run`: many operations;
* `run_refines`: a residual set behaves as a finite set, whatever is asked of it.
-/
import LocalSat.Proofs.Outcome
import LocalSat.Proofs.Search.Residual
import Mathlib.Data.Finset.Dedup
import Mathlib.Data.Finset.Erase
import Mathlib.Data.Finset.Insert

namespace LocalSat

/-! ### Indices by integers -/

namespace SignedIndex

variable {n : Nat}

/-- An integer names an index below `n`, from the front or from the end. -/
def Names (n : Nat) (i : Int) : Prop := -(n : Int) ≤ i ∧ i < n

instance (n : Nat) (i : Int) : Decidable (Names n i) := inferInstanceAs (Decidable (_ ∧ _))

/-- The index that an integer names. -/
def wrap (n : Nat) (i : Int) : Int := if i < 0 then i + n else i

/-- The integer of an index names it. -/
lemma names_toInt (s : SignedIndex n) : Names n s.toInt := by
  have hlt := s.index.isLt
  rw [Names, toInt]
  split <;> omega

/-- An index is what its integer wraps to. -/
@[simp] lemma wrap_toInt (s : SignedIndex n) : wrap n s.toInt = s.index := by
  have hlt := s.index.isLt
  rw [wrap, toInt]
  split <;> split <;> omega

/-- An integer that names an index is found to do so. -/
lemma exists_ofInt? {i : Int} (h : Names n i) :
    ∃ s, ofInt? n i = some s ∧ s.toInt = i ∧ (s.index : Int) = wrap n i := by
  obtain ⟨hlow, hhigh⟩ := h
  obtain ⟨s, hs⟩ : ∃ s, ofInt? n i = some s := by
    unfold ofInt?
    split
    · exact ⟨_, rfl⟩
    · rw [dif_pos (by omega)]
      exact ⟨_, rfl⟩
  have hi : s.toInt = i := toInt_of_ofInt? hs
  exact ⟨s, hs, hi, by rw [← hi, wrap_toInt]⟩

/-- No other integer is. -/
lemma ofInt?_eq_none {i : Int} (h : ¬Names n i) : ofInt? n i = none := by
  cases hs : ofInt? n i with
  | none => rfl
  | some s => exact absurd (toInt_of_ofInt? hs ▸ s.names_toInt) h

end SignedIndex

namespace ResidualSet

open SignedIndex (Names wrap)

variable {n : Nat} {r : ResidualSet n}

/-! ### Operations -/

/-- What may be asked of a residual set. -/
inductive Operation where
  /-- To insert an index. -/
  | insert (i : Int)
  /-- To remove an index. -/
  | remove (i : Int)
  /-- To tell whether an index is a member. -/
  | contains (i : Int)
  /-- To give some member. -/
  | pickAny

/-- What a residual set answers. -/
inductive Answer where
  /-- It is done. -/
  | done
  /-- Whether an index is a member. -/
  | truth (b : Bool)
  /-- A member, in the form in which it was inserted. -/
  | member (i : Int)
  deriving DecidableEq

/-- The index that an integer names. -/
def place (i : Int) : EStateM Fault (ResidualSet n) (SignedIndex n) :=
  match SignedIndex.ofInt? n i with
  | some s => pure s
  | none => throw .badIndex

/-- Does what is asked for. -/
def perform : Operation → EStateM Fault (ResidualSet n) Answer
  | .insert i => do
      let s ← place i
      modify fun r => r.insert s
      pure .done
  | .remove i => do
      let s ← place i
      match (← get).remove? s with
      | some r => do
          set r
          pure .done
      | none => throw (.absentMember (.int i))
  | .contains i => do
      let s ← place i
      pure (.truth ((← get).contains s))
  | .pickAny => do
      match (← get).first? with
      | some s => pure (.member s.toInt)
      | none => throw .badIndex

/-- The set after an operation, whether it succeeds or fails. -/
def after (r : ResidualSet n) (op : Operation) : ResidualSet n := reached (perform op r)

/-- The set after many operations. -/
def run (r : ResidualSet n) (ops : List Operation) : ResidualSet n := ops.foldl after r

/-! ### What is shown -/

/-- The slots, each with the integer that was inserted. -/
def slotInts (r : ResidualSet n) : List Int := r.slots.toList.map SignedIndex.toInt

/-- The entry of an index: its slot, or `-1`. -/
def entry : Option Nat → Int
  | some k => k
  | none => -1

/-- The positions, one for each index. -/
def positionInts (r : ResidualSet n) : List Int := r.position.toList.map entry

/-- The members. -/
def members (r : ResidualSet n) : Finset Int := (r.slotInts.map (wrap n)).toFinset

/-- Slots and positions that are shown determine each other: the slots name different indices,
the position of an index in a slot is that slot, and all other positions are `-1`. -/
structure Inverse (n : Nat) (slots positions : List Int) : Prop where
  /-- What is in a slot names an index. -/
  names : ∀ i ∈ slots, Names n i
  /-- No index is named twice. -/
  nodup : (slots.map (wrap n)).Nodup
  /-- There is a position for each index. -/
  length : positions.length = n
  /-- The position of an index in a slot. -/
  position_slot : ∀ (k : Nat) (i : Int), slots[k]? = some i →
    positions[(wrap n i).toNat]? = some (k : Int)
  /-- The position of any other index. -/
  position_absent : ∀ j < n, (j : Int) ∉ slots.map (wrap n) → positions[j]? = some (-1)

/-- What the slots hold, by index. -/
lemma map_wrap_slotInts (r : ResidualSet n) :
    r.slotInts.map (wrap n) = r.slots.toList.map fun s => (s.index : Int) := by
  rw [slotInts, List.map_map]
  exact List.map_congr_left fun s _ => s.wrap_toInt

/-- The members are the indices in the slots. -/
lemma mem_members {j : Int} : j ∈ r.members ↔ ∃ s ∈ r.slots, (s.index : Int) = j := by
  simp [members, map_wrap_slotInts]

/-- A set without members has no slots. -/
lemma members_eq_empty_iff : r.members = ∅ ↔ r.slotInts = [] := by
  rw [members, List.toFinset_eq_empty_iff, List.map_eq_nil_iff]

/-- The position that is shown for an index. -/
lemma getElem?_positionInts (r : ResidualSet n) (i : Fin n) :
    r.positionInts[i.val]? = some (entry (r.position.get i)) := by
  rw [positionInts, List.getElem?_map, Table.get_eq_getElem]
  simp

namespace WellFormed

/-- Membership is found out from the positions. -/
lemma contains_iff_mem (hr : r.WellFormed) (s : SignedIndex n) :
    r.contains s = true ↔ (s.index : Int) ∈ r.members := by
  rw [hr.contains_iff, mem_members]
  refine exists_congr fun t => and_congr_right fun _ => ?_
  rw [Fin.ext_iff]
  omega

/-- Slots and positions that are inverse to each other are shown so. -/
lemma inverse (hr : r.WellFormed) : Inverse n r.slotInts r.positionInts where
  names i hi := by
    obtain ⟨s, -, rfl⟩ := List.mem_map.1 hi
    exact s.names_toInt
  nodup := by
    have hinj : Function.Injective fun i : Fin n => (i : Int) := fun i j h =>
      Fin.ext (Int.ofNat.inj h)
    rw [map_wrap_slotInts]
    simpa [List.map_map, Function.comp_def] using hr.nodup_slots.map hinj
  length := by simp [positionInts]
  position_slot k i hi := by
    rw [slotInts, List.getElem?_map, Array.getElem?_toList] at hi
    obtain ⟨s, hs, rfl⟩ := Option.map_eq_some_iff.1 hi
    rw [s.wrap_toInt, Int.toNat_natCast, getElem?_positionInts, hr.position_slot k s hs]
    rfl
  position_absent j hj habsent := by
    have hnone : r.position.get ⟨j, hj⟩ = none := by
      by_contra hsome
      obtain ⟨k, hk⟩ := Option.ne_none_iff_exists'.1 hsome
      obtain ⟨s, hs, hsj⟩ := hr.slot_position ⟨j, hj⟩ k hk
      refine habsent ?_
      rw [map_wrap_slotInts]
      exact List.mem_map.2 ⟨s, by simpa using Array.mem_of_getElem? hs, by rw [hsj]⟩
    rw [getElem?_positionInts r ⟨j, hj⟩, hnone]
    rfl

end WellFormed

/-! ### Members -/

/-- The members are the indices that are found to be members. -/
lemma WellFormed.mem_members_iff (hr : r.WellFormed) {j : Int} :
    j ∈ r.members ↔ ∃ i : Fin n, (i : Int) = j ∧ r.contains (.ofFin i) = true := by
  constructor
  · intro hj
    obtain ⟨s, hs, rfl⟩ := mem_members.1 hj
    exact ⟨s.index, rfl, (hr.contains_iff _).2 ⟨s, hs, rfl⟩⟩
  · rintro ⟨i, rfl, hi⟩
    exact (hr.contains_iff_mem _).1 hi

/-- An insertion adds the index. -/
lemma WellFormed.members_insert (hr : r.WellFormed) (s : SignedIndex n) :
    (r.insert s).members = Insert.insert (s.index : Int) r.members := by
  ext j
  rw [(wellFormed_insert hr s).mem_members_iff, Finset.mem_insert, hr.mem_members_iff]
  simp only [contains_insert, and_or_left, exists_or]
  refine or_congr_left ⟨?_, ?_⟩
  · rintro ⟨i, rfl, hi⟩
    exact congrArg (fun i : Fin n => (i : Int)) hi.symm
  · rintro rfl
    exact ⟨s.index, rfl, rfl⟩

/-- An index that is no member cannot be removed. -/
lemma remove?_eq_none {s : SignedIndex n} (h : r.contains s ≠ true) : r.remove? s = none := by
  have hnone : r.position.get s.index = none := by simpa [contains] using h
  simp only [remove?, hnone]
  rfl

/-- A removal takes the index away. -/
lemma WellFormed.of_remove? (hr : r.WellFormed) {s : SignedIndex n} {t : ResidualSet n}
    (h : r.remove? s = some t) :
    t.WellFormed ∧ t.members = r.members.erase (s.index : Int) := by
  have hs : r.contains s = true := by
    by_contra hs
    rw [remove?_eq_none hs] at h
    cases h
  obtain ⟨u, hu, hwf, hcontains⟩ := exists_remove? hr hs
  obtain rfl : u = t := Option.some.inj (hu.symm.trans h)
  refine ⟨hwf, ?_⟩
  ext j
  rw [hwf.mem_members_iff, Finset.mem_erase, hr.mem_members_iff]
  simp only [hcontains]
  constructor
  · rintro ⟨i, rfl, hne, hi⟩
    exact ⟨fun h => hne (Fin.ext (by exact_mod_cast h.symm)), i, rfl, hi⟩
  · rintro ⟨hne, i, rfl, hi⟩
    exact ⟨i, rfl, fun h => hne (by rw [h]; rfl), hi⟩

/-! ### Slots -/

/-- An insertion fills one more slot, unless the index is a member. -/
lemma slotInts_insert {s : SignedIndex n} (h : r.contains s ≠ true) :
    (r.insert s).slotInts = r.slotInts ++ [s.toInt] := by
  rw [insert, if_neg h]
  simp [slotInts]

/-- A removal puts the last slot in the place of the slot that becomes free. -/
lemma slotInts_removed (s last : SignedIndex n) (k : Nat) :
    (r.removed s last k).slotInts = (r.slotInts.set k last.toInt).dropLast := by
  have hslots : (r.removed s last k).slots.toList = (r.slots.toList.set k last).dropLast := by
    simp only [List.dropLast_eq_take, List.length_set, Array.length_toList]
    unfold removed
    split
    · next h =>
      simp only [Array.toList_set, Array.toList_pop, List.dropLast_eq_take, Array.length_toList,
        List.take_set]
    · next h =>
      rw [Array.size_pop, not_lt] at h
      rw [List.take_set_of_le h, Array.toList_pop, List.dropLast_eq_take, Array.length_toList]
  rw [slotInts, hslots, List.map_dropLast, List.map_set, slotInts]

/-- The slots before and after the removal of a member. -/
lemma WellFormed.exists_removed (hr : r.WellFormed) {s : SignedIndex n}
    (hs : r.contains s = true) :
    ∃ t k last, r.remove? s = some t
      ∧ r.slotInts[k]?.map (wrap n) = some (s.index : Int) ∧ r.slotInts.getLast? = some last
      ∧ t.slotInts = (r.slotInts.set k last).dropLast := by
  obtain ⟨k, hk⟩ := (r.contains_eq_true s).1 hs
  obtain ⟨u, hu, hus⟩ := hr.slot_position s.index k hk
  obtain ⟨hlt, -⟩ := Array.getElem?_eq_some_iff.1 hu
  obtain ⟨last, hlast⟩ : ∃ last, r.slots.back? = some last := by
    rw [Array.back?_eq_getElem?]
    exact ⟨_, Array.getElem?_eq_getElem (by omega)⟩
  refine ⟨_, k, last.toInt, remove?_eq_removed hk hlast, ?_, ?_, slotInts_removed s last k⟩
  · rw [slotInts, List.getElem?_map, Array.getElem?_toList, hu]
    simp [hus]
  · rw [slotInts, List.getLast?_map, Array.getLast?_toList, hlast]
    rfl

/-! ### Operations on indices -/

/-- An operation on an index that an integer names goes on with this index. -/
lemma place_bind_run {α : Type} {i : Int} {s : SignedIndex n}
    (h : SignedIndex.ofInt? n i = some s) (k : SignedIndex n → EStateM Fault (ResidualSet n) α)
    (r : ResidualSet n) : (place i >>= k) r = k s r := by
  rw [place, h]
  rfl

/-- An operation on an index that does not exist fails and leaves the set as it is. -/
lemma place_bind_run_of_not {α : Type} {i : Int} (h : ¬Names n i)
    (k : SignedIndex n → EStateM Fault (ResidualSet n) α) (r : ResidualSet n) :
    (place i >>= k) r = .error .badIndex r := by
  rw [place, SignedIndex.ofInt?_eq_none h]
  rfl

/-- The set after an insertion. -/
lemma after_insert {i : Int} {s : SignedIndex n} (h : SignedIndex.ofInt? n i = some s)
    (r : ResidualSet n) : r.after (.insert i) = r.insert s := by
  rw [after, perform, place_bind_run h]
  rfl

/-- The set after a removal, which is the set before if it fails. -/
lemma after_remove {i : Int} {s : SignedIndex n} (h : SignedIndex.ofInt? n i = some s)
    (r : ResidualSet n) : r.after (.remove i) = (r.remove? s).getD r := by
  rw [after, perform, place_bind_run h, get_bind_run]
  cases r.remove? s <;> rfl

/-- Nothing is changed by an operation on an index that does not exist. -/
lemma after_of_not {i : Int} (h : ¬Names n i) (r : ResidualSet n) :
    r.after (.insert i) = r ∧ r.after (.remove i) = r := by
  constructor <;> rw [after, perform, place_bind_run_of_not h] <;> rfl

/-- Looking for a member changes nothing. -/
lemma after_contains (r : ResidualSet n) (i : Int) : r.after (.contains i) = r := by
  rw [after, perform]
  by_cases h : Names n i
  · obtain ⟨s, hs, -⟩ := SignedIndex.exists_ofInt? h
    rw [place_bind_run hs]
    rfl
  · rw [place_bind_run_of_not h]
    rfl

/-- Neither does giving one. -/
lemma after_pickAny (r : ResidualSet n) : r.after .pickAny = r := by
  rw [after, perform, get_bind_run]
  cases r.first? <;> rfl

/-! ### One operation -/

/-- What an operation is to do to the set of members. -/
def Operation.effect (n : Nat) (S : Finset Int) : Operation → Finset Int
  | insert i => if Names n i then Insert.insert (wrap n i) S else S
  | remove i => if Names n i then S.erase (wrap n i) else S
  | contains _ => S
  | pickAny => S

/-- An operation keeps the set well formed, and changes the members as it is to. -/
lemma WellFormed.after (hr : r.WellFormed) (op : Operation) :
    (r.after op).WellFormed ∧ (r.after op).members = op.effect n r.members := by
  cases op with
  | insert i =>
      rw [Operation.effect]
      split
      · next hi =>
        obtain ⟨s, hs, -, hwrap⟩ := SignedIndex.exists_ofInt? hi
        rw [after_insert hs, ← hwrap]
        exact ⟨wellFormed_insert hr s, hr.members_insert s⟩
      · next hi =>
        rw [(after_of_not hi r).1]
        exact ⟨hr, rfl⟩
  | remove i =>
      rw [Operation.effect]
      split
      · next hi =>
        obtain ⟨s, hs, -, hwrap⟩ := SignedIndex.exists_ofInt? hi
        rw [after_remove hs, ← hwrap]
        by_cases hmem : r.contains s = true
        · obtain ⟨t, -, -, ht, -⟩ := hr.exists_removed hmem
          rw [ht]
          exact hr.of_remove? ht
        · rw [remove?_eq_none hmem, Finset.erase_eq_of_notMem (mt (hr.contains_iff_mem s).2 hmem)]
          exact ⟨hr, rfl⟩
      · next hi =>
        rw [(after_of_not hi r).2]
        exact ⟨hr, rfl⟩
  | contains i =>
      rw [after_contains]
      exact ⟨hr, rfl⟩
  | pickAny =>
      rw [after_pickAny]
      exact ⟨hr, rfl⟩

/-- What the result of an operation is to be. An operation that fails leaves the set as it is.
An insertion of a new index fills one more slot, and a removal moves at most the last slot, into
the slot that becomes free. -/
def Performs (r : ResidualSet n) :
    Operation → EStateM.Result Fault (ResidualSet n) Answer → Prop
  | .insert i, x =>
      if Names n i then ∃ t, x = .ok .done t ∧ (wrap n i ∈ r.members → t = r)
        ∧ (wrap n i ∉ r.members → t.slotInts = r.slotInts ++ [i])
      else x = .error .badIndex r
  | .remove i, x =>
      if Names n i then
        (wrap n i ∈ r.members → ∃ t, x = .ok .done t ∧ ∃ k last,
          r.slotInts[k]?.map (wrap n) = some (wrap n i) ∧ r.slotInts.getLast? = some last
            ∧ t.slotInts = (r.slotInts.set k last).dropLast)
        ∧ (wrap n i ∉ r.members → x = .error (.absentMember (.int i)) r)
      else x = .error .badIndex r
  | .contains i, x =>
      x = if Names n i then .ok (.truth (wrap n i ∈ r.members)) r else .error .badIndex r
  | .pickAny, x =>
      if r.members = ∅ then x = .error .badIndex r
      else ∃ i, r.slotInts.head? = some i ∧ x = .ok (.member i) r

/-- An operation on a well-formed set answers, and changes the slots, as it is to. -/
lemma WellFormed.performs (hr : r.WellFormed) (op : Operation) :
    r.Performs op (perform op r) := by
  cases op with
  | insert i =>
      rw [Performs, perform]
      split
      · next hi =>
        obtain ⟨s, hs, hsi, hwrap⟩ := SignedIndex.exists_ofInt? hi
        rw [← hwrap, ← hr.contains_iff_mem, ← hsi]
        exact ⟨r.insert s, place_bind_run (hsi ▸ hs) _ r, fun hmem => if_pos hmem,
          slotInts_insert⟩
      · next hi => exact place_bind_run_of_not hi _ r
  | remove i =>
      rw [Performs, perform]
      split
      · next hi =>
        obtain ⟨s, hs, -, hwrap⟩ := SignedIndex.exists_ofInt? hi
        rw [place_bind_run hs, get_bind_run, ← hwrap, ← hr.contains_iff_mem]
        constructor
        · intro hmem
          obtain ⟨t, k, last, ht, hk⟩ := hr.exists_removed hmem
          rw [ht]
          exact ⟨t, rfl, k, last, hk⟩
        · intro hmem
          rw [remove?_eq_none hmem]
          rfl
      · next hi => exact place_bind_run_of_not hi _ r
  | contains i =>
      rw [Performs, perform]
      split
      · next hi =>
        obtain ⟨s, hs, -, hwrap⟩ := SignedIndex.exists_ofInt? hi
        have htruth : r.contains s = decide (wrap n i ∈ r.members) := by
          rw [Bool.eq_iff_iff, hr.contains_iff_mem, decide_eq_true_iff, hwrap]
        rw [place_bind_run hs, get_bind_run, htruth]
        rfl
      · next hi => exact place_bind_run_of_not hi _ r
  | pickAny =>
      have hhead : r.slotInts.head? = r.first?.map SignedIndex.toInt := by
        rw [slotInts, List.head?_map, List.head?_eq_getElem?, Array.getElem?_toList, first?]
      have hempty : r.members = ∅ ↔ r.first? = none := by
        rw [members_eq_empty_iff, ← List.head?_eq_none_iff, hhead, Option.map_eq_none_iff]
      rw [Performs, perform, get_bind_run, hhead]
      cases hfirst : r.first? with
      | none =>
          rw [if_pos (hempty.2 hfirst)]
          rfl
      | some s =>
          rw [if_neg (by simp [hempty, hfirst])]
          exact ⟨s.toInt, rfl, rfl⟩

/-- A result that is as it is to be leaves the set as it is when it is a failure. -/
lemma Performs.eq_of_error {op : Operation} {e : Fault} {t : ResidualSet n}
    (h : r.Performs op (.error e t)) : t = r := by
  cases op with
  | insert i =>
      rw [Performs] at h
      split at h
      · obtain ⟨u, hu, -⟩ := h
        cases hu
      · cases h
        rfl
  | remove i =>
      rw [Performs] at h
      split at h
      · by_cases hmem : wrap n i ∈ r.members
        · obtain ⟨u, hu, -⟩ := h.1 hmem
          cases hu
        · cases h.2 hmem
          rfl
      · cases h
        rfl
  | contains i =>
      rw [Performs] at h
      split at h
      · cases h
      · cases h
        rfl
  | pickAny =>
      rw [Performs] at h
      split at h
      · cases h
        rfl
      · obtain ⟨i, -, hi⟩ := h
        cases hi

/-! ### Many operations -/

/-- Any operations on a new set keep it well formed, and change the members as they are to. -/
lemma wellFormed_run (n : Nat) (ops : List Operation) :
    ((empty n).run ops).WellFormed
      ∧ ((empty n).run ops).members = ops.foldl (Operation.effect n) ∅ := by
  suffices h : ∀ (r : ResidualSet n) (S : Finset Int), r.WellFormed → r.members = S →
      (r.run ops).WellFormed ∧ (r.run ops).members = ops.foldl (Operation.effect n) S from
    h _ _ wellFormed_empty rfl
  induction ops with
  | nil => exact fun r S hr hS => ⟨hr, hS⟩
  | cons op ops ih =>
      intro r S hr hS
      obtain ⟨hwf, hmembers⟩ := hr.after op
      exact ih _ _ hwf (hS ▸ hmembers)

/-- **Residual sets are finite sets.** Let any operations be performed on a new set, with any
integers, of which some may fail. Then slots and positions determine each other, and the set
that they stand for is the one that the operations are to give, where negative integers count
from the end. Every further operation answers as it is to: an integer that names no index is
refused, and so is the removal of an index that is no member, and the choice of a member where
there is none. What fails leaves both arrays as they are. -/
theorem run_refines (n : Nat) (ops : List Operation) :
    let r := (empty n).run ops
    Inverse n r.slotInts r.positionInts
      ∧ r.members = ops.foldl (Operation.effect n) ∅
      ∧ (∀ op, r.Performs op (perform op r) ∧ (r.after op).members = op.effect n r.members)
      ∧ ∀ op e t, perform op r = .error e t → t = r := by
  intro r
  obtain ⟨hr, hmembers⟩ := wellFormed_run n ops
  refine ⟨hr.inverse, hmembers, fun op => ⟨hr.performs op, (hr.after op).2⟩, ?_⟩
  intro op e t ht
  have hperforms := hr.performs op
  rw [ht] at hperforms
  exact hperforms.eq_of_error

/-- An index that was inserted by its number from the end is removed by the one from the front.
Another one that was inserted so moves into its slot. -/
theorem run_refines_of_alias :
    let ops : List Operation := [.insert (-1), .insert 0, .insert 4, .insert (-2), .remove 2]
    let r := (empty 3).run ops
    r.slotInts = [-2, 0] ∧ r.positionInts = [1, 0, -1] ∧ Inverse 3 [-2, 0] [1, 0, -1]
      ∧ r.members = {0, 1} ∧ perform (.remove (-1)) r = .error (.absentMember (.int (-1))) r := by
  intro ops r
  obtain ⟨hinverse, hmembers, hperforms, -⟩ := run_refines 3 ops
  have hslots : r.slotInts = [-2, 0] := by decide
  have hpositions : r.positionInts = [1, 0, -1] := by decide
  have hset : r.members = {0, 1} := hmembers.trans (by decide)
  have hremove := (hperforms (.remove (-1))).1
  rw [Performs, if_pos (by decide)] at hremove
  refine ⟨hslots, hpositions, hslots ▸ hpositions ▸ hinverse, hset, hremove.2 ?_⟩
  rw [hset]
  decide

end ResidualSet

end LocalSat
