/-
What the numbers of an index count.

* `Assignment.falsified`: the number of clauses without a true literal; `Tracks.size_eq`: this
  is the size of the residual set;
* `Assignment.breaks`: the number of clauses that a flip leaves without a true literal, for
  clauses that do not repeat literals; `Tracks.breakCount_eq`: this is what is counted;
* `breakCountUpTo_eq`: a count up to a bound is the full count, or one above the bound.
-/
import LocalSat.Proofs.Search.Break

namespace LocalSat

variable {n m : Nat}

/-! ### Clauses under an assignment -/

namespace Assignment

/-- The number of clauses without a true literal. -/
def falsified (a : Assignment n) (clauses : List (Clause n)) : Nat :=
  clauses.countP fun c => !c.any a.holds

/-- The number of clauses that have the true literal of a variable as their only true one. -/
def breaks (a : Assignment n) (clauses : List (Clause n)) (v : Fin n) : Nat :=
  clauses.countP fun c => c.countP a.holds == 1 && c.contains (a.literal v)

/-- A variable breaks no more clauses than there are. -/
lemma breaks_le (a : Assignment n) (clauses : List (Clause n)) (v : Fin n) :
    a.breaks clauses v ≤ clauses.length :=
  List.countP_le_length

/-- Every clause has a true literal when there is none without one. -/
lemma falsified_eq_zero_iff (a : Assignment n) (clauses : List (Clause n)) :
    a.falsified clauses = 0 ↔ a.Satisfies clauses := by
  simp [falsified, Satisfies, List.countP_eq_zero]

end Assignment

/-- The items of a table by their indices. -/
lemma Table.toList_eq_map {α : Type} (t : Table m α) :
    t.toList = (List.finRange m).map t.get := by
  refine List.ext_getElem (by simp) fun i hi hi' => ?_
  rw [List.getElem_map, List.getElem_finRange, Table.get_eq_getElem, Vector.getElem_toList]
  rfl

namespace Index

/-- A list of indices that has exactly those with a property, each once, is as long as there
are items that have it. -/
lemma length_eq_countP {α : Type} {p : α → Bool} (t : Table m α) {is : List (Fin m)}
    (hnodup : is.Nodup) (hmem : ∀ i, i ∈ is ↔ p (t.get i) = true) :
    is.length = t.toList.countP p := by
  have hperm : is.Perm ((List.finRange m).filter fun i => p (t.get i)) := by
    refine (List.perm_ext_iff_of_nodup hnodup ((List.nodup_finRange m).filter _)).2 fun i => ?_
    rw [hmem, List.mem_filter]
    exact ⟨fun h => ⟨List.mem_finRange i, h⟩, And.right⟩
  calc is.length
      = ((List.finRange m).filter fun i => p (t.get i)).length := hperm.length_eq
    _ = (List.finRange m).countP (p ∘ t.get) := (List.countP_eq_length_filter ..).symm
    _ = t.toList.countP p := by rw [t.toList_eq_map, List.countP_map]

section

variable {x : Index n m} {clauses : Table m (Clause n)} {a : Assignment n}

/-- The residual set has as many members as there are clauses without a true literal. -/
lemma Tracks.size_eq (hx : x.Tracks clauses a) :
    x.residual.size = a.falsified clauses.toList := by
  have hlength := length_eq_countP (p := fun c => !c.any a.holds) clauses
    hx.wellFormed.nodup_slots fun i => ?_
  · rwa [List.length_map, Array.length_toList] at hlength
  · have hmem := (hx.wellFormed.contains_iff (.ofFin i)).symm.trans (hx.contains_iff i)
    simpa [List.mem_map, SignedIndex.ofFin] using hmem

/-- The break count of a variable is the number of clauses that its true literal alone makes
true. -/
lemma Tracks.breakCount_eq (hx : x.Tracks clauses a) (v : Fin n) :
    x.breakCount a v = a.breaks clauses.toList v := by
  rw [breakCount, List.countP_eq_length_filter]
  refine length_eq_countP clauses (hx.nodup_critical v) fun i => ?_
  have hmem : i ∈ x.support a v ↔ a.literal v ∈ clauses.get i := by
    rw [← List.count_pos_iff, support, hx.count_occurrences, List.count_pos_iff]
  rw [List.mem_filter, hmem, hx.trueCount_eq]
  simp only [Bool.and_eq_true, beq_iff_eq, List.contains_iff_mem]
  rw [and_comm]
  norm_cast

end

/-! ### Counts up to a bound -/

/-- Counting on from at most the bound stops at one above it. -/
lemma countUpTo_eq (x : Index n m) {bound count : Nat} (h : count ≤ bound)
    (cs : List (Fin m)) :
    x.countUpTo bound count cs =
      min (count + cs.countP fun c => x.trueCount.get c == 1) (bound + 1) := by
  induction cs generalizing count with
  | nil =>
      rw [countUpTo, List.countP_nil]
      omega
  | cons c cs ih =>
      rw [countUpTo, List.countP_cons]
      split
      · next hone =>
        simp only [hone, beq_self_eq_true, if_true]
        split
        · omega
        · rw [ih (by omega)]
          omega
      · next hone =>
        simp only [beq_iff_eq, if_neg hone]
        rw [ih h]
        omega

/-- A count up to a bound is the full count, or one above the bound. -/
lemma breakCountUpTo_eq (x : Index n m) (a : Assignment n) (v : Fin n) (bound : Nat) :
    x.breakCountUpTo a v bound = min (x.breakCount a v) (bound + 1) := by
  rw [breakCountUpTo, x.countUpTo_eq (Nat.zero_le bound), Nat.zero_add, breakCount]

end Index

end LocalSat
