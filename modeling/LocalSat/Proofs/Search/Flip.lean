/-
What a flip does to the clauses.

* `touched`, `broken`: the clauses in which a variable occurs, and those that its flip leaves
  without a true literal although they had one;
* `countP_flip_of_not_mem`, `countP_flip_of_mem`: a clause in which no variable occurs twice has
  one true literal more or less after the flip of a variable in it, and otherwise as many;
* `Assignment.broken_iff`: the flip breaks those that the variable alone makes true;
  `Tracks.breakCount_eq_card`: as many are counted;
* `ResidualSet.indices`: the members of a residual set; `Tracks.indices_flip`,
  `Tracks.size_flip`: those after a flip; `Tracks.indices_flip_ssubset`: a flip that breaks
  nothing leaves fewer, if the variable occurs in one of them.
-/
import LocalSat.Proofs.Search.Census
import Mathlib.Data.Finset.Card

namespace LocalSat

variable {n m : Nat}

/-! ### One clause -/

namespace Assignment

/-- A variable occurs as its true literal or as its false one. -/
lemma count_literal_add_count_negate (a : Assignment n) (v : Fin n) (c : Clause n) :
    c.count (a.literal v) + c.count (a.literal v).negate = (c.map Literal.var).count v := by
  induction c with
  | nil => rfl
  | cons l c ih =>
      simp only [List.map_cons, List.count_cons, beq_iff_eq, eq_literal_iff, eq_negate_literal_iff]
      rw [← ih]
      by_cases hv : v = l.var
      · cases hl : a.holds l <;> simp [hv] <;> omega
      · simp [hv, Ne.symm hv]

/-- A flip does not change the true literals of a clause in which its variable does not occur. -/
lemma countP_flip_of_not_mem (a : Assignment n) {v : Fin n} {c : Clause n}
    (hv : v ∉ c.map Literal.var) : c.countP (a.flip v).holds = c.countP a.holds := by
  have hflip := a.countP_flip v c
  have hboth := a.count_literal_add_count_negate v c
  rw [List.count_eq_zero_of_not_mem hv] at hboth
  omega

/-- A flip makes one more literal true or one less, where its variable occurs once. -/
lemma countP_flip_of_mem (a : Assignment n) {v : Fin n} {c : Clause n}
    (hc : (c.map Literal.var).Nodup) (hv : v ∈ c.map Literal.var) :
    c.countP (a.flip v).holds + 1 = c.countP a.holds
      ∨ c.countP (a.flip v).holds = c.countP a.holds + 1 := by
  have hflip := a.countP_flip v c
  have hboth := a.count_literal_add_count_negate v c
  rw [List.count_eq_one_of_mem hc hv] at hboth
  omega

/-- A clause is broken by a flip if the variable alone makes it true, where this occurs once. -/
lemma broken_iff (a : Assignment n) (v : Fin n) {c : Clause n} (hc : (c.map Literal.var).Nodup) :
    ((∃ l ∈ c, a.holds l = true) ∧ ¬∃ l ∈ c, (a.flip v).holds l = true)
      ↔ c.countP a.holds = 1 ∧ a.literal v ∈ c := by
  have hflip := a.countP_flip v c
  have hboth := a.count_literal_add_count_negate v c
  have hone := List.nodup_iff_count_le_one.1 hc v
  rw [← List.countP_pos_iff, ← List.countP_pos_iff, ← List.count_pos_iff]
  omega

/-- Where a variable occurs in a clause, this has a true literal before or after its flip. -/
lemma exists_holds_flip (a : Assignment n) {v : Fin n} {c : Clause n}
    (hv : v ∈ c.map Literal.var) (h : ¬∃ l ∈ c, a.holds l = true) :
    ∃ l ∈ c, (a.flip v).holds l = true := by
  obtain ⟨l, hl, rfl⟩ := List.mem_map.1 hv
  refine ⟨l, hl, ?_⟩
  rw [holds_flip, if_pos rfl, Bool.not_eq_true', ← Bool.not_eq_true]
  exact fun hholds => h ⟨l, hl, hholds⟩

end Assignment

/-! ### All clauses -/

/-- The clauses in which a variable occurs. -/
def touched (clauses : Table m (Clause n)) (v : Fin n) : Finset (Fin m) :=
  Finset.univ.filter fun i => v ∈ (clauses.get i).map Literal.var

/-- The clauses that have a true literal before the flip of a variable, and none after it. -/
def broken (clauses : Table m (Clause n)) (a : Assignment n) (v : Fin n) : Finset (Fin m) :=
  Finset.univ.filter fun i => (∃ l ∈ clauses.get i, a.holds l = true)
    ∧ ¬∃ l ∈ clauses.get i, (a.flip v).holds l = true

/-- The members of a residual set. -/
def ResidualSet.indices (r : ResidualSet n) : Finset (Fin n) :=
  (r.slots.toList.map (·.index)).toFinset

/-- Each of them has one slot. -/
lemma ResidualSet.WellFormed.card_indices {r : ResidualSet n} (hr : r.WellFormed) :
    r.indices.card = r.size := by
  rw [indices, List.toFinset_card_of_nodup hr.nodup_slots, List.length_map, Array.length_toList]
  rfl

lemma mem_touched {clauses : Table m (Clause n)} {v : Fin n} {i : Fin m} :
    i ∈ touched clauses v ↔ v ∈ (clauses.get i).map Literal.var := by
  simp [touched]

lemma mem_broken {clauses : Table m (Clause n)} {a : Assignment n} {v : Fin n} {i : Fin m} :
    i ∈ broken clauses a v ↔ (∃ l ∈ clauses.get i, a.holds l = true)
      ∧ ¬∃ l ∈ clauses.get i, (a.flip v).holds l = true := by
  simp [broken]

namespace Index.Tracks

variable {x y : Index n m} {clauses : Table m (Clause n)} {a : Assignment n} {v : Fin n}

/-- The residual clauses are those without a true literal. -/
lemma mem_indices (hx : x.Tracks clauses a) {i : Fin m} :
    i ∈ x.residual.indices ↔ ¬∃ l ∈ clauses.get i, a.holds l = true := by
  have hcontains := (hx.wellFormed.contains_iff (.ofFin i)).symm.trans (hx.contains_iff i)
  simpa [ResidualSet.indices, SignedIndex.ofFin] using hcontains

/-- The clauses that a flip breaks are counted, where no variable occurs twice. -/
lemma breakCount_eq_card (hx : x.Tracks clauses a)
    (hc : ∀ i, ((clauses.get i).map Literal.var).Nodup) (v : Fin n) :
    x.breakCount a v = (broken clauses a v).card := by
  rw [hx.breakCount_eq, Assignment.breaks, ← Finset.length_toList]
  refine (length_eq_countP clauses (Finset.nodup_toList _) fun i => ?_).symm
  rw [Finset.mem_toList, mem_broken, a.broken_iff v (hc i)]
  simp

/-- The counts of the clauses in which a variable occurs once change by one with its flip. -/
lemma natAbs_trueCount_flip (hx : x.Tracks clauses a) (hy : y.Tracks clauses (a.flip v))
    {i : Fin m} (hc : ((clauses.get i).map Literal.var).Nodup) (hi : i ∈ touched clauses v) :
    (y.trueCount.get i - x.trueCount.get i).natAbs = 1 := by
  rw [hx.trueCount_eq, hy.trueCount_eq]
  have hone := a.countP_flip_of_mem hc (mem_touched.1 hi)
  omega

/-- The others do not change. -/
lemma trueCount_flip (hx : x.Tracks clauses a) (hy : y.Tracks clauses (a.flip v)) {i : Fin m}
    (hi : i ∉ touched clauses v) : y.trueCount.get i = x.trueCount.get i := by
  rw [hx.trueCount_eq, hy.trueCount_eq, a.countP_flip_of_not_mem (mt mem_touched.2 hi)]

/-- After a flip those clauses are residual that were so and in which the variable does not occur,
and those that it breaks. -/
lemma indices_flip (hx : x.Tracks clauses a) (hy : y.Tracks clauses (a.flip v)) :
    y.residual.indices = x.residual.indices \ touched clauses v ∪ broken clauses a v := by
  ext i
  rw [Finset.mem_union, Finset.mem_sdiff, mem_broken, hx.mem_indices, hy.mem_indices]
  by_cases hi : i ∈ touched clauses v
  · have hone := a.exists_holds_flip (mem_touched.1 hi)
    constructor
    · intro hafter
      exact .inr ⟨by_contra fun hbefore => hafter (hone hbefore), hafter⟩
    · rintro (⟨-, hnot⟩ | ⟨-, hafter⟩)
      · exact absurd hi hnot
      · exact hafter
  · -- the count is the same, so the clause is residual before if it is so after
    have hsame : (∃ l ∈ clauses.get i, (a.flip v).holds l = true)
        ↔ ∃ l ∈ clauses.get i, a.holds l = true := by
      rw [← List.countP_pos_iff, ← List.countP_pos_iff,
        a.countP_flip_of_not_mem (mt mem_touched.2 hi)]
    rw [hsame]
    constructor
    · exact fun hbefore => .inl ⟨hbefore, hi⟩
    · rintro (⟨hbefore, -⟩ | ⟨hbefore, hafter⟩)
      · exact hbefore
      · exact absurd hbefore hafter

/-- Their number grows by that of the broken clauses, and shrinks by that of the residual ones in
which the variable occurs. -/
lemma size_flip (hx : x.Tracks clauses a) (hy : y.Tracks clauses (a.flip v)) :
    y.residual.size + (x.residual.indices ∩ touched clauses v).card
      = x.residual.size + (broken clauses a v).card := by
  have hdisjoint : Disjoint (x.residual.indices \ touched clauses v) (broken clauses a v) := by
    refine Finset.disjoint_left.2 fun i hi hb => ?_
    exact hx.mem_indices.1 (Finset.mem_sdiff.1 hi).1 (mem_broken.1 hb).1
  have hsplit := Finset.card_sdiff_add_card_inter x.residual.indices (touched clauses v)
  rw [← hx.wellFormed.card_indices, ← hy.wellFormed.card_indices, hx.indices_flip hy,
    Finset.card_union_of_disjoint hdisjoint]
  omega

/-- A flip that breaks nothing leaves fewer residual clauses, if its variable occurs in one. -/
lemma indices_flip_ssubset (hx : x.Tracks clauses a) (hy : y.Tracks clauses (a.flip v))
    (hbroken : broken clauses a v = ∅) {i : Fin m} (hi : i ∈ x.residual.indices)
    (hv : i ∈ touched clauses v) : y.residual.indices ⊂ x.residual.indices := by
  rw [hx.indices_flip hy, hbroken, Finset.union_empty]
  refine Finset.ssubset_iff_subset_ne.2 ⟨Finset.sdiff_subset, fun heq => ?_⟩
  rw [← heq] at hi
  exact (Finset.mem_sdiff.1 hi).2 hv

end Index.Tracks

end LocalSat
