/-
The index of a search is right after any flips.

* `Index.Balanced`: the residual set holds the clauses whose count is zero. One step of a
  flip keeps this (`exists_gain`, `balanced_lose`), though a count may pass through zero on
  its way, and so do all steps for one literal (`exists_foldlM_gain`, `balanced_foldl_lose`);
* `Index.Tracks`: the index says where literals occur and how many of them are true under
  an assignment;
* `tracks_build`, `exists_flip`: this is so for a new index, and a flip succeeds and keeps
  it so;
* `Tracks.isEmpty_iff`: the residual set is empty when the assignment satisfies the
  clauses.
-/
import LocalSat.Proofs.Satisfaction
import LocalSat.Proofs.Search.Occurrences
import LocalSat.Proofs.Search.Residual
import LocalSat.Search.Index

namespace LocalSat

variable {n m : Nat}

/-! ### True literals before and after a flip -/

namespace Assignment

/-- The true literal of a variable is the only one. -/
lemma eq_literal_iff (a : Assignment n) (l : Literal n) (v : Fin n) :
    l = a.literal v ↔ v = l.var ∧ a.holds l = true := by
  constructor
  · rintro rfl
    exact ⟨rfl, a.holds_literal v⟩
  · rintro ⟨rfl, h⟩
    obtain ⟨w, s⟩ := l
    rw [holds, beq_iff_eq] at h
    rw [literal, h]

/-- The false literal of a variable is the only one. -/
lemma eq_negate_literal_iff (a : Assignment n) (l : Literal n) (v : Fin n) :
    l = (a.literal v).negate ↔ v = l.var ∧ a.holds l = false := by
  have hnegate : l = (a.literal v).negate ↔ l.negate = a.literal v := by
    constructor
    · rintro rfl
      exact Literal.negate_negate _
    · intro h
      rw [← h, Literal.negate_negate]
  rw [hnegate, eq_literal_iff, holds_negate, Literal.var_negate, Bool.not_eq_true']

/-- A flip changes the truth value of the literals of its variable. -/
lemma holds_flip (a : Assignment n) (v : Fin n) (l : Literal n) :
    (a.flip v).holds l = if v = l.var then !a.holds l else a.holds l := by
  rw [holds, get_flip]
  split
  · next h =>
    subst h
    rw [holds]
    cases a.get l.var <;> cases l.positive <;> rfl
  · rfl

/-- A flip takes a true literal away from a clause for each occurrence of the literal of
the variable that was true, and adds one for each occurrence of its negation. -/
lemma countP_flip (a : Assignment n) (v : Fin n) (c : Clause n) :
    c.countP (a.flip v).holds + c.count (a.literal v) =
      c.countP a.holds + c.count (a.literal v).negate := by
  induction c with
  | nil => simp
  | cons l c ih =>
      simp only [List.countP_cons, List.count_cons, beq_iff_eq, holds_flip, eq_literal_iff,
        eq_negate_literal_iff]
      by_cases hv : v = l.var <;> cases hl : a.holds l <;> simp [hv] at ih ⊢ <;> omega

/-- A true literal is among the true literals of a clause each time that it occurs. -/
lemma count_le_countP (a : Assignment n) {l : Literal n} (hl : a.holds l = true)
    (c : Clause n) : c.count l ≤ c.countP a.holds := by
  refine List.countP_mono_left fun k _ hk => ?_
  rwa [eq_of_beq hk]

end Assignment

namespace Index

/-! ### Steps of a flip -/

/-- The residual set of an index holds the clauses whose count is zero. -/
structure Balanced (x : Index n m) : Prop where
  /-- The set is well formed. -/
  wellFormed : x.residual.WellFormed
  /-- The members have the count zero, and so has no other clause. -/
  residual_iff : ∀ i, x.residual.contains (.ofFin i) = true ↔ x.trueCount.get i = 0

variable {x : Index n m}

/-- A clause with one true literal more: it leaves the residual set if it was in it. -/
lemma exists_gain (hx : x.Balanced) {c : Fin m} (hc : 0 ≤ x.trueCount.get c) :
    ∃ y, x.gain c = .ok y ∧ y.Balanced ∧ y.occurrences = x.occurrences ∧
      ∀ i, y.trueCount.get i = x.trueCount.get i + if c = i then 1 else 0 := by
  have hget : ∀ i, (x.trueCount.write c (x.trueCount.get c + 1)).get i =
      x.trueCount.get i + if c = i then 1 else 0 := by
    intro i
    rw [Table.get_write]
    split
    · next h => rw [h]
    · omega
  by_cases hone : x.trueCount.get c + 1 = 1
  · obtain ⟨r, hr, hwf, hmem⟩ :=
      ResidualSet.exists_remove? hx.wellFormed ((hx.residual_iff c).2 (by omega))
    have hgain : x.gain c =
        .ok ⟨x.occurrences, x.trueCount.write c (x.trueCount.get c + 1), r⟩ := by
      simp only [gain, if_pos hone, hr]
    refine ⟨_, hgain, ⟨hwf, fun i => ?_⟩, rfl, hget⟩
    rw [hmem, hx.residual_iff, hget]
    show c ≠ i ∧ _ ↔ _
    split
    · next h =>
      subst h
      simp only [ne_eq, not_true_eq_false, false_and, false_iff]
      omega
    · next h => simp [h]
  · have hgain : x.gain c =
        .ok ⟨x.occurrences, x.trueCount.write c (x.trueCount.get c + 1), x.residual⟩ := by
      simp only [gain, if_neg hone]
    refine ⟨_, hgain, ⟨hx.wellFormed, fun i => ?_⟩, rfl, hget⟩
    rw [hx.residual_iff, hget]
    split
    · next h =>
      subst h
      constructor <;> intro h0 <;> omega
    · simp

/-- A clause with one true literal less: it enters the residual set if it has none left. -/
lemma balanced_lose (hx : x.Balanced) {c : Fin m} (hc : 1 ≤ x.trueCount.get c) :
    (x.lose c).Balanced ∧
      ∀ i, (x.lose c).trueCount.get i = x.trueCount.get i - if c = i then 1 else 0 := by
  have hget : ∀ i, (x.lose c).trueCount.get i = x.trueCount.get i - if c = i then 1 else 0 := by
    intro i
    show (x.trueCount.write c (x.trueCount.get c - 1)).get i = _
    rw [Table.get_write]
    split
    · next h => rw [h]
    · omega
  refine ⟨?_, hget⟩
  by_cases hone : x.trueCount.get c = 1
  · have hres : (x.lose c).residual = x.residual.insert (.ofFin c) := if_pos hone
    refine ⟨hres ▸ ResidualSet.wellFormed_insert hx.wellFormed _, fun i => ?_⟩
    rw [hres, ResidualSet.contains_insert, hx.residual_iff, hget]
    show c = i ∨ _ ↔ _
    split
    · next h =>
      subst h
      simp only [true_or, true_iff]
      omega
    · next h => simp [h]
  · have hres : (x.lose c).residual = x.residual := if_neg hone
    refine ⟨hres ▸ hx.wellFormed, fun i => ?_⟩
    rw [hres, hx.residual_iff, hget]
    split
    · next h =>
      subst h
      constructor <;> intro h0 <;> omega
    · simp

/-- Where a flip adds true literals, every clause gains as many as it has occurrences. -/
lemma exists_foldlM_gain (hx : x.Balanced) (cs : List (Fin m))
    (hcs : ∀ i, 0 ≤ x.trueCount.get i) :
    ∃ y, cs.foldlM gain x = .ok y ∧ y.Balanced ∧ y.occurrences = x.occurrences ∧
      ∀ i, y.trueCount.get i = x.trueCount.get i + cs.count i := by
  induction cs generalizing x with
  | nil => exact ⟨x, rfl, hx, rfl, by simp⟩
  | cons c cs ih =>
      obtain ⟨y, hy, hbal, hocc, hcount⟩ := exists_gain hx (hcs c)
      have hnonneg : ∀ i, 0 ≤ y.trueCount.get i := by
        intro i
        have := hcs i
        rw [hcount]
        split <;> omega
      obtain ⟨z, hz, hbal', hocc', hcount'⟩ := ih hbal hnonneg
      refine ⟨z, ?_, hbal', hocc'.trans hocc, fun i => ?_⟩
      · rw [List.foldlM_cons, hy]
        exact hz
      · rw [hcount', hcount, List.count_cons]
        simp only [beq_iff_eq]
        split <;> omega

/-- Where a flip takes true literals away, every clause loses as many as it has
occurrences. None has fewer than that. -/
lemma balanced_foldl_lose (hx : x.Balanced) (cs : List (Fin m))
    (hcs : ∀ i, (cs.count i : Int) ≤ x.trueCount.get i) :
    (cs.foldl lose x).Balanced ∧ (cs.foldl lose x).occurrences = x.occurrences ∧
      ∀ i, (cs.foldl lose x).trueCount.get i = x.trueCount.get i - cs.count i := by
  induction cs generalizing x with
  | nil => exact ⟨hx, rfl, by simp⟩
  | cons c cs ih =>
      have hone : 1 ≤ x.trueCount.get c := by
        have := hcs c
        rw [List.count_cons_self] at this
        omega
      obtain ⟨hbal, hcount⟩ := balanced_lose hx hone
      have hrest : ∀ i, (cs.count i : Int) ≤ (x.lose c).trueCount.get i := by
        intro i
        have := hcs i
        rw [List.count_cons] at this
        rw [hcount]
        simp only [beq_iff_eq] at this
        split at this <;> split <;> omega
      obtain ⟨hbal', hocc', hcount'⟩ := ih hbal hrest
      refine ⟨hbal', hocc', fun i => ?_⟩
      rw [List.foldl_cons, hcount', hcount, List.count_cons]
      simp only [beq_iff_eq]
      split <;> omega

/-! ### The residual clauses of new counts -/

/-- The residual set of given counts holds the clauses whose count is zero. -/
lemma unsatisfied_spec (counts : Table m Int) :
    (unsatisfied counts).WellFormed ∧
      ∀ i, (unsatisfied counts).contains (.ofFin i) = true ↔ counts.get i = 0 := by
  have key : ∀ (is : List (Fin m)) (r : ResidualSet m), r.WellFormed →
      (is.foldl (fun r i => if counts.get i = 0 then r.insert (.ofFin i) else r) r).WellFormed ∧
      ∀ i, (is.foldl (fun r i => if counts.get i = 0 then r.insert (.ofFin i) else r) r).contains
          (.ofFin i) = true ↔ r.contains (.ofFin i) = true ∨ i ∈ is ∧ counts.get i = 0 := by
    intro is
    induction is with
    | nil =>
        intro r hr
        exact ⟨hr, by simp⟩
    | cons j is ih =>
        intro r hr
        rw [List.foldl_cons]
        split
        · next hj =>
          obtain ⟨hwf, hmem⟩ := ih _ (ResidualSet.wellFormed_insert hr (.ofFin j))
          refine ⟨hwf, fun i => ?_⟩
          rw [hmem, ResidualSet.contains_insert, List.mem_cons]
          show (j = i ∨ _) ∨ _ ↔ _
          constructor
          · rintro ((rfl | h) | h)
            · exact .inr ⟨.inl rfl, hj⟩
            · exact .inl h
            · exact .inr ⟨.inr h.1, h.2⟩
          · rintro (h | ⟨rfl | h, h0⟩)
            · exact .inl (.inr h)
            · exact .inl (.inl rfl)
            · exact .inr ⟨h, h0⟩
        · next hj =>
          obtain ⟨hwf, hmem⟩ := ih r hr
          refine ⟨hwf, fun i => ?_⟩
          rw [hmem, List.mem_cons]
          constructor
          · exact Or.imp_right fun h => ⟨.inr h.1, h.2⟩
          · rintro (h | ⟨rfl | h, h0⟩)
            · exact .inl h
            · exact absurd h0 hj
            · exact .inr ⟨h, h0⟩
  obtain ⟨hwf, hmem⟩ := key (List.finRange m) _ ResidualSet.wellFormed_empty
  refine ⟨hwf, fun i => ?_⟩
  rw [unsatisfied, hmem]
  simp [ResidualSet.contains, ResidualSet.empty]

/-! ### The index of clauses under an assignment -/

/-- An index says where the literals of clauses occur, how many literals of each clause
are true under an assignment, and which clauses have none. -/
structure Tracks (x : Index n m) (clauses : Table m (Clause n)) (a : Assignment n) : Prop
    extends Balanced x where
  /-- The clauses in which a literal occurs are listed in ascending order. -/
  occurrences_sorted : ∀ l, (x.occurrences.of l).Pairwise (· ≤ ·)
  /-- A clause is listed once for each occurrence of the literal in it. -/
  count_occurrences : ∀ l i, (x.occurrences.of l).count i = (clauses.get i).count l
  /-- The counts are those of the true literals. -/
  trueCount_eq : ∀ i, x.trueCount.get i = (clauses.get i).countP a.holds

/-- A new index tracks the clauses under the assignment that it is built for. -/
lemma tracks_build (clauses : Table m (Clause n)) (a : Assignment n) :
    (build clauses a).Tracks clauses a := by
  obtain ⟨hwf, hmem⟩ := unsatisfied_spec (trueCounts clauses a)
  refine ⟨⟨hwf, hmem⟩, Occurrences.pairwise_of_ofClauses clauses,
    Occurrences.count_of_ofClauses clauses, fun i => ?_⟩
  show (trueCounts clauses a).get i = _
  rw [trueCounts, Table.get_eq_getElem, Vector.getElem_map, Table.get_eq_getElem]

namespace Tracks

variable {x : Index n m} {clauses : Table m (Clause n)} {a : Assignment n}

/-- A clause is residual when none of its literals is true. -/
lemma contains_iff (hx : x.Tracks clauses a) (i : Fin m) :
    x.residual.contains (.ofFin i) = true ↔ ∀ l ∈ clauses.get i, a.holds l ≠ true := by
  rw [hx.residual_iff, hx.trueCount_eq, Int.natCast_eq_zero, List.countP_eq_zero]

/-- There is no residual clause when the assignment satisfies the clauses. -/
lemma isEmpty_iff (hx : x.Tracks clauses a) :
    x.residual.isEmpty = true ↔ a.Satisfies clauses.toList := by
  have hmem : ∀ c, c ∈ clauses.toList ↔ ∃ i : Fin m, clauses.get i = c := by
    intro c
    rw [Vector.mem_toList_iff, Vector.mem_iff_getElem]
    constructor
    · rintro ⟨i, hi, rfl⟩
      exact ⟨⟨i, hi⟩, rfl⟩
    · rintro ⟨i, rfl⟩
      exact ⟨i.val, i.isLt, rfl⟩
  rw [hx.wellFormed.isEmpty_iff]
  constructor
  · intro h c hc
    obtain ⟨i, rfl⟩ := (hmem c).1 hc
    have hi := h i
    rw [← Bool.not_eq_true, hx.contains_iff] at hi
    simpa using hi
  · intro h i
    rw [← Bool.not_eq_true, hx.contains_iff]
    simpa using h _ ((hmem _).2 ⟨i, rfl⟩)

/-- An index that has the counts for a flipped variable tracks the clauses after the
flip. -/
lemma of_flip (hx : x.Tracks clauses a) {y : Index n m} (v : Fin n) (hy : y.Balanced)
    (hocc : y.occurrences = x.occurrences)
    (hcount : ∀ i, y.trueCount.get i = x.trueCount.get i
      + (x.occurrences.of (a.literal v).negate).count i
      - (x.occurrences.of (a.literal v)).count i) :
    y.Tracks clauses (a.flip v) := by
  refine ⟨hy, hocc ▸ hx.occurrences_sorted, hocc ▸ hx.count_occurrences, fun i => ?_⟩
  have := a.countP_flip v (clauses.get i)
  rw [hcount, hx.trueCount_eq, hx.count_occurrences, hx.count_occurrences]
  omega

/-- No clause has a true literal more often than true literals. -/
lemma count_le_trueCount (hx : x.Tracks clauses a) (v : Fin n) (i : Fin m) :
    ((x.occurrences.of (a.literal v)).count i : Int) ≤ x.trueCount.get i := by
  rw [hx.trueCount_eq, hx.count_occurrences]
  exact Int.ofNat_le.2 (a.count_le_countP (a.holds_literal v) _)

/-- A flip succeeds, and the index tracks the clauses after it. -/
lemma exists_flip (hx : x.Tracks clauses a) (v : Fin n) :
    ∃ y, x.flip a v = .ok y ∧ y.Tracks clauses (a.flip v) := by
  have hnonneg : ∀ i, 0 ≤ x.trueCount.get i := fun i => hx.trueCount_eq i ▸ Int.natCast_nonneg _
  cases hv : a.get v with
  | true =>
      have hlit : x.occurrences.of (a.literal v) = x.occurrences.positive.get v := by
        simp [Occurrences.of, Assignment.literal, hv]
      have hneg : x.occurrences.of (a.literal v).negate = x.occurrences.negative.get v := by
        simp [Occurrences.of, Assignment.literal, Literal.negate, hv]
      obtain ⟨y, hy, hbal, hocc, hcount⟩ :=
        exists_foldlM_gain hx.toBalanced (x.occurrences.of (a.literal v).negate) hnonneg
      -- what has been gained only helps the clauses that lose literals
      obtain ⟨hbal', hocc', hcount'⟩ :=
        balanced_foldl_lose hbal (x.occurrences.of (a.literal v)) fun i => by
          have := hx.count_le_trueCount v i
          rw [hcount]
          omega
      refine ⟨_, ?_, hx.of_flip v hbal' (hocc'.trans hocc) fun i => by rw [hcount', hcount]⟩
      rw [flip, hv, if_pos rfl, ← hneg, hy, ← hlit]
      rfl
  | false =>
      have hlit : x.occurrences.of (a.literal v) = x.occurrences.negative.get v := by
        simp [Occurrences.of, Assignment.literal, hv]
      have hneg : x.occurrences.of (a.literal v).negate = x.occurrences.positive.get v := by
        simp [Occurrences.of, Assignment.literal, Literal.negate, hv]
      obtain ⟨hbal, hocc, hcount⟩ :=
        balanced_foldl_lose hx.toBalanced (x.occurrences.of (a.literal v))
          (hx.count_le_trueCount v)
      obtain ⟨y, hy, hbal', hocc', hcount'⟩ :=
        exists_foldlM_gain hbal (x.occurrences.of (a.literal v).negate) fun i => by
          have := hx.count_le_trueCount v i
          rw [hcount]
          omega
      refine ⟨y, ?_, hx.of_flip v hbal' (hocc'.trans hocc) fun i => ?_⟩
      · rw [flip, hv, if_neg (by simp), ← hlit, ← hneg, hy]
      · rw [hcount', hcount]
        omega

end Tracks

end Index

end LocalSat
