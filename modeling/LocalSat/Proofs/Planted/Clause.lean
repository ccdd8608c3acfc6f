/-
Clauses around a hidden assignment satisfy what they were made for.

* `IsPlanted hidden size c`: a clause has a size, different variables, and a literal that is
  true under the hidden assignment;
* `leads_signed`: whatever the coins show, one of the literals for some variables is true;
* `leads_plantedClauses`: there are as many clauses as were asked for, and all are planted.
-/
import LocalSat.Planted.Clause
import LocalSat.Proofs.Random.Sample
import LocalSat.Proofs.Satisfaction

namespace LocalSat

open PartialAssignment

/-- A clause has a given size, different variables out of those of the hidden assignment, and a
literal that is true under it. -/
structure IsPlanted (hidden : Array Bool) (size : Nat) (c : List Int) : Prop where
  /-- The size. -/
  length : c.length = size
  /-- The variables are different. -/
  nodup : (c.map Int.natAbs).Nodup
  /-- They are numbered from one on. -/
  range : ∀ l ∈ c, 1 ≤ l.natAbs ∧ l.natAbs ≤ hidden.size
  /-- A literal is true. -/
  holds : c.any (ofValues hidden).makesTrue = true

/-! ### Literals -/

/-- A literal may be exchanged for a true one of a variable that does not occur. -/
lemma IsPlanted.exchange {hidden : Array Bool} {size : Nat} {d : List Int} {j place : Nat}
    {l : Int} (h : IsPlanted hidden size d) (hl : d[j]? = some l) (hplace : place < hidden.size)
    (hnew : ∀ m ∈ d, m.natAbs ≠ place + 1) :
    IsPlanted hidden size (d.eraseIdx j ++ [numberAt place hidden[place]]) := by
  obtain ⟨hj, -⟩ := List.getElem?_eq_some_iff.1 hl
  have hsub : (d.eraseIdx j).Sublist d := List.eraseIdx_sublist d j
  refine ⟨?_, ?_, ?_, ?_⟩
  · rw [List.length_append, List.length_eraseIdx_of_lt hj, List.length_singleton, ← h.length]
    omega
  · rw [List.map_append, List.map_singleton, natAbs_numberAt, List.nodup_append]
    refine ⟨h.nodup.sublist (hsub.map _), by simp, ?_⟩
    rintro v hv _ hw rfl
    obtain ⟨m, hm, rfl⟩ := List.mem_map.1 hv
    exact hnew m (hsub.subset hm) (List.mem_singleton.1 hw)
  · rw [List.forall_mem_append, List.forall_mem_singleton, natAbs_numberAt]
    exact ⟨fun m hm => h.range m (hsub.subset hm), by omega⟩
  · have hvalue : hidden[place]? = some hidden[place] := Array.getElem?_eq_getElem hplace
    simp [makesTrue_numberAt hvalue]

/-! ### Drawn clauses -/

section

variable {γ : Type} [Sampler γ] {E : Fault → Prop}

/-- Values are drawn for as many variables as there are. -/
lemma leads_randomValues (hE : SamplesWithin γ E) (count : Nat) (g : γ) :
    Leads (randomValues count) g (fun values _ => values.length = count) fun e _ => E e := by
  induction count generalizing g with
  | zero => rfl
  | succ count ih =>
      rw [randomValues, leads_bind]
      refine (hE.index 2 g (by omega)).mono (fun _ g' _ => ?_) fun _ _ => id
      rw [leads_bind]
      refine (ih g').mono (fun values _ hvalues => ?_) fun _ _ => id
      exact congrArg (· + 1) hvalues

/-- So is a random assignment. -/
lemma leads_randomAssignment (hE : SamplesWithin γ E) (varCount : Nat) (g : γ) :
    Leads (randomAssignment varCount) g (fun values _ => values.length = varCount)
      fun e _ => E e := by
  rw [randomAssignment, if_neg (by omega), Int.toNat_natCast]
  exact leads_randomValues hE varCount g

/-- The literals for some variables are theirs in order. One of them is true, unless one before
them is. -/
lemma leads_signed (hE : SamplesWithin γ E) {hidden : Array Bool} (held : Bool) {vs : List Nat}
    (hvs : ∀ v ∈ vs, v < hidden.size) (g : γ) :
    Leads (signed hidden held vs) g
      (fun c _ => c.map Int.natAbs = vs.map (· + 1)
        ∧ (held = false → vs ≠ [] → c.any (ofValues hidden).makesTrue = true))
      fun e _ => E e := by
  induction vs generalizing held g with
  | nil => exact ⟨rfl, fun _ h => absurd rfl h⟩
  | cons v vs ih =>
      rw [List.forall_mem_cons] at hvs
      have hv : hidden[v]? = some hidden[v] := Array.getElem?_eq_getElem hvs.1
      rw [signed, leads_bind]
      refine (hE.coin 0.5 g).mono (fun heads g' _ => ?_) fun _ _ => id
      rw [hv]
      obtain ⟨holds, hholds⟩ : ∃ holds, holds = (heads || (vs.isEmpty && !held)) := ⟨_, rfl⟩
      show Leads (signed hidden (held || (heads || (vs.isEmpty && !held))) vs >>= _) g' _ _
      rw [← hholds, leads_bind]
      refine (ih (held || holds) hvs.2 g').mono ?_ fun _ _ => id
      rintro c _ ⟨hvars, hheld⟩
      have hliteral : (ofValues hidden).makesTrue (numberAt v (hidden[v] == holds)) = holds := by
        rw [makesTrue_numberAt hv]
        cases hidden[v] <;> cases holds <;> rfl
      refine ⟨by simp [hvars], fun hnone _ => ?_⟩
      rw [List.any_cons, hliteral]
      -- the last literal is true if none before it is
      cases hcase : holds with
      | true => rfl
      | false =>
          have hvs : vs ≠ [] := by
            rintro rfl
            simp [hnone, hcase] at hholds
          exact hheld (by rw [hnone, hcase]; rfl) hvs

/-- A clause that is drawn is planted. -/
lemma leads_plantedClause (hE : SamplesWithin γ E) {hidden : Array Bool} {size : Nat}
    (hsize : 1 ≤ size) (hhidden : size ≤ hidden.size) (g : γ) :
    Leads (plantedClause hidden size) g (fun c _ => IsPlanted hidden size c)
      fun e _ => E e := by
  rw [plantedClause, leads_bind]
  refine (hE.sample hidden.size size g hhidden).mono ?_ fun _ _ => id
  rintro places g' ⟨hlength, hnodup, hlt⟩
  refine (leads_signed hE false hlt g').mono ?_ fun _ _ => id
  rintro c _ ⟨hvars, hholds⟩
  have hmem : ∀ l ∈ c, ∃ v ∈ places, v + 1 = l.natAbs := by
    intro l hl
    have h := List.mem_map_of_mem (f := Int.natAbs) hl
    rwa [hvars, List.mem_map] at h
  refine ⟨?_, ?_, fun l hl => ?_, hholds rfl ?_⟩
  · rw [← List.length_map (f := Int.natAbs), hvars, List.length_map, hlength]
  · rw [hvars]
    exact List.Pairwise.map _ (fun _ _ hne h => hne (Nat.succ.inj h)) hnodup
  · obtain ⟨v, hv, heq⟩ := hmem l hl
    have := hlt v hv
    omega
  · rintro rfl
    simp at hlength
    omega

/-- There are as many clauses as were asked for, and all of them are planted. -/
lemma leads_plantedClauses (hE : SamplesWithin γ E) {hidden : Array Bool} {size : Nat}
    (hsize : 1 ≤ size) (hhidden : size ≤ hidden.size) (count : Nat) (g : γ) :
    Leads (plantedClauses hidden size count) g
      (fun cs _ => cs.length = count ∧ ∀ c ∈ cs, IsPlanted hidden size c) fun e _ => E e := by
  induction count generalizing g with
  | zero => exact ⟨rfl, by simp⟩
  | succ count ih =>
      rw [plantedClauses, leads_bind]
      refine (leads_plantedClause hE hsize hhidden g).mono (fun c g' hc => ?_) fun _ _ => id
      rw [leads_bind]
      refine (ih g').mono ?_ fun _ _ => id
      rintro cs _ ⟨hlength, hcs⟩
      exact ⟨congrArg (· + 1) hlength, List.forall_mem_cons.2 ⟨hc, hcs⟩⟩

end

end LocalSat
