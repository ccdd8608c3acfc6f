/-
The choice of a flip among the candidates of a clause.

* `sublist_of_leastBreaking`, `leastBreaking_ne_nil`: the candidates that break least are
  candidates, and there are some when no count is above the bound that the comparison
  starts from;
* `exists_tiesOf`, `leads_move`: what the two policies are made of;
* `leads_chooseFlip`: under both policies the choice is a candidate, and fails only as the
  source does.
-/
import LocalSat.Proofs.Random.Faults
import LocalSat.Search.Choice

namespace LocalSat

variable {γ : Type} [RandomSource γ] {α : Type}

section

variable {breaks : α → Nat → Except Fault Nat} {least : Nat} {ties vs : List α} {w : α}

/-- The comparison fails where counting does. -/
lemma leastBreaking_of_error {e : Fault} (h : breaks w least = .error e) :
    leastBreaking breaks least ties (w :: vs) = .error e := by
  rw [leastBreaking, h]
  rfl

/-- The comparison goes on with the next candidate alone, with it too, or without it. -/
lemma leastBreaking_of_ok {j : Nat} (h : breaks w least = .ok j) :
    leastBreaking breaks least ties (w :: vs) =
      if j < least then leastBreaking breaks j [w] vs
      else if j = least then leastBreaking breaks least (ties ++ [w]) vs
      else leastBreaking breaks least ties vs := by
  rw [leastBreaking, h]
  rfl

end

/-- The candidates that break least are some of the candidates, in order. -/
lemma sublist_of_leastBreaking {breaks : α → Nat → Except Fault Nat} {least k : Nat}
    {ties found vs : List α} (h : leastBreaking breaks least ties vs = .ok (k, found)) :
    found.Sublist (ties ++ vs) := by
  induction vs generalizing least ties with
  | nil =>
      cases h
      simp
  | cons w vs ih =>
      cases hw : breaks w least with
      | error e =>
          rw [leastBreaking_of_error hw] at h
          cases h
      | ok j =>
          rw [leastBreaking_of_ok hw] at h
          split at h
          · exact (ih h).trans (List.sublist_append_right ties (w :: vs))
          split at h
          · simpa using ih h
          · exact (ih h).trans ((List.sublist_cons_self w vs).append_left ties)

/-- The candidates that break least are among the candidates. -/
lemma mem_of_leastBreaking {breaks : α → Nat → Except Fault Nat} {least k : Nat}
    {ties found vs : List α} (h : leastBreaking breaks least ties vs = .ok (k, found)) :
    ∀ v ∈ found, v ∈ ties ∨ v ∈ vs :=
  fun _ hv => List.mem_append.1 ((sublist_of_leastBreaking h).subset hv)

/-- When counting never fails, the candidates that break least are found. -/
lemma exists_leastBreaking {breaks : α → Nat → Except Fault Nat}
    (hok : ∀ v k, ∃ j, breaks v k = .ok j) (least : Nat) (ties vs : List α) :
    ∃ k found, leastBreaking breaks least ties vs = .ok (k, found) := by
  induction vs generalizing least ties with
  | nil => exact ⟨least, ties, rfl⟩
  | cons v vs ih =>
      obtain ⟨j, hj⟩ := hok v least
      rw [leastBreaking_of_ok hj]
      split
      · exact ih j [v]
      split
      · exact ih least (ties ++ [v])
      · exact ih least ties

/-- There are candidates that break least when there were some before, or when the first
candidate does not break more than is known so far. -/
lemma leastBreaking_ne_nil {breaks : α → Nat → Except Fault Nat} {least k : Nat}
    {ties found vs : List α} (h : leastBreaking breaks least ties vs = .ok (k, found))
    (hne : ties ≠ [] ∨ ∃ v ∈ vs.head?, ∃ j ≤ least, breaks v least = .ok j) :
    found ≠ [] := by
  induction vs generalizing least ties with
  | nil =>
      cases h
      simpa using hne
  | cons w vs ih =>
      cases hw : breaks w least with
      | error e =>
          rw [leastBreaking_of_error hw] at h
          cases h
      | ok j =>
          rw [leastBreaking_of_ok hw] at h
          split at h
          · exact ih h (.inl (by simp))
          split at h
          · exact ih h (.inl (by simp))
          · next hlt heq =>
            refine ih h (.inl ?_)
            rcases hne with hties | ⟨v, hv, i, hi, hvi⟩
            · exact hties
            · obtain rfl : w = v := by simpa using hv
              rw [hw] at hvi
              cases hvi
              omega

/-- When counting never fails and no candidate breaks more than the bound to start from,
there are candidates that break least, and finding them asks nothing of the source. -/
lemma exists_tiesOf (γ : Type) {breaks : α → Nat → Except Fault Nat} {start : Nat}
    {candidates : List α} (hne : candidates ≠ []) (hok : ∀ v k, ∃ j, breaks v k = .ok j)
    (hstart : ∀ v, ∃ j ≤ start, breaks v start = .ok j) :
    ∃ k ties, (∀ g : γ, tiesOf breaks start candidates g = .ok (k, ties) g)
      ∧ ties ≠ [] ∧ ∀ v ∈ ties, v ∈ candidates := by
  obtain ⟨k, ties, hties⟩ := exists_leastBreaking hok start [] candidates
  refine ⟨k, ties, fun g => ?_, ?_, fun v hv => ?_⟩
  · rw [tiesOf, hties]
    rfl
  · refine leastBreaking_ne_nil hties (.inr ?_)
    obtain ⟨v, vs, rfl⟩ := List.exists_cons_of_ne_nil hne
    exact ⟨v, rfl, hstart v⟩
  · simpa using mem_of_leastBreaking hties v hv

/-- A move that is chosen among some of the candidates is a candidate. -/
lemma leads_move {E : Fault → Prop} (hE : FaultsWithin γ E) {members candidates : List α}
    (hne : members ≠ []) (hsub : ∀ v ∈ members, v ∈ candidates) (move : Move) (g : γ) :
    Leads (do
      let v ← RandomSource.pickMember members
      pure (v, move)) g (fun chosen _ => chosen.1 ∈ candidates) fun e _ => E e := by
  rw [leads_bind]
  refine ((mem_of_pickMember members g).and (hE.member members g hne)).mono ?_ ?_
  · exact fun v _ h => hsub v h.1
  · exact fun e _ h => h.2

/-- A move that breaks nothing is a candidate, also when there is just one. -/
lemma leads_zeroBreakMove {E : Fault → Prop} (hE : FaultsWithin γ E)
    {ties candidates : List α} (hne : ties ≠ []) (hsub : ∀ v ∈ ties, v ∈ candidates) (g : γ) :
    Leads (zeroBreakMove ties) g (fun chosen _ => chosen.1 ∈ candidates) fun e _ => E e := by
  obtain _ | ⟨v, _ | ⟨w, vs⟩⟩ := ties
  · exact absurd rfl hne
  · exact hsub v List.mem_cons_self
  · exact leads_move hE hne hsub .zeroBreak g

/-- The choice of a flip is a candidate. It fails with the faults of the source only, when
there are candidates and none breaks more than the bound to start from. -/
lemma leads_chooseFlip {E : Fault → Prop} (hE : FaultsWithin γ E) (policy : Policy)
    {breaks : α → Nat → Except Fault Nat} {start : Nat} {candidates : List α}
    (hne : candidates ≠ []) (hok : ∀ v k, ∃ j, breaks v k = .ok j)
    (hstart : ∀ v, ∃ j ≤ start, breaks v start = .ok j) (g : γ) :
    Leads (chooseFlip policy breaks start candidates) g
      (fun chosen _ => chosen.1 ∈ candidates) fun e _ => E e := by
  obtain ⟨k, ties, hties, htiesne, hmem⟩ := exists_tiesOf γ hne hok hstart
  have hnoise : ∀ g : γ, Leads (noiseMove candidates) g
      (fun chosen _ => chosen.1 ∈ candidates) fun e _ => E e :=
    leads_move hE hne (fun _ => id) .noise
  have hgreedy : ∀ g : γ, Leads (greedyMove ties) g
      (fun chosen _ => chosen.1 ∈ candidates) fun e _ => E e :=
    leads_move hE htiesne hmem .greedy
  rw [chooseFlip, leads_ite]
  split
  · rw [leads_bind, leads_of_ok (hties g)]
    show Leads (if k = 0 then zeroBreakMove ties else _) g _ _
    rw [leads_ite]
    split
    · exact leads_zeroBreakMove hE htiesne hmem g
    · rw [leads_bind]
      refine (hE.coin policy.noise g).mono (fun heads g' _ => ?_) fun _ _ => id
      rw [leads_ite]
      split
      · exact hnoise g'
      · exact hgreedy g'
  · rw [leads_bind]
    refine (hE.coin policy.noise g).mono (fun heads g' _ => ?_) fun _ _ => id
    rw [leads_ite]
    split
    · exact hnoise g'
    · rw [leads_bind, leads_of_ok (hties g')]
      exact hgreedy g'

end LocalSat
