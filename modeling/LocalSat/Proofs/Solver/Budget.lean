/-
Searches within a budget of flips.

* `searchFor_of_unsat_eq_zero`, `searchFor_zero`, `searchFor_succ`: what a search does where no
  clause is residual, and where some clause is;
* `leads_step_counters`: a step counts one flip;
* `EndedWithin`: a search has ended without a residual clause and within its budget, or with
  one and with its whole budget used; `leads_searchFor_endedWithin`, `leads_search_endedWithin`;
* `searchFor_add`: a search can be stopped after any number of flips and taken up again;
* `search_search`: a search with a smaller budget beforehand changes nothing;
* `leads_searchFor_trace`: a search only adds to the record.
-/
import LocalSat.Proofs.Solver.Search

namespace LocalSat.Solver

variable {n : Nat} {γ : Type}

/-! ### Residual clauses -/

/-- Where there is a search, the residual set is empty if no clause is residual. -/
lemma isEmpty_eq {s : Solver n γ} {x : Sigma (Index n)} (hx : s.index = some x) :
    x.2.residual.isEmpty = decide (s.unsat = 0) := by
  rw [unsat, hx]
  rfl

/-- Where a clause is residual, there is a search. -/
lemma isSome_index_of_unsat {s : Solver n γ} (h : 0 < s.unsat) : s.index.isSome = true := by
  rw [unsat] at h
  split at h
  · next x hx => rw [hx, Option.isSome_some]
  · cases h

variable [RandomSource γ]

/-- Without a search there is nothing to go on with. -/
lemma searchFor_of_none {s : Solver n γ} (h : s.index = none) (left : Nat) :
    searchFor left s = .error .notInitialised s := by
  cases left <;> rw [searchFor, get_bind_run, h] <;> rfl

/-- Where no clause is residual, a search has ended. -/
lemma searchFor_of_unsat_eq_zero {s : Solver n γ} (hs : s.index.isSome = true)
    (h : s.unsat = 0) (left : Nat) : searchFor left s = .ok .satisfied s := by
  obtain ⟨x, hx⟩ := Option.isSome_iff_exists.1 hs
  have hempty : x.2.residual.isEmpty = true := by simp [isEmpty_eq hx, h]
  cases left <;> rw [searchFor, get_bind_run, hx] <;> simp only [hempty, if_true] <;> rfl

/-- Where a clause is residual, a search without flips gives up. -/
lemma searchFor_zero {s : Solver n γ} (h : 0 < s.unsat) :
    searchFor 0 s = .ok .exhausted s := by
  obtain ⟨x, hx⟩ := Option.isSome_iff_exists.1 (isSome_index_of_unsat h)
  have hempty : x.2.residual.isEmpty = false := by simp [isEmpty_eq hx, h.ne']
  rw [searchFor, get_bind_run, hx]
  simp only [hempty]
  rfl

/-- Where a clause is residual, a search with flips left makes a step and goes on. -/
lemma searchFor_succ {s : Solver n γ} (h : 0 < s.unsat) (left : Nat) :
    searchFor (left + 1) s = (step >>= fun _ => searchFor left) s := by
  obtain ⟨x, hx⟩ := Option.isSome_iff_exists.1 (isSome_index_of_unsat h)
  have hempty : x.2.residual.isEmpty = false := by simp [isEmpty_eq hx, h.ne']
  rw [searchFor, get_bind_run, hx]
  simp only [hempty]
  rfl

omit [RandomSource γ] in
/-- There is no search, or one without a residual clause, or one with a residual clause. -/
lemma search_cases (s : Solver n γ) :
    s.index = none ∨ (s.index.isSome = true ∧ s.unsat = 0) ∨ 0 < s.unsat := by
  cases hx : s.index with
  | none => exact .inl rfl
  | some x => exact .inr ((Nat.eq_zero_or_pos s.unsat).imp_left fun h => ⟨rfl, h⟩)

/-! ### The number of flips -/

/-- A step counts one flip. -/
lemma leads_step_counters (s : Solver n γ) :
    Leads step s (fun _ t => ∃ move, t.counters = s.counters.add move) fun _ _ => True := by
  refine (leads_step_moved s).mono ?_ fun _ _ _ => trivial
  rintro _ _ ⟨g, a, x, v, move, r, -, rfl⟩
  exact ⟨move, rfl⟩

omit [RandomSource γ] in
/-- Whatever its kind, one more flip is one more. -/
@[simp] lemma flips_add (c : Counters) (move : Move) : (c.add move).flips = c.flips + 1 := by
  cases move <;> rfl

/-- How a search has ended: without a residual clause and within its budget, or with one
and with the whole budget used. -/
def EndedWithin (t : Solver n γ) (budget : Int) : Status → Prop
  | .satisfied => t.index.isSome = true ∧ t.unsat = 0 ∧ (t.counters.flips : Int) ≤ budget
  | .exhausted => 0 < t.unsat ∧ (t.counters.flips : Int) = budget
  | .contradiction => False
  | .undefined => False

omit [RandomSource γ] in
/-- How a search has ended depends on its index and its flips. -/
lemma EndedWithin.congr {s t : Solver n γ} {budget : Int} {status : Status}
    (h : s.EndedWithin budget status) (hx : t.index = s.index)
    (hc : t.counters = s.counters) : t.EndedWithin budget status := by
  have hunsat : t.unsat = s.unsat := by rw [unsat, unsat, hx]
  cases status with
  | satisfied => rwa [EndedWithin, hx, hunsat, hc]
  | exhausted => rwa [EndedWithin, hunsat, hc]
  | contradiction => exact h
  | undefined => exact h

/-- However long a search is, it ends within the flips that are left. -/
lemma leads_searchFor_endedWithin (left : Nat) (s : Solver n γ) :
    Leads (searchFor left) s (fun status t => t.EndedWithin (s.counters.flips + left) status)
      fun _ _ => True := by
  induction left generalizing s with
  | zero =>
      obtain h | ⟨hs, h⟩ | h := search_cases s
      · exact (leads_of_error (searchFor_of_none h 0)).2 trivial
      · exact (leads_of_ok (searchFor_of_unsat_eq_zero hs h 0)).2 ⟨hs, h, by simp⟩
      · exact (leads_of_ok (searchFor_zero h)).2 ⟨h, by simp⟩
  | succ left ih =>
      obtain h | ⟨hs, h⟩ | h := search_cases s
      · exact (leads_of_error (searchFor_of_none h _)).2 trivial
      · exact (leads_of_ok (searchFor_of_unsat_eq_zero hs h _)).2 ⟨hs, h, by omega⟩
      · rw [Leads, searchFor_succ h]
        refine leads_bind.2 ((leads_step_counters s).mono ?_ fun _ _ => id)
        rintro _ t ⟨move, hmove⟩
        have hbudget : (s.counters.flips : Int) + (left + 1 : Nat) = t.counters.flips + left := by
          rw [hmove, flips_add]
          omega
        rw [hbudget]
        exact ih t

/-- A search ends within its budget, if there have been no more flips before it. -/
lemma leads_search_endedWithin {s : Solver n γ} {maxFlips : Int}
    (h : (s.counters.flips : Int) ≤ maxFlips) :
    Leads (search maxFlips) s (fun status t => t.EndedWithin maxFlips status)
      fun _ _ => True := by
  have hbudget :
      (s.counters.flips : Int) + (maxFlips - s.counters.flips).toNat = maxFlips := by omega
  have hsearch := leads_searchFor_endedWithin (maxFlips - s.counters.flips).toNat s
  rw [hbudget] at hsearch
  rwa [search, leads_bind, leads_get]

/-! ### Searches in parts -/

/-- A search can be stopped after any number of flips and taken up again. -/
lemma searchFor_add (first rest : Nat) : (searchFor (first + rest) : Action n γ Status) = (do
    let _ ← searchFor first
    searchFor rest) := by
  funext s
  induction first generalizing s with
  | zero =>
      rw [Nat.zero_add]
      obtain h | ⟨hs, h⟩ | h := search_cases s
      · rw [bind_run_of_error (searchFor_of_none h 0), searchFor_of_none h]
      · rw [bind_run_of_ok (searchFor_of_unsat_eq_zero hs h 0)]
      · rw [bind_run_of_ok (searchFor_zero h)]
  | succ first ih =>
      rw [Nat.add_right_comm]
      obtain h | ⟨hs, h⟩ | h := search_cases s
      · rw [bind_run_of_error (searchFor_of_none h _), searchFor_of_none h]
      · rw [bind_run_of_ok (searchFor_of_unsat_eq_zero hs h _),
          searchFor_of_unsat_eq_zero hs h, searchFor_of_unsat_eq_zero hs h]
      · rw [searchFor_succ h]
        cases hstep : step s with
        | error e t =>
            have hfirst : searchFor (first + 1) s = .error e t := by
              rw [searchFor_succ h, bind_run_of_error hstep]
            rw [bind_run_of_error hstep, bind_run_of_error hfirst]
        | ok a t =>
            have hfirst : searchFor (first + 1) s = searchFor first t := by
              rw [searchFor_succ h, bind_run_of_ok hstep]
            rw [bind_run_of_ok hstep, ih t]
            exact bind_run_congr (fun _ => searchFor rest) hfirst.symm

/-- **A search with a smaller budget beforehand changes nothing.** Neither the answer nor the
state that is reached depends on it, nor the fault if there is one. -/
lemma search_search {few many : Int} (h : few ≤ many) :
    (search many : Action n γ Status) = (do
      let _ ← search few
      search many) := by
  funext s
  have hrun : ∀ (t : Solver n γ) (budget : Int),
      search budget t = searchFor (budget - t.counters.flips).toNat t := fun _ _ => rfl
  have hsplit : (many - s.counters.flips).toNat = (few - s.counters.flips).toNat
      + ((many - s.counters.flips).toNat - (few - s.counters.flips).toNat) := by omega
  rw [hrun, hsplit, searchFor_add]
  cases hfirst : searchFor (few - s.counters.flips).toNat s with
  | error e t =>
      have hfew : search few s = .error e t := hfirst
      rw [bind_run_of_error hfirst, bind_run_of_error hfew]
  | ok status t =>
      have hfew : search few s = .ok status t := hfirst
      rw [bind_run_of_ok hfirst, bind_run_of_ok hfew, hrun]
      have hended := (leads_searchFor_endedWithin _ s).ok hfirst
      cases status with
      | satisfied =>
          obtain ⟨ht, hzero, -⟩ := hended
          rw [searchFor_of_unsat_eq_zero ht hzero, searchFor_of_unsat_eq_zero ht hzero]
      | exhausted =>
          obtain ⟨-, hflips⟩ := hended
          congr 1
          omega
      | contradiction => exact hended.elim
      | undefined => exact hended.elim

/-- A search that has found an assignment is over, whatever the budget is. -/
lemma search_of_satisfied {s t : Solver n γ} {few : Int}
    (h : search few s = .ok .satisfied t) (many : Int) :
    search many t = .ok .satisfied t := by
  have hfew : searchFor (few - s.counters.flips).toNat s = .ok .satisfied t := h
  obtain ⟨ht, hzero, -⟩ := (leads_searchFor_endedWithin _ s).ok hfew
  exact searchFor_of_unsat_eq_zero ht hzero _

/-! ### Records -/

omit [RandomSource γ] in
/-- If there is a record, a flip is recorded after those before it. -/
lemma toList_trace_moved (s : Solver n γ) (g : γ) (a : Assignment n) (x : Sigma (Index n))
    (v : Fin n) (move : Move) :
    (s.moved g a x v move).trace.toList =
      if s.options.recordTrace then s.trace.toList ++ [⟨move, (a.flip v).literal v⟩]
      else s.trace.toList := by
  simp only [moved, recorded]
  split
  · exact Array.toList_push
  · rfl

omit [RandomSource γ] in
/-- A flip only adds to the record. -/
lemma trace_moved (s : Solver n γ) (g : γ) (a : Assignment n) (x : Sigma (Index n))
    (v : Fin n) (move : Move) :
    s.trace.toList <+: (s.moved g a x v move).trace.toList := by
  rw [toList_trace_moved]
  split
  · exact List.prefix_append ..
  · exact List.prefix_rfl

/-- A search only adds to the record, however it ends. -/
lemma leads_searchFor_trace (left : Nat) (s : Solver n γ) :
    Leads (searchFor left) s (fun _ t => s.trace.toList <+: t.trace.toList)
      fun _ t => s.trace.toList <+: t.trace.toList := by
  refine leads_searchFor_keeps (P := fun t => s.trace.toList <+: t.trace.toList)
    (fun {t} ht => ?_) left List.prefix_rfl
  refine (leads_step_moved t).mono ?_ ?_
  · rintro _ _ ⟨g, a, x, v, move, r, -, rfl⟩
    exact ht.trans (trace_moved t g a x v move)
  · rintro _ _ (⟨g, rfl⟩ | ⟨g, a, x, v, move, -, rfl⟩)
    · exact ht
    · exact ht.trans (trace_moved t g a x v move)

end LocalSat.Solver
