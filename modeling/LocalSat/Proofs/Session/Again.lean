/-
Simplifications before a solve.

* `Repassed k s t`: there were `k` more passes in `t`, and its report is free;
  `parallel_repassed`: two such solvers go alike;
* `repassed_run`: clauses that cannot be reduced only take more passes, one for each
  simplification;
* `Repeats k x y`: the result `y` of a solve is the result `x` after `k` more passes;
  `solve_repeats`: a solve goes alike after any number of simplifications.
-/
import LocalSat.Proofs.Propagation.Repeat
import LocalSat.Proofs.Session.Basic
import LocalSat.Proofs.Solver.Parallel

namespace LocalSat.Solver

variable {n : Nat} {γ : Type}

/-- The second of two solvers has had `k` more passes, and may have another report. -/
def Repassed (k : Nat) (s t : Solver n γ) : Prop :=
  ∃ r, t = { s with rounds := s.rounds + k, report := r }

section

variable {k : Nat} {s t u : Solver n γ}

/-- Nothing has happened without a pass. -/
lemma Repassed.refl (s : Solver n γ) : Repassed 0 s s := ⟨s.report, rfl⟩

/-- Passes add up. -/
lemma Repassed.trans {j : Nat} (h : Repassed j s t) (h' : Repassed k t u) :
    Repassed (j + k) s u := by
  obtain ⟨r, rfl⟩ := h
  obtain ⟨r', rfl⟩ := h'
  exact ⟨r', by rw [Nat.add_assoc]⟩

/-- Two such solvers stay so under a change that touches neither the passes nor the report. -/
lemma Repassed.map {f : Solver n γ → Solver n γ} (h : Repassed k s t)
    (hf : ∀ r, f { s with rounds := s.rounds + k, report := r }
      = { f s with rounds := (f s).rounds + k, report := r }) : Repassed k (f s) (f t) := by
  obtain ⟨r, rfl⟩ := h
  exact ⟨r, hf r⟩

/-- Such solvers go alike. -/
lemma parallel_repassed (k : Nat) :
    Parallel (Repassed k : Solver n γ → Solver n γ → Prop) where
  same := by
    rintro s _ ⟨r, rfl⟩
    exact ⟨rfl, rfl, rfl, rfl, rfl, rfl, rfl⟩
  reporting := by
    rintro s _ ⟨r, rfl⟩
    rfl
  checks := by
    rintro s _ ⟨r, rfl⟩
    exact ⟨rfl, rfl⟩
  source source h := h.map (f := fun s => { s with source }) fun _ => rfl
  values values h := h.map (f := fun s => { s with values }) fun _ => rfl
  index index h := h.map (f := fun s => { s with index }) fun _ => rfl
  started a source h := h.map (f := fun s => s.started a source) fun _ => rfl
  recorded v move h := h.map (f := fun s => s.recorded v move) fun _ => rfl
  report := by
    rintro s _ r r' ⟨_, rfl⟩
    exact ⟨r', rfl⟩
  model model h := h.map (f := fun s => { s with model }) fun _ => rfl
  status status h := h.map (f := fun s => { s with status }) fun _ => rfl

/-- Unit propagation on clauses that cannot be reduced is one more pass. -/
lemma repassed_simplified (hok : s.ok = true) (h : Irreducible s.forced s.clauses.toList)
    (loud : Bool) : Repassed 1 s (s.simplified loud) := by
  refine ⟨(s.simplified loud).report, ?_⟩
  simp only [simplified]
  rw [propagate_of_irreducible h]
  simp only [List.length_singleton, Array.toArray_toList, ← hok]

end

/-! ### Many simplifications -/

variable [RandomSource γ]

/-- The state after a simplification is the one that it reaches. -/
lemma after_simplify (s : Solver n γ) : s.after .simplify = reached (simplify s) := by
  have hperform : Request.simplify.perform s = (simplify >>= fun _ => pure ()) s := rfl
  rw [after, hperform]
  cases hs : simplify s with
  | ok b t => rw [bind_run_of_ok hs]; rfl
  | error e t => rw [bind_run_of_error hs]; rfl

/-- Refuted clauses stay as they are. -/
lemma run_simplify_of_refuted {s : Solver n γ} (h : s.ok = false) (k : Nat) :
    s.run (List.replicate k .simplify) = s := by
  refine run_induction (P := fun t => t = s) (fun r hr t ht => ?_) rfl
  obtain rfl := List.eq_of_mem_replicate hr
  rw [after_simplify, ht, simplify_of_refuted h]
  rfl

omit [RandomSource γ] in
/-- It is known whether to report at a level if the level of the report is a number. -/
lemma exists_reports {s : Solver n γ} (h : s.verbosity.isSome = true) (level : Int) :
    ∃ loud, s.reports level = .ok loud := by
  obtain ⟨x, hx⟩ := Option.isSome_iff_exists.1 h
  exact ⟨_, by rw [reports, hx]⟩

/-- The first of many simplifications. -/
lemma run_simplify_succ {s : Solver n γ} (hok : s.ok = true) {loud : Bool}
    (hloud : s.reports 2 = .ok loud) (k : Nat) :
    s.run (List.replicate (k + 1) .simplify)
      = (s.simplified loud).run (List.replicate k .simplify) := by
  have hafter : s.after .simplify = s.simplified loud := by
    rw [after_simplify, simplify_of_ok hok, hloud]
    rfl
  calc s.run (List.replicate (k + 1) .simplify)
      = (s.after .simplify).run (List.replicate k .simplify) := by
        rw [List.replicate_succ]
        rfl
    _ = (s.simplified loud).run (List.replicate k .simplify) := by rw [hafter]

/-- Clauses that cannot be reduced only take one more pass for each simplification. -/
lemma repassed_run {s : Solver n γ} (hlevel : s.verbosity.isSome = true) (hok : s.ok = true)
    (h : Irreducible s.forced s.clauses.toList) (k : Nat) :
    Repassed k s (s.run (List.replicate k .simplify)) := by
  induction k generalizing s with
  | zero => exact .refl s
  | succ k ih =>
      obtain ⟨loud, hloud⟩ := exists_reports hlevel 2
      have hfirst : Repassed 1 s (s.simplified loud) := repassed_simplified hok h loud
      have hrest : Repassed k (s.simplified loud)
          ((s.simplified loud).run (List.replicate k .simplify)) := by
        obtain ⟨r, hr⟩ := hfirst
        rw [hr]
        exact ih hlevel hok h
      rw [run_simplify_succ hok hloud, Nat.add_comm]
      exact hfirst.trans hrest

/-- The end of a solve goes alike after more passes over clauses that are not refuted, and does
not answer that they are. -/
lemma leads_concluded_repassed {k : Nat} {s t : Solver n γ} (h : Repassed k s t)
    (hok : s.ok = true) :
    Leads concluded s
      (fun status u => status ≠ .contradiction
        ∧ ∃ v, concluded t = .ok status v ∧ Repassed k u v)
      fun e u => ∃ v, concluded t = .error e v ∧ Repassed k u v := by
  have hagree : Agree (Repassed k) concluded concluded s t := by
    refine (parallel_repassed k).concluded h ?_ ?_ ?_
    · obtain ⟨r, rfl⟩ := h
      rfl
    · exact h.map fun _ => rfl
    · rintro u _ ⟨r, rfl⟩
      rfl
  have hanswer : Leads concluded s (fun status _ => status ≠ .contradiction)
      fun _ _ => True := by
    refine leads_concluded_of (fun _ => gives_solveSearch s) fun hrefuted => ?_
    rw [hok] at hrefuted
    cases hrefuted
  exact (Leads.and hagree hanswer).mono (fun _ _ hu => ⟨hu.2, hu.1⟩) fun _ _ hu => hu.1

/-- A solve after a pass does not simplify. -/
lemma solve_of_passed {s : Solver n γ} (h : s.rounds ≠ 0) :
    solve s = concluded { s with model := none } := by
  rw [solve_eq]
  show (if s.rounds = 0 then _ else _ : Action n γ Status) { s with model := none } = _
  rw [if_neg h]

/-- The first solve simplifies. -/
lemma solve_of_unpassed {s : Solver n γ} (h : s.rounds = 0) (hok : s.ok = true) {loud : Bool}
    (hloud : s.reports 2 = .ok loud) :
    solve s = concluded { s.simplified loud with model := none } := by
  have hfirst : simplify { s with model := none }
      = .ok (s.simplified loud).ok { s.simplified loud with model := none } := by
    have hreports : reports { s with model := none } 2 = .ok loud := hloud
    rw [simplify_of_ok (s := { s with model := none }) hok, hreports]
    rfl
  rw [solve_eq]
  show (if s.rounds = 0 then _ else _ : Action n γ Status) { s with model := none } = _
  rw [if_pos h, bind_run_of_ok hfirst]

/-- The second of two results of solves is the first one after `k` more passes. If the clauses
are refuted, there were no more. -/
def Repeats (k : Nat) : EStateM.Result Fault (Solver n γ) Status →
    EStateM.Result Fault (Solver n γ) Status → Prop
  | .ok status t, .ok status' u =>
      status' = status ∧ Repassed (if status = .contradiction then 0 else k) t u
  | .error e t, .error e' u => e' = e ∧ Repassed k t u
  | _, _ => False

omit [RandomSource γ] in
/-- What is the same as an answer is this answer. -/
lemma Repeats.exists_ok {k : Nat} {status : Status} {t : Solver n γ}
    {y : EStateM.Result Fault (Solver n γ) Status} (h : Repeats k (.ok status t) y) :
    ∃ u, y = .ok status u ∧ Repassed (if status = .contradiction then 0 else k) t u := by
  cases y with
  | ok status' u =>
      obtain ⟨rfl, htu⟩ := h
      exact ⟨u, rfl, htu⟩
  | error e u => exact h.elim

/-- A solve of refuted clauses does not depend on passes. -/
lemma repeats_of_refuted {s : Solver n γ} (h : s.ok = false) (k : Nat) :
    Repeats k (solve s) (solve s) := by
  obtain ⟨status, t, ht, rfl, -⟩ := (leads_solve_of_refuted h).exists_ok
  rw [ht]
  exact ⟨rfl, .refl t⟩

/-- A solve after more passes over clauses that are not refuted. -/
lemma repeats_of_repassed {k : Nat} {s t : Solver n γ} (h : Repassed k s t) (hok : s.ok = true)
    (hr : s.rounds ≠ 0) : Repeats k (solve s) (solve t) := by
  have hr' : t.rounds ≠ 0 := by
    obtain ⟨r, rfl⟩ := h
    exact Nat.ne_of_gt (Nat.add_pos_left (Nat.pos_of_ne_zero hr) k)
  have hend := leads_concluded_repassed (h.map (f := fun s => { s with model := none })
    fun _ => rfl) hok
  rw [solve_of_passed hr, solve_of_passed hr']
  cases hs : concluded { s with model := none } with
  | ok status u =>
      obtain ⟨hne, v, hv, huv⟩ := hend.ok hs
      rw [hv]
      exact ⟨rfl, by rwa [if_neg hne]⟩
  | error e u =>
      obtain ⟨v, hv, huv⟩ := hend.error hs
      rw [hv]
      exact ⟨rfl, huv⟩

/-- A solve goes alike after any number of simplifications. Each one after the first adds a
pass, unless the clauses are refuted. -/
lemma solve_repeats {s : Solver n γ} (hrounds : s.rounds = 0)
    (hlevel : s.verbosity.isSome = true) (k : Nat) :
    Repeats k (solve s) (solve (s.run (List.replicate (k + 1) .simplify))) := by
  cases hok : s.ok with
  | false =>
      rw [run_simplify_of_refuted hok]
      exact repeats_of_refuted hok k
  | true =>
      obtain ⟨loud, hloud⟩ := exists_reports hlevel 2
      have hpassed : (s.simplified loud).rounds ≠ 0 := rounds_simplified s loud
      have hsolve : solve s = solve (s.simplified loud) := by
        calc solve s = concluded { s.simplified loud with model := none } :=
            solve_of_unpassed hrounds hok hloud
          _ = solve (s.simplified loud) := (solve_of_passed hpassed).symm
      rw [run_simplify_succ hok hloud, hsolve]
      cases hok' : (s.simplified loud).ok with
      | false =>
          rw [run_simplify_of_refuted hok']
          exact repeats_of_refuted hok' k
      | true =>
          have hirr : Irreducible (s.simplified loud).forced
              (s.simplified loud).clauses.toList :=
            ((justified_propagate s.forced s.forcedCount s.clauses.toList).reduces hok').2
          have hmore := repassed_run (s := s.simplified loud) hlevel hok' hirr k
          exact repeats_of_repassed hmore hok' hpassed

end LocalSat.Solver
