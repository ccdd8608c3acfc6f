/-
The models of a solver in a session.

* `Request.taken`, `Solver.taken`: the literals that were made true by hand;
* `after_keeps`: what each way of changing the clauses keeps is kept by every request;
* `retains_after`, `faithful_after`: what one request does to the forced values and to the
  models of the clauses;
* `run_keeps_models`: what any requests do, in any order.
-/
import LocalSat.Proofs.Random.Tape
import LocalSat.Proofs.Session.Basic

namespace LocalSat

variable {n : Nat} {γ : Type}

/-! ### Literals made true by hand -/

/-- The literal that a request makes true by hand, if it asks for one and is answered that
it is true now. -/
def Request.taken (r : Request n) (s : Solver n γ) : List (Literal n) :=
  match r with
  | .force l =>
      match Solver.force l s with
      | .ok true _ => [l]
      | _ => []
  | _ => []

namespace Solver

/-- Forcing a literal by hand. -/
lemma force_eq (l : Literal n) (s : Solver n γ) :
    force l s = match s.forced.force? l with
      | some forced => .ok true { s with forced }
      | none => .ok false s := by
  rw [force, get_bind_run]
  cases s.forced.force? l <;> rfl

variable [RandomSource γ]

/-- The literals that requests make true by hand. -/
def taken (s : Solver n γ) : List (Request n) → List (Literal n)
  | [] => []
  | r :: rs => r.taken s ++ (s.after r).taken rs

/-- A literal that is made true by hand is forced, and otherwise nothing changes. -/
lemma after_force (s : Solver n γ) (l : Literal n) :
    ((Request.force l).taken s = [] ∧ s.after (.force l) = s)
      ∨ ∃ f, s.forced.force? l = some f ∧ (Request.force l).taken s = [l]
        ∧ s.after (.force l) = { s with forced := f } := by
  have hperform : (Request.force l).perform s =
      match s.forced.force? l with
        | some forced => .ok () { s with forced }
        | none => .ok () s := by
    show (force l >>= fun _ => pure ()) s = _
    simp only [bind, EStateM.bind, force_eq]
    cases s.forced.force? l <;> rfl
  cases hf : s.forced.force? l with
  | none =>
      rw [hf] at hperform
      refine .inl ⟨?_, by rw [after, hperform]⟩
      simp only [Request.taken, force_eq, hf]
  | some f =>
      rw [hf] at hperform
      refine .inr ⟨f, rfl, ?_, by rw [after, hperform]⟩
      simp only [Request.taken, force_eq, hf]

/-! ### One request -/

/-- A request keeps what depends on something lasting, and is kept when a clause is added, when
a literal is made true by hand and by a simplification, as far as the request asks for these. -/
lemma after_keeps {τ : Type} {f : Solver n γ → τ} (hf : Lasting f) {P : Solver n γ → Prop}
    {s : Solver n γ} (h : P s) (r : Request n) (hlasting : ∀ {t u}, P t → f u = f t → P u)
    (hadd : ∀ value, r = .addClause value → ∀ c, P (s.pushClause c))
    (hforce : ∀ l, r = .force l →
      ∀ g, s.forced.force? l = some g → P { s with forced := g })
    (hsimplify : r = .simplify ∨ r = .solve →
      ∀ {t}, P t → Leads simplify t (fun _ u => P u) fun _ u => P u) : P (s.after r) := by
  cases r with
  | addClause value =>
      rcases after_addClause s value with hafter | ⟨c, hafter⟩ <;> rw [hafter]
      · exact h
      · exact hadd value rfl c
  | force l =>
      rcases after_force s l with ⟨-, hafter⟩ | ⟨g, hg, -, hafter⟩ <;> rw [hafter]
      · exact h
      · exact hforce l rfl g hg
  | simplify => exact of_leads (leads_drop (hsimplify (.inl rfl) h))
  | solve =>
      exact of_leads (leads_drop
        (leads_solve_keeps hf.toSteady hlasting (hsimplify (.inr rfl)) h))
  | setOption | setReport | initSearch | flip | search => exact hlasting h (hf.after rfl s)

/-- No request loses a forced value or a refutation. -/
lemma retains_after (s : Solver n γ) (r : Request n) : s.Retains (s.after r) := by
  refine after_keeps lasting_known (P := fun t => s.Retains t) (.refl s) r
    (fun ht hk => ht.trans (Propagates.of_known hk).toRetains) ?_ ?_ fun _ {t} ht => ?_
  · exact fun _ _ _ => ⟨fun _ => id, id⟩
  · exact fun _ _ f hf => ⟨fun k hk => (Forced.flags_of_force? hf k).2 (.inr hk), id⟩
  · exact (leads_simplify t).mono (fun _ _ hu => ht.trans hu.toRetains)
      fun _ _ hu => ht.trans hu.1.toRetains

omit [RandomSource γ] in
/-- A clause that is added counts among those that were added and those that are left. -/
lemma Faithful.pushClause {s : Solver n γ} {U : List (Literal n)} (h : s.Faithful U)
    (c : Clause n) : (s.pushClause c).Faithful U where
  models hok a := by
    have hm := h.models hok a
    simp only [Solver.pushClause, Admits, Array.toList_push, a.satisfies_append] at hm ⊢
    tauto
  unsatisfiable hok a := by
    have hu := h.unsatisfiable hok a
    simp only [Solver.pushClause, Array.toList_push, a.satisfies_append]
    tauto

omit [RandomSource γ] in
/-- A literal that is made true by hand counts among those, and is forced. -/
lemma Faithful.force {s : Solver n γ} {U : List (Literal n)} (h : s.Faithful U)
    {l : Literal n} {f : Forced n} (hf : s.forced.force? l = some f) :
    Faithful { s with forced := f } (U ++ [l]) where
  models hok a := by
    have hm := h.models hok a
    have hagrees := Forced.agrees_of_force? hf a
    simp only [Admits, List.forall_mem_append, List.forall_mem_singleton, hagrees] at hm ⊢
    tauto
  unsatisfiable hok a := by
    have hu := h.unsatisfiable hok a
    simp only [List.forall_mem_append]
    tauto

/-- Every request keeps the models faithful. -/
lemma faithful_after {s : Solver n γ} {U : List (Literal n)} (h : s.Faithful U)
    (r : Request n) : (s.after r).Faithful (U ++ r.taken s) := by
  cases r with
  | force l =>
      rcases after_force s l with ⟨htaken, hafter⟩ | ⟨f, hf, htaken, hafter⟩
      · rwa [htaken, hafter, List.append_nil]
      · rw [htaken, hafter]
        exact h.force hf
  | addClause value =>
      rcases after_addClause s value with hafter | ⟨c, hafter⟩
      · rw [hafter]
        exact (List.append_nil U).symm ▸ h
      · rw [hafter]
        exact (List.append_nil U).symm ▸ h.pushClause c
  | simplify => exact (List.append_nil U).symm ▸ h.propagates (propagates_after_simplify s)
  | solve => exact (List.append_nil U).symm ▸ h.propagates (propagates_after_solve s)
  | setOption | setReport | initSearch | flip | search =>
      exact (List.append_nil U).symm ▸ h.propagates (.of_known (known_after rfl s))

/-! ### Many requests -/

/-- No requests lose a forced value or a refutation. -/
lemma retains_run (s : Solver n γ) (rs : List (Request n)) : s.Retains (s.run rs) :=
  run_induction (P := fun t => s.Retains t) (fun r _ t ht => ht.trans (retains_after t r))
    (.refl s)

/-- All requests keep the models faithful. -/
lemma faithful_run {s : Solver n γ} {U : List (Literal n)} (h : s.Faithful U)
    (rs : List (Request n)) : (s.run rs).Faithful (U ++ s.taken rs) := by
  induction rs generalizing s U with
  | nil =>
      rw [taken, List.append_nil]
      exact h
  | cons r rs ih =>
      rw [taken, ← List.append_assoc]
      exact ih (faithful_after h r)

/-- **The models of the clauses are kept.** After any requests to a new solver, in any
order, no variable is forced both ways, and no further requests free a variable that is
forced. As long as the clauses are not refuted, the assignments that satisfy them as they
were added, with the literals that were made true by hand, are those that satisfy the
clauses that are left and agree with the forced values. Refuted clauses have no model and
stay refuted: a later solve says so and asks nothing of the source. -/
theorem run_keeps_models (g : γ) (rs more : List (Request n)) :
    let s := (new n g).run rs
    let t := s.run more
    let U := (new n g).taken rs
    (∀ l, ¬(s.forced.Flags l ∧ s.forced.Flags l.negate))
      ∧ (∀ l, s.forced.Flags l → t.forced.Flags l)
      ∧ (s.ok = true → ∀ a : Assignment n,
          (a.Satisfies s.added.toList ∧ ∀ l ∈ U, a.holds l = true)
            ↔ a.Satisfies s.clauses.toList ∧ s.forced.Agrees a)
      ∧ (s.ok = false → t.ok = false
          ∧ (∃ u, solve t = .ok .contradiction u ∧ u.source = t.source)
          ∧ ∀ a : Assignment n, ¬(a.Satisfies s.added.toList ∧ ∀ l ∈ U, a.holds l = true))
      ∧ ∀ u, solve s = .ok .contradiction u →
          ∀ a : Assignment n, ¬(a.Satisfies s.added.toList ∧ ∀ l ∈ U, a.holds l = true) := by
  intro s t U
  have hs : s.Faithful U := faithful_run (Built.new n g).faithful rs
  have hst : s.Retains t := retains_run s more
  refine ⟨fun l h => Forced.not_flags_negate h.1 h.2, hst.keeps, hs.models, fun hok => ?_, ?_⟩
  · refine ⟨hst.refuted hok, ?_, hs.unsatisfiable hok⟩
    obtain ⟨status, u, hsolve, rfl, hsource⟩ :=
      (leads_solve_of_refuted (hst.refuted hok)).exists_ok
    exact ⟨u, hsolve, hsource⟩
  · intro u hu
    have hp : s.Propagates u := (propagates_solve s).ok hu
    have hok : u.ok = false := (leads_solve_contradiction s).ok hu rfl
    have hunsat := (hs.propagates hp).unsatisfiable hok
    rwa [hp.added] at hunsat

/-- A literal that is made true by hand against a clause refutes it: no later solve finds an
assignment, whatever is asked before, and there is none. -/
theorem run_refutes_forced_clash :
    let x : Literal 1 := ⟨0, true⟩
    let rs : List (Request 1) := [.addClause (.arr [.int 1]), .force x.negate, .simplify]
    let s := (new 1 Tape.zero).run rs
    s.ok = false ∧ (new 1 Tape.zero).taken rs = [x.negate]
      ∧ (∀ more, ∃ u, solve (s.run more) = .ok .contradiction u)
      ∧ ∀ a : Assignment 1, ¬(a.Satisfies [[x]] ∧ ∀ l ∈ [x.negate], a.holds l = true) := by
  intro x rs s
  have hok : s.ok = false := by
    subst s rs x
    decide +kernel
  have hrefuted := fun more => (run_keeps_models Tape.zero rs more).2.2.2.1 hok
  refine ⟨hok, rfl, fun more => ?_, fun a => ?_⟩
  · obtain ⟨-, ⟨u, hu, -⟩, -⟩ := hrefuted more
    exact ⟨u, hu⟩
  · obtain ⟨-, -, hunsat⟩ := hrefuted []
    exact hunsat a

end Solver

end LocalSat
