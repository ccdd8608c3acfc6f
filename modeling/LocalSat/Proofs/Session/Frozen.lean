/-
What the searches of a session leave alone.

* `Reduced s`: unless they are refuted, clauses over which there was a pass cannot be reduced;
  `leads_simplify_of_level`: a simplification that can report makes all its passes;
* `reduced_run`: so it is in sessions in which all clauses are added first;
* `solve_frozen`: every search of a solve flips variables of residual clauses only, and leaves
  forced variables and those in no clause alone.
-/
import LocalSat.Proofs.Session.Soundness
import LocalSat.Proofs.Solver.Budget
import LocalSat.Proofs.Solver.Stage

namespace LocalSat.Solver

variable {n : Nat} {γ : Type}

/-! ### Simplifications to the end -/

/-- Unless they are refuted, clauses over which there was a pass cannot be reduced. -/
def Reduced (s : Solver n γ) : Prop :=
  s.ok = true → s.rounds ≠ 0 → Irreducible s.forced s.clauses.toList

/-- A simplification makes all its passes when the level of the report is a number. -/
lemma leads_simplify_of_level {s : Solver n γ} {Q : Solver n γ → Prop}
    (hlevel : s.verbosity.isSome = true) (hrefuted : s.ok = false → Q s)
    (hall : s.ok = true → ∀ loud, Q (s.simplified loud)) :
    Leads simplify s (fun _ t => Q t) fun _ _ => False := by
  cases hok : s.ok with
  | false =>
      rw [Leads, simplify_of_refuted hok]
      exact hrefuted hok
  | true =>
      obtain ⟨x, hx⟩ := Option.isSome_iff_exists.1 hlevel
      rw [Leads, simplify_of_ok hok, reports, hx]
      exact hall hok _

/-- So it leaves the clauses reduced. -/
lemma Reduced.simplify {s : Solver n γ} (h : s.Reduced) (hlevel : s.verbosity.isSome = true) :
    Leads simplify s (fun _ t => t.Reduced ∧ t.verbosity.isSome = true) fun _ _ => False := by
  refine leads_simplify_of_level hlevel (fun _ => ⟨h, hlevel⟩)
    fun _ loud => ⟨fun hok _ => ?_, hlevel⟩
  exact ((justified_propagate s.forced s.forcedCount s.clauses.toList).reduces hok).2

variable [RandomSource γ]

/-! ### Sessions -/

/-- The level of the report is a number after every request that sets it to one, if to any. -/
lemma level_after {s : Solver n γ} {r : Request n} (h : s.verbosity.isSome = true)
    (hr : ∀ v k, r = .setReport v k → v.isSome = true) :
    (s.after r).verbosity.isSome = true := by
  by_cases hreport : ∃ v k, r = .setReport v k
  · obtain ⟨v, k, rfl⟩ := hreport
    exact hr v k rfl
  · have hkeep := reporting_after (r := r) (fun v k hrequest => hreport ⟨v, k, hrequest⟩) s
    rwa [(Prod.mk.inj hkeep).1]

/-- What may be asked when the clauses are complete leaves them reduced. -/
lemma reduced_after {s : Solver n γ} (h : s.Reduced) (hlevel : s.verbosity.isSome = true)
    {r : Request n} (hr : r.isRunning = true) : (s.after r).Reduced := by
  have hsteady : ∀ {t u : Solver n γ}, t.Reduced → u.known = t.known → u.Reduced := by
    intro t u ht hk
    obtain ⟨hok, -, hcl, hf, hrounds⟩ := known_eq_iff.1 hk
    rwa [Reduced, hok, hrounds, hf, hcl]
  cases r with
  | simplify =>
      refine of_leads (leads_drop ?_)
      exact (h.simplify hlevel).mono (fun _ _ => And.left) fun _ _ => False.elim
  | solve =>
      -- the level stays a number up to the simplification, and is not looked at after it
      have hboth : Steady fun t : Solver n γ => (t.known, t.verbosity) :=
        ⟨fun hb => Prod.ext (steady_known.of_base_eq hb)
          (congrArg (fun b : Solver n Unit => b.verbosity) hb), fun _ _ => rfl, fun _ _ => rfl⟩
      refine of_leads (leads_drop ?_)
      refine (leads_solve_keeps hboth (P := fun t => t.Reduced ∧ t.verbosity.isSome = true)
        (fun ht heq => ?_) (fun ht => ?_) ⟨h, hlevel⟩).mono
          (fun _ _ => And.left) fun _ _ => And.left
      · obtain ⟨hk, hv⟩ := Prod.mk.inj heq
        exact ⟨hsteady ht.1 hk, hv ▸ ht.2⟩
      · exact (ht.1.simplify ht.2).mono (fun _ _ => id) fun _ _ => False.elim
  | setOption | setReport | initSearch | flip | search => exact hsteady h (known_after rfl s)
  | addClause | force => cases hr

/-- Clauses that are all added before the first simplification or solve are reduced, when the level
of the report is a number throughout. -/
lemma reduced_run (g : γ) {setup later : List (Request n)}
    (hsetup : ∀ r ∈ setup, r.isBuilding = true) (hlater : ∀ r ∈ later, r.isRunning = true)
    (hlevel : ∀ v k, .setReport v k ∈ setup ++ later → v.isSome = true) :
    (((new n g).run setup).run later).Reduced := by
  have hstart : ((new n g).run setup).Built ∧ ((new n g).run setup).verbosity.isSome = true := by
    refine run_induction (P := fun s => s.Built ∧ s.verbosity.isSome = true)
      (fun r hr s hs => ⟨built_after hs.1 (hsetup r hr), level_after hs.2 fun v k hrequest => ?_⟩)
      ⟨.new n g, rfl⟩
    exact hlevel v k (List.mem_append_left later (hrequest ▸ hr))
  have hend : (((new n g).run setup).run later).Reduced
      ∧ (((new n g).run setup).run later).verbosity.isSome = true := by
    refine run_induction (P := fun s => s.Reduced ∧ s.verbosity.isSome = true)
      (fun r hr s hs => ⟨reduced_after hs.1 hs.2 (hlater r hr),
        level_after hs.2 fun v k hrequest => ?_⟩)
      ⟨fun _ hrounds => absurd hstart.1.rounds hrounds, hstart.2⟩
    exact hlevel v k (List.mem_append_right setup (hrequest ▸ hr))
  exact hend.1

/-- **Forced and irrelevant variables are frozen during a search.** Let all clauses be added
before the first simplification or solve, and let nothing be forced by hand. Options, reports,
simplifications, solves, searches and flips may be asked for at will, as long as the level of the
report is a number: without one a simplification stops between what it forces and what it drops.
Then a solve fails while it sets off, or finds that the clauses are refuted, or goes on with a
search from an assignment that agrees with the forced values. This search can be stopped after any
number `k` of flips and taken up again. There, and when the solve has ended, the clauses and the
forced values are those that it set off with; the current assignment agrees with the forced
values, and with the one at the start on every variable that occurs in no clause; and the next
flip is of a variable that is not forced and occurs in the residual clause in the first slot. -/
theorem solve_frozen (g : γ) (setup later : List (Request n))
    (hsetup : ∀ r ∈ setup, r.isBuilding = true) (hlater : ∀ r ∈ later, r.isRunning = true)
    (hlevel : ∀ v k, .setReport v k ∈ setup ++ later → v.isSome = true) :
    let s := ((new n g).run setup).run later
    (∀ e u, setOff s = .error e u → solve s = .error e u)
      ∧ (∀ u, setOff s = .ok none u →
        solve s = .ok .contradiction { u with status := .contradiction })
      ∧ ∀ budget u, setOff s = .ok (some budget) u →
        solve s = (search budget >>= finished : Action n γ Status) u
          ∧ ∃ a, u.values = some a ∧ u.forced.Agrees a
          ∧ (∀ k ≤ budget, ∀ status t, search k u = .ok status t →
              search budget u = search budget t ∧ Stage u a t)
          ∧ ∀ status t, solve s = .ok status t → Stage u a t := by
  intro s
  have hsolve : ∀ {budget u}, setOff s = .ok budget u → solve s = carryOn budget u := by
    intro budget u hset
    rw [solve_eq_setOff, bind_run_of_ok hset]
  refine ⟨fun e u hset => ?_, fun u hset => hsolve hset, fun budget u hset => ?_⟩
  · rw [solve_eq_setOff, bind_run_of_error hset]
  obtain ⟨hirr, a, ha, hagrees⟩ :=
    (leads_setOff (reduced_run g hsetup hlater hlevel)).ok hset rfl
  refine ⟨hsolve hset, a, ha.1, hagrees, fun k hk status t ht => ⟨?_, ?_⟩, fun status t ht => ?_⟩
  · rw [search_search hk, bind_run_of_ok ht, ← search_search hk]
  · exact (leads_search_stage hirr ha hagrees k).ok ht
  · exact (leads_carryOn_stage hirr ha hagrees budget).ok ((hsolve hset).symm.trans ht)

/-- The second solve of two clauses on four variables makes one flip. The first variable, which is
forced, and the last one, which occurs in no clause, keep their values. -/
theorem second_solve_frozen :
    let setup : List (Request 4) := [.setOption "flips-factor" (.int 2),
      .addClause (.arr [.int (-1), .int 2, .int 3]), .addClause (.arr [.int 1])]
    let later : List (Request 4) := [.solve, .setReport (some (.int 0)) (some (.int 1))]
    let s := ((new 4 Tape.zero).run setup).run later
    (∀ r ∈ setup, r.isBuilding = true) ∧ (∀ r ∈ later, r.isRunning = true)
      ∧ (∀ v k, .setReport v k ∈ setup ++ later → v.isSome = true)
      ∧ ∃ u a t, setOff s = .ok (some 8) u ∧ u.values = some a ∧ u.forced.Agrees a
        ∧ a.toList = [true, false, false, false] ∧ search 1 u = .ok .satisfied t
        ∧ t.values.map Vector.toList = some [true, true, false, false] ∧ Stage u a t := by
  intro setup later s
  have hsetup : ∀ r ∈ setup, r.isBuilding = true := by
    simp [setup, Request.isBuilding, Request.isQuiet]
  have hlater : ∀ r ∈ later, r.isRunning = true := by
    simp [later, Request.isRunning, Request.isQuiet]
  have hlevel : ∀ v k, .setReport v k ∈ setup ++ later → v.isSome = true := by
    simp +contextual [setup, later]
  obtain ⟨-, -, hfrozen⟩ := solve_frozen Tape.zero setup later hsetup hlater hlevel
  have hrun : Leads setOff s
      (fun budget u => budget = some 8
        ∧ u.values.map Vector.toList = some [true, false, false, false]
        ∧ Leads (search 1) u (fun status t => status = .satisfied
          ∧ t.values.map Vector.toList = some [true, true, false, false]) fun _ _ => False)
      fun _ _ => False := by
    subst s later setup
    decide +kernel
  obtain ⟨_, u, hset, rfl, hvalues, hsearch⟩ := hrun.exists_ok
  obtain ⟨_, t, ht, rfl, hend⟩ := hsearch.exists_ok
  obtain ⟨-, a, ha, hagrees, hstage, -⟩ := hfrozen 8 u hset
  rw [ha] at hvalues
  exact ⟨hsetup, hlater, hlevel, u, a, t, hset, ha, hagrees, Option.some.inj hvalues, ht, hend,
    (hstage 1 (by decide) _ t ht).2⟩

end LocalSat.Solver
