/-
Solves end, and within their budget.

* `factor_run`: every solver may make at least one flip for each variable;
* `leads_solve_endedWithin`: a solve ends as its budget allows, whatever the clauses are;
* `Request.isPreparing`, `Request.isFinal`: what may be asked before and after the clauses are
  complete, where literals may be made true by hand;
* `complete_run`: until there is a pass, all clauses are left as they were added; `sound_run`:
  so they are sound in such a session;
* `solve_ends`: every solve in such a session ends without a fault.
-/
import LocalSat.Proofs.Session.Inputs
import LocalSat.Proofs.Session.Soundness
import LocalSat.Proofs.Solver.Budget
import LocalSat.Proofs.Solver.Consulting

namespace LocalSat

variable {n : Nat} {γ : Type}

namespace Request

/-- Whether a request may be made while clauses are added: it is not to simplify or solve. -/
def isPreparing : Request n → Bool
  | simplify => false
  | solve => false
  | _ => true

/-- Whether a request may be made when all clauses are there: it adds none. -/
def isFinal : Request n → Bool
  | addClause _ => false
  | _ => true

end Request

namespace Solver

variable [RandomSource γ]

/-! ### Budgets -/

/-- Whatever is asked, a solver may make at least one flip for each variable. -/
lemma factor_run (g : γ) (rs : List (Request n)) :
    1 ≤ ((new n g).run rs).options.flipsFactor := by
  have hmem := Declaration.flipsFactor.held_mem (fun _ _ => checkInt_mem) rs
  rw [← Declaration.flipsFactor.field_run g] at hmem
  exact hmem.1

omit [RandomSource γ] in
/-- The end of a search leaves alone how it has ended. -/
lemma leads_finished_endedWithin {s : Solver n γ} {budget : Int} {status : Status}
    (h : s.EndedWithin budget status) :
    Leads (finished status) s (fun status t => t.EndedWithin budget status)
      fun _ _ => True := by
  have hkeep := fixes_finished (f := fun t => (t.index, t.counters)) (fun _ _ => rfl)
    (fun _ _ => rfl) status (fun _ => rfl) s
  refine ((gives_finished status s).and hkeep).mono ?_ fun _ _ _ => trivial
  rintro _ t ⟨rfl, ht⟩
  exact h.congr (congrArg Prod.fst ht) (congrArg Prod.snd ht)

/-- A search of a solve ends within its budget. -/
lemma leads_solveSearch_endedWithin {s : Solver n γ} (h : 0 ≤ s.maxFlips) :
    Leads solveSearch s (fun status t => t.EndedWithin s.maxFlips status)
      fun _ _ => True := by
  refine leads_solveSearch_of (faultsWithin_true γ) (fun _ _ _ _ => trivial)
    (fun _ _ _ _ => trivial) fun a g r _ => ?_
  exact (leads_search_endedWithin h).mono (fun _ _ => leads_finished_endedWithin)
    fun _ _ => id

/-- A solve ends within its budget, unless it finds that the clauses are refuted. -/
lemma leads_solve_endedWithin {s : Solver n γ} (h : 0 ≤ s.maxFlips) :
    Leads solve s
      (fun status t => status = .contradiction ∨ t.EndedWithin s.maxFlips status)
      fun _ _ => True := by
  refine leads_solve_of fun {t} hsettings _ => leads_concluded_of (fun _ => ?_) fun _ => .inl rfl
  have hbudget : t.maxFlips = s.maxFlips := by
    rw [maxFlips, maxFlips, show t.options = s.options from congrArg Prod.fst hsettings]
  rw [← hbudget] at h ⊢
  exact (leads_solveSearch_endedWithin h).mono (fun _ _ => .inr) fun _ _ => id

/-! ### Sessions -/

/-- All clauses are left as they were added, unless there was a pass over them. -/
def Complete (s : Solver n γ) : Prop := s.rounds = 0 → s.clauses = s.added

omit [RandomSource γ] in
/-- Whether clauses are complete depends on what is known. -/
lemma Complete.of_known {s t : Solver n γ} (h : s.Complete) (hk : t.known = s.known) :
    t.Complete := by
  obtain ⟨-, hadded, hcl, -, hr⟩ := known_eq_iff.1 hk
  rwa [Complete, hr, hcl, hadded]

/-- Every request keeps the clauses complete. -/
lemma complete_after {s : Solver n γ} (h : s.Complete) (r : Request n) :
    (s.after r).Complete := by
  refine after_keeps lasting_known h r Complete.of_known ?_ (fun _ _ _ _ => h) fun _ {t} ht => ?_
  · exact fun _ _ c hr => congrArg (·.push c) (h hr)
  · refine leads_simplify_of (fun _ => ht) (fun _ loud hr => ?_) fun _ _ _ hr => ?_
    · exact absurd hr (rounds_simplified t loud)
    · rw [rounds_passed] at hr
      cases hr

/-- All requests keep the clauses complete. -/
lemma complete_run {s : Solver n γ} (h : s.Complete) (rs : List (Request n)) :
    (s.run rs).Complete :=
  run_induction (P := fun s => s.Complete) (fun r _ _ hs => complete_after hs r) h

/-- There is no pass before the first simplification or solve. -/
lemma rounds_after {r : Request n} (hr : r.isPreparing = true) (s : Solver n γ) :
    (s.after r).rounds = s.rounds := by
  refine after_keeps lasting_known (P := fun t => t.rounds = s.rounds) rfl r
    (fun ht hk => (known_eq_iff.1 hk).2.2.2.2.trans ht) (fun _ _ _ => rfl) (fun _ _ _ _ => rfl) ?_
  rintro (rfl | rfl) <;> cases hr

/-- When all clauses are there, everything that may be asked keeps them sound. -/
lemma sound_after {s : Solver n γ} (h : s.Sound) {r : Request n} (hr : r.isFinal = true) :
    (s.after r).Sound := by
  refine after_keeps lasting_known h r Sound.of_known ?_ ?_ fun _ {t} ht => ?_
  · rintro value rfl
    cases hr
  · intro _ _ f hf hok
    obtain ⟨g, hg⟩ := h hok
    exact ⟨g, hg.of_flags fun k hk => (Forced.flags_of_force? hf k).2 (.inr hk)⟩
  · exact (sound_of_simplify ht).mono (fun _ _ => And.left) fun _ _ => id

/-- Sessions in which all clauses are added before the first simplification or solve keep
them sound. -/
lemma sound_run (g : γ) {setup later : List (Request n)}
    (hsetup : ∀ r ∈ setup, r.isPreparing = true) (hlater : ∀ r ∈ later, r.isFinal = true) :
    (((new n g).run setup).run later).Sound := by
  have hcomplete : ((new n g).run setup).Complete := complete_run (fun _ => rfl) setup
  have hrounds : ((new n g).run setup).rounds = 0 :=
    run_induction (P := fun s => s.rounds = 0)
      (fun r hr s hs => (rounds_after (hsetup r hr) s).trans hs) rfl
  exact run_induction (P := fun s => s.Sound) (fun r hr _ hs => sound_after hs (hlater r hr))
    fun _ => ⟨_, grounded_of_complete (hcomplete hrounds) fun h => absurd hrounds h⟩

/-- **Solves end without a fault and within their budget.** Let all clauses be added before
the first simplification or solve. Otherwise anything may be asked, in any order: to set
options and reports, to make literals true by hand, to simplify, to flip, to search and to
solve. Then every solve ends without a fault, if the source is lawful, the level of the report
is a number and so is its interval, which is not zero. The solve asks its source for coins and
for indices into sequences with members only. When it finds an assignment, no clause is
residual, and there were at most as many flips as are allowed; also the last of them may find
it. When it gives up, some clause is residual, and there were exactly as many flips as are
allowed. -/
theorem solve_ends [LawfulSource γ] (g : γ) (setup later : List (Request n))
    (hsetup : ∀ r ∈ setup, r.isPreparing = true) (hlater : ∀ r ∈ later, r.isFinal = true)
    (hlevel : (((new n g).run setup).run later).verbosity.isSome = true)
    (hinterval : ∃ k, (((new n g).run setup).run later).progressInterval = some k
      ∧ k.isZero = false) :
    let s := ((new n g).run setup).run later
    let budget : Int := n * s.options.flipsFactor
    ∃ status t qs, solve s = .ok status t
      ∧ Replies s.source qs t.source ∧ (∀ q ∈ qs, q.Sensible)
      ∧ match status with
        | .satisfied => ∃ x, t.index = some x ∧ x.2.residual.isEmpty = true
            ∧ (t.counters.flips : Int) ≤ budget
        | .exhausted => ∃ x, t.index = some x ∧ x.2.residual.isEmpty = false
            ∧ (t.counters.flips : Int) = budget
        | .contradiction => True
        | .undefined => False := by
  intro s budget
  have hfactor : 1 ≤ s.options.flipsFactor := by
    have h := factor_run g (setup ++ later)
    rwa [run, List.foldl_append] at h
  have hbudget : 0 ≤ s.maxFlips := Int.mul_nonneg (Int.natCast_nonneg n) (by omega)
  have hanswer := leads_solve_of_sound (faultsWithin_of_lawful γ) (sound_run g hsetup hlater)
  cases hsolve : solve s with
  | error e t =>
      have hfault := (hanswer.error hsolve).2.resolve_left id
      exact absurd hfault (not_reportFault hlevel hinterval e)
  | ok status t =>
      obtain ⟨qs, hqs, hsensible⟩ := (consults_solve s).ok hsolve
      refine ⟨status, t, qs, rfl, hqs, hsensible, ?_⟩
      have hended := (leads_solve_endedWithin hbudget).ok hsolve
      cases status with
      | satisfied =>
          obtain ⟨hx, hzero, hle⟩ := hended.resolve_left (by decide)
          obtain ⟨x, hx⟩ := Option.isSome_iff_exists.1 hx
          exact ⟨x, hx, by simp [isEmpty_eq hx, hzero], hle⟩
      | exhausted =>
          obtain ⟨hpos, heq⟩ := hended.resolve_left (by decide)
          obtain ⟨x, hx⟩ := Option.isSome_iff_exists.1 (isSome_index_of_unsat hpos)
          exact ⟨x, hx, by simp [isEmpty_eq hx, hpos.ne'], heq⟩
      | contradiction => trivial
      | undefined => exact hended.resolve_left (by decide)

/-- A second solve that may make two flips makes both, and the last one finds the
assignment. -/
theorem solve_ends_on_last_flip :
    let setup : List (Request 2) := [.setOption "flips-factor" (.int 1),
      .addClause (.arr [.int 1, .int 2]), .addClause (.arr [.int 1, .int (-2)]),
      .addClause (.arr [.int (-1), .int 2])]
    let later : List (Request 2) :=
      [.simplify, .setReport (some (.int 0)) (some (.int 1)), .solve]
    let s := ((new 2 Tape.zero).run setup).run later
    (∀ r ∈ setup, r.isPreparing = true) ∧ (∀ r ∈ later, r.isFinal = true)
      ∧ ∃ t qs x, solve s = .ok .satisfied t ∧ Replies s.source qs t.source
        ∧ (∀ q ∈ qs, q.Sensible) ∧ t.index = some x ∧ x.2.residual.isEmpty = true
        ∧ t.counters.flips = 2 * 1 := by
  intro setup later s
  have hsetup : ∀ r ∈ setup, r.isPreparing = true := by simp [setup, Request.isPreparing]
  have hlater : ∀ r ∈ later, r.isFinal = true := by simp [later, Request.isFinal]
  have hreport : s.verbosity.isSome = true
      ∧ s.progressInterval.map Numeral.isZero = some false := by
    subst s later setup
    decide +kernel
  obtain ⟨status, t, qs, ht, hqs, hsensible, hend⟩ := solve_ends Tape.zero setup later
    hsetup hlater hreport.1 (Option.map_eq_some_iff.1 hreport.2)
  have hrun : Leads solve s (fun status t => status = .satisfied ∧ t.counters.flips = 2)
      fun _ _ => False := by
    subst s later setup
    decide +kernel
  obtain ⟨rfl, hflips⟩ := hrun.ok ht
  obtain ⟨x, hx, hempty, -⟩ := hend
  exact ⟨hsetup, hlater, t, qs, x, ht, hqs, hsensible, hx, hempty, hflips⟩

end Solver

end LocalSat
