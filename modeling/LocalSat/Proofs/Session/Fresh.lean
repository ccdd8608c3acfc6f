/-
What a solve takes over from earlier ones.

* `Solver.forgotten`: the solver without what earlier searches have left;
* `Fresh s t`: two solvers differ in their outcome, their report, and the assignment at the
  start of the last recorded search only; `parallel_fresh`: they go alike;
* `leads_solve_forgotten`: a search of a solve goes as it would without earlier ones;
* `Clean s`: if the clauses are refuted, there was no search; `clean_run`: so it is when all
  clauses are added before the first simplification or solve;
* `solve_forgets`: what a solve leaves behind describes this solve only, unless it finds that
  the clauses are refuted: then the flips of an earlier search stay;
* `solve_keeps_old_flips`: a clause that is added after a search and refuted by a
  simplification shows this.
-/
import LocalSat.Proofs.Propagation.Repeat
import LocalSat.Proofs.Session.Additions
import LocalSat.Proofs.Solver.Parallel

namespace LocalSat.Solver

variable {n : Nat} {γ : Type}

/-- The solver without what earlier searches have left. -/
def forgotten (s : Solver n γ) : Solver n γ :=
  { s with
    values := none
    index := none
    initial := none
    model := none
    status := .undefined
    counters := .zero
    minUnsat := 0
    trace := #[] }

/-! ### The search of a solve -/

/-- Two solvers differ in their outcome, their report and the assignment at the start of the
last recorded search only. The latter is the same if there is a record, and otherwise the
second solver has none. -/
def Fresh (s t : Solver n γ) : Prop :=
  ∃ status r, t =
    { s with status, initial := if s.options.recordTrace then s.initial else none, report := r }

/-- Such solvers go alike. -/
lemma parallel_fresh : Parallel (Fresh : Solver n γ → Solver n γ → Prop) where
  same := by
    rintro s _ ⟨status, r, rfl⟩
    exact ⟨rfl, rfl, rfl, rfl, rfl, rfl, rfl⟩
  reporting := by
    rintro s _ ⟨status, r, rfl⟩
    rfl
  checks := by
    rintro s _ ⟨status, r, rfl⟩
    exact ⟨rfl, rfl⟩
  source := by
    rintro s _ source ⟨status, r, rfl⟩
    exact ⟨status, r, rfl⟩
  values := by
    rintro s _ values ⟨status, r, rfl⟩
    exact ⟨status, r, rfl⟩
  index := by
    rintro s _ index ⟨status, r, rfl⟩
    exact ⟨status, r, rfl⟩
  started := by
    rintro s _ a source ⟨status, r, rfl⟩
    refine ⟨status, r, ?_⟩
    simp only [started]
    split <;> rfl
  recorded := by
    rintro s _ v move ⟨status, r, rfl⟩
    exact ⟨status, r, rfl⟩
  report := by
    rintro s _ r r' ⟨status, _, rfl⟩
    exact ⟨status, r', rfl⟩
  model := by
    rintro s _ model ⟨status, r, rfl⟩
    exact ⟨status, r, rfl⟩
  status := by
    rintro s _ status ⟨_, r, rfl⟩
    exact ⟨status, r, rfl⟩

/-- Without a model, a simplification does the same on the solver without the rest of what
earlier searches have left. -/
lemma agree_simplify_forgotten {s : Solver n γ} (h : s.model = none) :
    Agree (fun s t => s.model = none ∧ t = s.forgotten) simplify simplify s s.forgotten := by
  refine agree_simplify ?_ ⟨h, rfl⟩ rfl (fun loud => ⟨h, rfl⟩) ?_
  · rintro u _ ⟨-, rfl⟩
    rfl
  · have hmodel : s.passed.model = none := by
      simp only [passed]
      split <;> exact h
    refine ⟨hmodel, ?_⟩
    simp only [passed, forgotten]
    split <;> rfl

variable [RandomSource γ]

/-- A search of a solve goes as it would on the solver without what earlier searches have
left. -/
lemma leads_solveSearch_forgotten {s : Solver n γ} (h : s.model = none) :
    Leads solveSearch s (fun status t => ∃ t', solveSearch s.forgotten = .ok status t'
      ∧ Fresh t t') fun _ _ => True := by
  rw [solveSearch_eq_underway, leads_bind, leads_modify, leads_bind, Leads, initSearch]
  cases hc : complete s.cleared.forced (List.finRange n)
      (Vector.replicate n false, s.cleared.source) with
  | error e p => trivial
  | ok u p =>
      have hinit : initSearch s.forgotten.cleared
          = .ok () (s.forgotten.cleared.started p.1 p.2) := by
        have hcomplete : complete s.forgotten.cleared.forced (List.finRange n)
            (Vector.replicate n false, s.forgotten.cleared.source) = .ok u p := hc
        rw [initSearch, hcomplete]
      have hrun : (initSearch >>= fun _ => underway) s.forgotten.cleared
          = underway (s.forgotten.cleared.started p.1 p.2) := bind_run_of_ok hinit
      -- the search is set up anew, but for the outcome and the assignment at the start
      have hfresh : Fresh (s.cleared.started p.1 p.2) (s.forgotten.cleared.started p.1 p.2) := by
        refine ⟨.undefined, s.report, ?_⟩
        cases hrecord : s.options.recordTrace <;> simp [started, cleared, forgotten, h, hrecord]
      refine (parallel_fresh.underway hfresh rfl).mono ?_ fun _ _ _ => trivial
      rintro status t ⟨t', ht', hfresh'⟩
      exact ⟨t', hrun.trans ht', hfresh'⟩

/-- So does the end of a solve. If the clauses are refuted, it makes no search. -/
lemma leads_concluded_forgotten {s : Solver n γ} (h : s.model = none) :
    Leads concluded s (fun status t => ∃ t', concluded s.forgotten = .ok status t'
      ∧ (status ≠ .contradiction → Fresh t t')
      ∧ (status = .contradiction → t' = { t.forgotten with status := .contradiction }))
      fun _ _ => True := by
  have hrun : concluded s.forgotten = if s.ok = true then solveSearch s.forgotten
      else .ok .contradiction { s.forgotten with status := .contradiction } := by
    rw [concluded, get_bind_run]
    show (if s.ok = true then _ else _ : Action n γ Status) s.forgotten = _
    split <;> rfl
  rw [hrun]
  refine leads_concluded_of (fun hok => ?_) fun hok => ?_
  · rw [if_pos hok]
    refine ((leads_solveSearch_forgotten h).and (gives_solveSearch s)).mono ?_
      fun _ _ _ => trivial
    rintro status t ⟨⟨t', ht', hfresh⟩, hne⟩
    exact ⟨t', ht', fun _ => hfresh, fun hc => absurd hc hne⟩
  · rw [if_neg (by simp [hok])]
    exact ⟨_, rfl, fun hne => absurd rfl hne, fun _ => rfl⟩

/-- So does a solve. -/
lemma leads_solve_forgotten (s : Solver n γ) :
    Leads solve s (fun status t => ∃ t', solve s.forgotten = .ok status t'
      ∧ (status ≠ .contradiction → Fresh t t')
      ∧ (status = .contradiction → t' = { t.forgotten with status := .contradiction }))
      fun _ _ => True := by
  have hrun : solve s.forgotten = (do
      if s.rounds = 0 then
        let _ ← simplify
        concluded
      else
        concluded : Action n γ Status) s.forgotten := rfl
  rw [hrun, leads_solve_iff]
  split
  · have hagree := agree_simplify_forgotten (s := { s with model := none }) rfl
    refine Leads.mono hagree ?_ fun _ _ _ => trivial
    rintro b t ⟨t', ht', hmodel, rfl⟩
    have hend : (simplify >>= fun _ => concluded) s.forgotten = concluded t.forgotten :=
      bind_run_of_ok ht'
    rw [hend]
    exact leads_concluded_forgotten hmodel
  · exact leads_concluded_forgotten (s := { s with model := none }) rfl

/-! ### Refuted clauses -/

/-- If the clauses are refuted, or there was no pass over them yet, nothing was flipped. If
there was a pass that did not refute them, they cannot be reduced. -/
structure Clean (s : Solver n γ) : Prop where
  /-- Clauses that were simplified cannot be reduced. -/
  irreducible : s.ok = true → s.rounds ≠ 0 → Irreducible s.forced s.clauses.toList
  /-- Otherwise no flip is counted or recorded. -/
  unflipped : s.ok = false ∨ s.rounds = 0 → s.counters = .zero ∧ s.trace = #[]

omit [RandomSource γ] in
/-- Clauses that cannot be reduced are not refuted. -/
lemma ok_simplified_of_irreducible {s : Solver n γ}
    (h : Irreducible s.forced s.clauses.toList) (loud : Bool) :
    (s.simplified loud).ok = true := by
  show (propagate s.forced s.forcedCount s.clauses.toList).ok = true
  rw [propagate_of_irreducible h]

omit [RandomSource γ] in
/-- A simplification keeps this, if the report does not fail. After it there was a pass, unless
the clauses are refuted. -/
lemma Clean.simplify {s : Solver n γ} (h : s.Clean) (hreport : ∀ e, ¬s.ReportFault e) :
    Leads simplify s (fun _ t => t.Clean ∧ (t.ok = true → t.rounds ≠ 0)) fun _ _ => False := by
  refine leads_simplify_of (fun hok => ⟨h, fun hok' => ?_⟩) (fun hok loud => ?_)
    fun _ e he => hreport e he
  · rw [hok] at hok'
    cases hok'
  · have hrounds : (s.simplified loud).rounds ≠ 0 := rounds_simplified s loud
    refine ⟨⟨fun hok' _ => ?_, fun hwhy => ?_⟩, fun _ => hrounds⟩
    · exact ((justified_propagate s.forced s.forcedCount s.clauses.toList).reduces hok').2
    · -- clauses that were simplified before are not refuted now
      have hrefuted := hwhy.resolve_right hrounds
      have hfirst : s.rounds = 0 := by
        by_contra hr
        have hok' := ok_simplified_of_irreducible (h.irreducible hok hr) loud
        rw [hrefuted] at hok'
        cases hok'
      exact h.unflipped (.inr hfirst)

/-- So does the end of a solve, if there was a pass. -/
lemma Clean.concluded {s : Solver n γ} (h : s.Clean) (hr : s.ok = true → s.rounds ≠ 0) :
    Leads concluded s (fun _ t => t.Clean) fun _ t => t.Clean := by
  have hsearch : s.ok = true → ∀ t : Solver n γ, t.known = s.known → t.Clean := by
    intro hok t hk
    obtain ⟨hok', -, hcl, hf, hr'⟩ := known_eq_iff.1 hk
    refine ⟨fun _ _ => ?_, fun hwhy => ?_⟩
    · rw [hcl, hf]
      exact h.irreducible hok (hr hok)
    · rw [hok', hr', hok] at hwhy
      exact absurd (hwhy.resolve_left (by decide)) (hr hok)
  refine leads_concluded_of (fun hok => ?_) fun hok => ⟨h.irreducible, h.unflipped⟩
  exact (steady_known.fixes_solveSearch s).mono (fun _ t => hsearch hok t)
    fun _ t => hsearch hok t

/-- So does a solve. -/
lemma Clean.solve {s : Solver n γ} (h : s.Clean) (hreport : ∀ e, ¬s.ReportFault e) :
    Leads solve s (fun _ t => t.Clean) fun _ t => t.Clean := by
  have hstart : Clean { s with model := none } := ⟨h.irreducible, h.unflipped⟩
  rw [leads_solve_iff]
  split
  · refine (hstart.simplify fun e he => hreport e (he.congr rfl)).mono ?_ fun _ _ => False.elim
    rintro _ t ⟨ht, hr⟩
    exact ht.concluded hr
  · next hr => exact hstart.concluded fun _ => hr

/-- Setting an option keeps what does not depend on the options. -/
lemma after_setOption {τ : Type} {f : Solver n γ → τ}
    (hf : ∀ s o, f { s with options := o } = f s) (name : String) (value : Json)
    (s : Solver n γ) : f (s.after (.setOption name value)) = f s :=
  of_leads (P := fun t => f t = f s) (fixes_setOption hf name value s)

/-- Until the first pass nothing is flipped. -/
lemma unflipped_after {r : Request n} (hr : r.isPreparing = true) (hr' : r.isIncremental = true)
    {s : Solver n γ} (h : s.counters = .zero ∧ s.trace = #[]) :
    (s.after r).counters = .zero ∧ (s.after r).trace = #[] := by
  cases r with
  | setOption name value =>
      have hcounters := after_setOption (f := Solver.counters) (fun _ _ => rfl) name value s
      have htrace := after_setOption (f := Solver.trace) (fun _ _ => rfl) name value s
      exact ⟨hcounters.trans h.1, htrace.trans h.2⟩
  | addClause value =>
      rcases after_addClause s value with hs | ⟨c, hs⟩ <;> rw [hs] <;> exact h
  | simplify | solve => cases hr
  | force | setReport | initSearch | flip | search => cases hr'

/-- Simplifications, solves and options keep clauses clean, if the report does not fail. -/
lemma Clean.after {s : Solver n γ} (h : s.Clean) (hreport : ∀ e, ¬s.ReportFault e)
    {r : Request n} (hr : r.isFinal = true) (hr' : r.isIncremental = true) :
    (s.after r).Clean := by
  cases r with
  | setOption name value =>
      have hknown := after_setOption (f := Solver.known) (fun _ _ => rfl) name value s
      have hcounters := after_setOption (f := Solver.counters) (fun _ _ => rfl) name value s
      have htrace := after_setOption (f := Solver.trace) (fun _ _ => rfl) name value s
      obtain ⟨hok, -, hcl, hf, hrounds⟩ := known_eq_iff.1 hknown
      refine ⟨?_, ?_⟩
      · rw [hok, hrounds, hcl, hf]
        exact h.irreducible
      · rw [hok, hrounds, hcounters, htrace]
        exact h.unflipped
  | simplify =>
      exact of_leads (leads_drop ((h.simplify hreport).mono (fun _ _ => And.left)
        fun _ _ => False.elim))
  | solve => exact of_leads (leads_drop (h.solve hreport))
  | addClause => cases hr
  | force | setReport | initSearch | flip | search => cases hr'

/-- When all clauses are added before the first simplification or solve, and there is no report
to fail, nothing was flipped if the clauses are refuted. -/
lemma clean_run (g : γ) {setup later : List (Request n)}
    (hsetup : ∀ r ∈ setup, r.isPreparing = true ∧ r.isIncremental = true)
    (hlater : ∀ r ∈ later, r.isFinal = true ∧ r.isIncremental = true) :
    (((new n g).run setup).run later).Clean
      ∧ ∀ e, ¬(((new n g).run setup).run later).ReportFault e := by
  have hreport : ∀ {s : Solver n γ}, s.reporting = (new n g).reporting → ∀ e, ¬s.ReportFault e :=
    fun hs e he => not_reportFault_new n g e (he.congr hs)
  have hkeep : ∀ {r : Request n}, r.isIncremental = true → ∀ s : Solver n γ,
      (s.after r).reporting = s.reporting := by
    intro r hr s
    refine reporting_after (fun v k hrequest => ?_) s
    rw [hrequest] at hr
    cases hr
  have hstart : ((new n g).run setup).reporting = (new n g).reporting
      ∧ ((new n g).run setup).rounds = 0 ∧ ((new n g).run setup).counters = .zero
      ∧ ((new n g).run setup).trace = #[] := by
    refine run_induction (P := fun s => s.reporting = (new n g).reporting ∧ s.rounds = 0
      ∧ s.counters = .zero ∧ s.trace = #[]) (fun r hr s hs => ?_) ⟨rfl, rfl, rfl, rfl⟩
    obtain ⟨hpreparing, hincremental⟩ := hsetup r hr
    exact ⟨(hkeep hincremental s).trans hs.1, (rounds_after hpreparing s).trans hs.2.1,
      unflipped_after hpreparing hincremental hs.2.2⟩
  obtain ⟨hreporting, hrounds, hunflipped⟩ := hstart
  have hclean : ((new n g).run setup).Clean :=
    ⟨fun _ hr => absurd hrounds hr, fun _ => hunflipped⟩
  have hlast : (((new n g).run setup).run later).reporting = (new n g).reporting
      ∧ (((new n g).run setup).run later).Clean := by
    refine run_induction (P := fun s => s.reporting = (new n g).reporting ∧ s.Clean)
      (fun r hr s hs => ?_) ⟨hreporting, hclean⟩
    obtain ⟨hfinal, hincremental⟩ := hlater r hr
    exact ⟨(hkeep hincremental s).trans hs.1,
      hs.2.after (hreport hs.1) hfinal hincremental⟩
  exact ⟨hlast.2, hreport hlast.1⟩

/-! ### What a solve leaves behind -/

/-- A solve goes as it would on the solver without what earlier searches have left. After a
search, nothing else is left behind, but for the assignment at the start of the last recorded
search, which stays if this one is not recorded. -/
lemma solve_forgotten_of_search {s t : Solver n γ} {status : Status}
    (h : solve s = .ok status t) (hne : status ≠ .contradiction) :
    ∃ r, solve s.forgotten = .ok status
      { t with initial := if s.options.recordTrace then t.initial else none, report := r } := by
  obtain ⟨t', ht', hfresh, -⟩ := (leads_solve_forgotten s).ok h
  obtain ⟨outcome, r, rfl⟩ := hfresh hne
  have hstatus : t.status = status := (leads_solve_status s).ok h
  have houtcome : outcome = status := (leads_solve_status s.forgotten).ok ht'
  have hoptions : t.options = s.options := congrArg Prod.fst ((fixes_settings_solve s).ok h)
  refine ⟨r, ?_⟩
  rw [ht', houtcome, hoptions, ← hstatus]

/-- Without a search, the counters and the record are those of an earlier one. -/
lemma solve_forgotten_of_contradiction {s t : Solver n γ}
    (h : solve s = .ok .contradiction t) :
    solve s.forgotten = .ok .contradiction { t.forgotten with status := .contradiction }
      ∧ t.model = none ∧ t.source = s.source ∧ t.counters = s.counters
      ∧ t.trace = s.trace := by
  obtain ⟨t', ht', -, hrefuted⟩ := (leads_solve_forgotten s).ok h
  have hkept : (t.model, t.source, t.counters, t.trace)
      = (none, s.source, s.counters, s.trace) :=
    (leads_solve_without_search
      (f := fun t : Solver n γ => (t.model, t.source, t.counters, t.trace))
      (fixes_simplify fun _ _ _ _ _ _ _ => rfl) (fun _ _ => rfl) s).ok h rfl
  rw [ht', hrefuted rfl]
  exact ⟨rfl, by simpa using hkept⟩

/-- If the clauses are refuted, or there was no pass over them, and nothing was flipped then,
there is nothing that a solve without a search could leave. -/
lemma unflipped_of_contradiction {s t : Solver n γ} (hclean : s.Clean)
    (hreport : ∀ e, ¬s.ReportFault e) (h : solve s = .ok .contradiction t) :
    t.counters = .zero ∧ t.trace = #[] := by
  have hrefuted : t.ok = false := (leads_solve_contradiction s).ok h rfl
  exact ((hclean.solve hreport).ok h).unflipped (.inl hrefuted)

/-- **A solve starts afresh, unless it finds that the clauses are refuted.** After a search,
the model, the counters, the record and all else but the assignment at the start of the last
recorded search are what the same solve gives without anything left from earlier searches. When
the clauses are refuted there is no search: nothing is asked of the source, the model is dropped
as it would be, but the counters and the record stay as an earlier search has left them. That
makes a difference only when clauses are added after a simplification or a solve: if all of
them were added before, then nothing is counted or recorded. -/
theorem solve_forgets (s : Solver n γ) :
    (∀ status t, solve s = .ok status t → status ≠ .contradiction →
      ∃ r, solve s.forgotten = .ok status
        { t with initial := if s.options.recordTrace then t.initial else none, report := r })
      ∧ (∀ t, solve s = .ok .contradiction t →
        solve s.forgotten = .ok .contradiction { t.forgotten with status := .contradiction }
          ∧ t.model = none ∧ t.source = s.source ∧ t.counters = s.counters
          ∧ t.trace = s.trace)
      ∧ ∀ (g : γ) (setup later : List (Request n)),
        (∀ r ∈ setup, r.isPreparing = true ∧ r.isIncremental = true) →
        (∀ r ∈ later, r.isFinal = true ∧ r.isIncremental = true) →
        s = ((new n g).run setup).run later →
        ∀ t, solve s = .ok .contradiction t → t.counters = .zero ∧ t.trace = #[] := by
  refine ⟨fun _ _ => solve_forgotten_of_search, fun _ => solve_forgotten_of_contradiction,
    fun g setup later hsetup hlater hs t ht => ?_⟩
  obtain ⟨hclean, hreport⟩ := clean_run g hsetup hlater
  rw [← hs] at hclean hreport
  exact unflipped_of_contradiction hclean hreport ht

/-- The second of two solves counts and records its own flip only. Of two clauses that refute
each other, added before the first solve, no solve counts or records a flip. -/
theorem solve_forgets_first_search :
    let s : Solver 2 Tape := (new 2 Tape.zero).run
      [.setOption "record-trace" (.bool true), .addClause (.arr [.int 1, .int 2]), .solve]
    let setup : List (Request 1) := [.addClause (.arr [.int 1]), .addClause (.arr [.int (-1)])]
    let later : List (Request 1) := [.solve]
    let u : Solver 1 Tape := ((new 1 Tape.zero).run setup).run later
    (s.counters = ⟨1, 0, 1, 0⟩ ∧ s.model.isSome = true ∧ s.forgotten.counters = .zero
      ∧ ∃ t t', solve s = .ok .satisfied t ∧ solve s.forgotten = .ok .satisfied t'
        ∧ t.counters = ⟨1, 0, 1, 0⟩ ∧ t'.counters = t.counters ∧ t'.trace = t.trace
        ∧ t'.model = t.model)
      ∧ (∀ r ∈ setup, r.isPreparing = true ∧ r.isIncremental = true)
      ∧ (∀ r ∈ later, r.isFinal = true ∧ r.isIncremental = true)
      ∧ ∃ t t', solve u = .ok .contradiction t ∧ solve u.forgotten = .ok .contradiction t'
        ∧ t.counters = .zero ∧ t.trace = #[] := by
  intro s setup later u
  have hleft : s.counters = ⟨1, 0, 1, 0⟩ ∧ s.model.isSome = true := by
    subst s
    decide +kernel
  have hrun : Leads solve s (fun status t => status = .satisfied ∧ t.counters = ⟨1, 0, 1, 0⟩)
      fun _ _ => False := by
    subst s
    decide +kernel
  have hsetup : ∀ r ∈ setup, r.isPreparing = true ∧ r.isIncremental = true := by
    simp [setup, Request.isPreparing, Request.isIncremental]
  have hlater : ∀ r ∈ later, r.isFinal = true ∧ r.isIncremental = true := by
    simp [later, Request.isFinal, Request.isIncremental]
  have hrefuted : Leads solve u (fun status _ => status = .contradiction)
      fun _ _ => False := by
    subst u later setup
    decide +kernel
  obtain ⟨status, t, ht, rfl, hcounters⟩ := hrun.exists_ok
  obtain ⟨status', t', ht', rfl⟩ := hrefuted.exists_ok
  obtain ⟨r, hforgotten⟩ := (solve_forgets s).1 .satisfied t ht (by decide)
  obtain ⟨-, hcontradiction, hunflipped⟩ := solve_forgets u
  exact ⟨⟨hleft.1, hleft.2, rfl, t, _, ht, hforgotten, hcounters, rfl, rfl, rfl⟩, hsetup,
    hlater, t', _, ht', (hcontradiction t' ht').1,
    hunflipped Tape.zero setup later hsetup hlater rfl t' ht'⟩

/-- **The flips of an earlier search stay when the clauses turn out to be refuted.** A solve
makes a flip. An empty clause is added then, and refuted by a simplification. The next solve
answers so, and still counts and records this flip. -/
theorem solve_keeps_old_flips :
    let rs : List (Request 2) := [.setOption "record-trace" (.bool true),
      .addClause (.arr [.int 1, .int 2]), .solve, .addClause (.arr []), .simplify]
    let s : Solver 2 Tape := (new 2 Tape.zero).run rs
    (∀ r ∈ rs, r.isIncremental = true)
      ∧ (∃ t, solve s = .ok .contradiction t ∧ t.counters = ⟨1, 0, 1, 0⟩ ∧ t.trace.size = 1)
      ∧ ∃ t, solve s.forgotten = .ok .contradiction t ∧ t.counters = .zero
        ∧ t.trace.size = 0 := by
  intro rs s
  have hrs : ∀ r ∈ rs, r.isIncremental = true := by simp [rs, Request.isIncremental]
  have hrun : Leads solve s (fun status t => status = .contradiction
      ∧ t.counters = ⟨1, 0, 1, 0⟩ ∧ t.trace.size = 1) fun _ _ => False := by
    subst s rs
    decide +kernel
  have hrun' : Leads solve s.forgotten (fun status t => status = .contradiction
      ∧ t.counters = .zero ∧ t.trace.size = 0) fun _ _ => False := by
    subst s rs
    decide +kernel
  obtain ⟨status, t, ht, rfl, hleft⟩ := hrun.exists_ok
  obtain ⟨status', t', ht', rfl, hnone⟩ := hrun'.exists_ok
  exact ⟨hrs, ⟨t, ht, hleft⟩, t', ht', hnone⟩

end LocalSat.Solver
