/-
Solves in a session give right answers.

* `Request.isBuilding`, `Request.isRunning`: what may be asked of a solver before and after
  its clauses are complete;
* `built_after`, `ready_after`: what such requests keep, with `Ready s cs` for the state
  when the clauses `cs` are complete;
* `prepare`: what comes before the solve of an instance;
* `solve_sound`: whatever is asked, an answer that an assignment was found comes with a model
  of all clauses, and any other answer with none.
-/
import LocalSat.Proofs.Session.Models

namespace LocalSat

variable {n : Nat} {γ : Type}

namespace Request

/-- Whether a request may be made while clauses are added: it does not reduce them. -/
def isBuilding : Request n → Bool
  | addClause _ => true
  | r => r.isQuiet

/-- Whether a request may be made when the clauses are complete: it adds nothing to what
they ask for. -/
def isRunning : Request n → Bool
  | simplify => true
  | solve => true
  | r => r.isQuiet

/-- Whether a request is to set an option, or the level and the interval of the report. -/
def isSetting : Request n → Bool
  | setOption .. => true
  | setReport .. => true
  | _ => false

end Request

namespace Solver

variable [RandomSource γ]

/-! ### Building -/

/-- Every request that may be made while clauses are added keeps the state built. -/
lemma built_after {s : Solver n γ} (h : s.Built) {r : Request n}
    (hr : r.isBuilding = true) : (s.after r).Built := by
  refine after_keeps lasting_known h r Built.of_known (fun _ _ => h.pushClause) ?_ ?_
  · rintro l rfl
    cases hr
  · rintro (rfl | rfl) <;> cases hr

/-! ### Running -/

/-- The clauses that were added are `cs`, and those that are left are settled and have the
same models. -/
structure Ready (s : Solver n γ) (cs : Array (Clause n)) : Prop where
  /-- The clauses that were added. -/
  added : s.added = cs
  /-- The clauses are settled. -/
  settled : s.Settled
  /-- The models are the same. -/
  faithful : s.Faithful []

omit [RandomSource γ] in
/-- Propagation keeps the state ready, if it leaves the clauses settled. -/
lemma Ready.propagates {s t : Solver n γ} {cs : Array (Clause n)} (h : s.Ready cs)
    (hp : s.Propagates t) (hsettled : t.Settled) : t.Ready cs :=
  ⟨hp.added.trans h.added, hsettled, h.faithful.propagates hp⟩

/-- Every request that may be made when the clauses are complete keeps the state ready. -/
lemma ready_after {s : Solver n γ} {cs : Array (Clause n)} (h : s.Ready cs) {r : Request n}
    (hr : r.isRunning = true) : (s.after r).Ready cs := by
  refine after_keeps lasting_known (P := fun t => t.Ready cs) h r
    (fun ht hk => ht.propagates (.of_known hk) (ht.settled.of_known hk)) ?_ ?_ fun _ {t} ht => ?_
  · rintro value rfl
    cases hr
  · rintro l rfl
    cases hr
  · exact ((leads_simplify t).and (settled_of_simplify ht.settled)).mono
      (fun _ _ hu => ht.propagates hu.1 hu.2.1) fun _ _ hu => ht.propagates hu.1.1 hu.2

/-- Sessions in which all clauses are added before the first simplification or solve. -/
lemma ready_run (g : γ) {setup later : List (Request n)}
    (hsetup : ∀ r ∈ setup, r.isBuilding = true) (hlater : ∀ r ∈ later, r.isRunning = true) :
    (((new n g).run setup).run later).Ready ((new n g).run setup).added := by
  have hbuilt : ((new n g).run setup).Built :=
    run_induction (P := fun s => s.Built) (fun r hr _ hs => built_after hs (hsetup r hr))
      (Built.new n g)
  exact run_induction (P := fun s => s.Ready ((new n g).run setup).added)
    (fun r hr _ hs => ready_after hs (hlater r hr)) ⟨rfl, hbuilt.settled, hbuilt.faithful⟩

/-! ### Settings and reports -/

omit [RandomSource γ] in
/-- No fault of a report says that an assignment is wrong. -/
lemma ReportFault.ne_invalidModel {s : Solver n γ} {e : Fault} (h : s.ReportFault e) :
    e ≠ .invalidModel := by
  rcases h with ⟨-, rfl⟩ | ⟨-, rfl⟩ | ⟨-, -, -, rfl⟩ <;> exact Fault.noConfusion

omit [RandomSource γ] in
/-- Reports do not fail at a level that is a number and at an interval that is one other
than zero. -/
lemma not_reportFault {s : Solver n γ} (hlevel : s.verbosity.isSome = true)
    (hinterval : ∃ k, s.progressInterval = some k ∧ k.isZero = false) (e : Fault) :
    ¬s.ReportFault e := by
  obtain ⟨k, hk, hzero⟩ := hinterval
  rintro (⟨h, -⟩ | ⟨h, -⟩ | ⟨j, hj, hj', -⟩)
  · simp [h] at hlevel
  · simp [h] at hk
  · obtain rfl : k = j := Option.some.inj (hk.symm.trans hj)
    simp [hzero] at hj'

omit [RandomSource γ] in
/-- A new solver can report. -/
lemma not_reportFault_new (n : Nat) (g : γ) (e : Fault) : ¬(new n g).ReportFault e :=
  not_reportFault rfl ⟨_, rfl, rfl⟩ e

/-- Only requests to set something by hand change what is set by hand. -/
lemma settings_after {r : Request n} (hr : r.isSetting = false) (s : Solver n γ) :
    (s.after r).settings = s.settings := by
  have key : ∀ {r : Request n},
      Leads r.perform s (fun _ t => t.settings = s.settings)
        (fun _ t => t.settings = s.settings) → (s.after r).settings = s.settings :=
    of_leads
  cases r with
  | setOption name value => cases hr
  | setReport v k => cases hr
  | addClause value =>
      rcases after_addClause s value with h | ⟨c, h⟩ <;> rw [h]
      rfl
  | force l =>
      rcases after_force s l with ⟨-, h⟩ | ⟨f, -, -, h⟩ <;> rw [h]
      rfl
  | simplify => exact key (leads_drop (fixes_settings_simplify s))
  | initSearch => exact key (steady_settings.fixes fixes_base_initSearch s)
  | flip v => exact key (steady_settings.fixes (fixes_base_flipVariable v) s)
  | search k => exact key (leads_drop (steady_settings.fixes (fixes_base_search k) s))
  | solve => exact key (leads_drop (fixes_settings_solve s))

/-- Only a request for it changes the level or the interval of the report. -/
lemma reporting_after {r : Request n} (hr : ∀ v k, r ≠ .setReport v k) (s : Solver n γ) :
    (s.after r).reporting = s.reporting := by
  cases r with
  | setOption name value =>
      exact of_leads (P := fun t => t.reporting = s.reporting)
        (fixes_setOption (fun _ _ => rfl) name value s)
  | setReport v k => exact absurd rfl (hr v k)
  | addClause | force | simplify | initSearch | flip | search | solve =>
      exact congrArg Prod.snd (settings_after rfl s)

/-- Only requests for it change the level or the interval of the report. -/
lemma reporting_run {rs : List (Request n)} (hrs : ∀ r ∈ rs, ∀ v k, r ≠ .setReport v k)
    (s : Solver n γ) : (s.run rs).reporting = s.reporting :=
  run_induction (P := fun t => t.reporting = s.reporting)
    (fun r hr t ht => (reporting_after (hrs r hr) t).trans ht) rfl

/-! ### Instances -/

omit [RandomSource γ] in
/-- Setting options changes the options only. -/
lemma fixes_known_options (options : List (String × Json)) :
    Fixes known
      (options.forM fun (name, option) => setOption name option : Action n γ PUnit) := by
  induction options with
  | nil => exact .pure _
  | cons o options ih => exact .bind (fixes_setOption (fun _ _ => rfl) o.1 o.2) fun _ => ih

omit [RandomSource γ] in
/-- Adding clauses adds what they are read as, in order. -/
lemma leads_addClauses (values : List Json) (s : Solver n γ) :
    Leads (addClauses values) s
      (fun _ t => (s.Built → t.Built) ∧ ∃ cs, values.mapM (readClause n) = .ok cs
        ∧ t.added.toList = s.added.toList ++ cs)
      fun _ _ => True := by
  induction values generalizing s with
  | nil => exact ⟨id, [], rfl, by simp⟩
  | cons value values ih =>
      rw [addClauses, leads_bind, addClause, leads_bind]
      cases hc : readClause n value with
      | error e => trivial
      | ok c =>
          rw [leads_attempt_ok, leads_modify]
          refine (ih (s.pushClause c)).mono ?_ fun _ _ => id
          rintro _ t ⟨hbuilt, cs, hcs, hadded⟩
          refine ⟨fun hs => hbuilt (hs.pushClause c), c :: cs, ?_, ?_⟩
          · rw [List.mapM_cons, hc, hcs]
            rfl
          · simp [hadded, Solver.pushClause]

/-- What comes before the solve of an instance: the options in order, and the clauses. -/
def prepare (clauses : Json) (options : List (String × Json)) : Action n γ Unit := do
  options.forM fun (name, option) => setOption name option
  addClausesOf clauses

omit [RandomSource γ] in
/-- After the options and the clauses, the clauses are those of the instance. -/
lemma leads_prepare (clauses : Json) (options : List (String × Json)) {s : Solver n γ}
    (h : s.Built) (hnil : s.added = #[]) :
    Leads (prepare clauses options) s
      (fun _ t => t.Built ∧ ∃ values, clauses.items = .ok values
        ∧ values.mapM (readClause n) = .ok t.added.toList)
      fun _ _ => True := by
  rw [prepare, leads_bind]
  refine (fixes_known_options options s).mono (fun _ t ht => ?_) fun _ _ _ => trivial
  rw [addClausesOf, leads_bind]
  cases hv : clauses.items with
  | error e => trivial
  | ok values =>
      refine (leads_addClauses values t).mono ?_ fun _ _ => id
      rintro _ u ⟨hbuilt, cs, hcs, hadded⟩
      obtain ⟨-, hta, -⟩ := known_eq_iff.1 ht
      refine ⟨hbuilt (h.of_known ht), values, rfl, ?_⟩
      rw [hcs, hadded, hta, hnil]
      rfl

/-- The solver of an instance before its options and clauses. -/
def blank (n : Nat) (seed : Nat) (verbosity : Json) : Solver n Pcg64 :=
  { new n (Pcg64.ofSeed seed) with verbosity := verbosity.numeral? }

/-- The answer for an instance is that of the solve of its solver. -/
lemma solveInstance_eq {varCount clauses seed verbosity : Json}
    {options : List (String × Json)} {value m : Nat} {i : Solver m Pcg64}
    (hseed : seedOfBytes seed = .ok value) (hm : variableCount varCount = .ok m)
    (hi : prepare clauses options (blank m value verbosity) = .ok () i) :
    (solveInstance varCount clauses seed verbosity options).1 =
      match solve i with
      | .ok status t => .ok (if status = .satisfied then t.model.map Vector.toList else none)
      | .error e _ => .error e := by
  have hrun : (do
      options.forM fun (name, option) => setOption name option
      addClausesOf clauses
      solve : Action m Pcg64 Status) (blank m value verbosity) = solve i := by
    rw [← bind_assoc]
    show (prepare clauses options >>= fun _ => solve) (blank m value verbosity) = solve i
    exact bind_run_of_ok hi
  rw [blank] at hrun
  simp only [solveInstance, hseed, hm, hrun]
  cases solve i <;> rfl

/-! ### Answers -/

/-- An answer that an assignment was found comes with a model that the checker confirms. -/
lemma model_of_solve {s t : Solver n γ} (hset : s.Settled) (hf : s.Faithful [])
    (h : solve s = .ok .satisfied t) :
    ∃ a : Assignment n, t.model = some a
      ∧ a.toPartial.isSatisfied (s.added.toList.map Clause.toInts) = true := by
  obtain ⟨a, hm, ha⟩ := (leads_solve (faultsWithin_true γ) hset hf).ok h
  have hp : s.Propagates t := (propagates_solve s).ok h
  refine ⟨a, hm, (isSatisfied_toInts a _).2 ?_⟩
  rwa [hp.added] at ha

/-- Any other answer comes with no model. -/
lemma no_model_of_solve {s t : Solver n γ} {status : Status} (hset : s.Settled)
    (hf : s.Faithful []) (h : solve s = .ok status t) (hne : status ≠ .satisfied) :
    t.model = none := by
  have hanswer : t.Answered status := (leads_solve (faultsWithin_true γ) hset hf).ok h
  cases status with
  | satisfied => exact absurd rfl hne
  | contradiction => exact hanswer
  | exhausted => exact hanswer
  | undefined => exact hanswer.elim

/-- An instance is given an assignment exactly when its solve finds one, and this satisfies
its clauses. The final check never fails. -/
lemma solveInstance_sound {varCount clauses seed verbosity : Json}
    {options : List (String × Json)} {value m : Nat} {i : Solver m Pcg64}
    (hseed : seedOfBytes seed = .ok value) (hm : variableCount varCount = .ok m)
    (hi : prepare clauses options (blank m value verbosity) = .ok () i) :
    let found := (solveInstance varCount clauses seed verbosity options).1
    (∃ values, clauses.items = .ok values ∧ values.mapM (readClause m) = .ok i.added.toList)
      ∧ match solve i with
        | .ok .satisfied _ => ∃ values, found = .ok (some values) ∧ values.length = m
            ∧ (PartialAssignment.ofValues values.toArray).isSatisfied
              (i.added.toList.map Clause.toInts) = true
        | .ok _ _ => found = .ok none
        | .error e _ => found = .error e ∧ e ≠ .invalidModel := by
  intro found
  have hblank : (blank m value verbosity).Built :=
    (Built.new m (Pcg64.ofSeed value)).of_known rfl
  obtain ⟨hbuilt, hvalues⟩ := (leads_prepare clauses options hblank rfl).ok hi
  refine ⟨hvalues, ?_⟩
  have hfound : found = _ := solveInstance_eq hseed hm hi
  cases hsolve : solve i with
  | ok status t =>
      rw [hsolve] at hfound
      cases status with
      | satisfied =>
          obtain ⟨a, hmodel, ha⟩ := model_of_solve hbuilt.settled hbuilt.faithful hsolve
          have hvalues : found = .ok (t.model.map Vector.toList) := hfound
          rw [hmodel] at hvalues
          exact ⟨a.toList, hvalues, by simp, ha⟩
      | contradiction => exact hfound
      | exhausted => exact hfound
      | undefined => exact hfound
  | error e t =>
      rw [hsolve] at hfound
      refine ⟨hfound, ?_⟩
      rcases ((leads_solve faultsWithin_pcg64 hbuilt.settled hbuilt.faithful).error hsolve).2
        with rfl | hreport
      · exact Fault.noConfusion
      · exact hreport.ne_invalidModel

/-- **Solves are sound, with the final check or without it.** Let all clauses be added
before the first simplification or solve, and let options be set, simplifications, solves
and searches be made at will. When a solve then answers that it found an assignment, its
model satisfies all clauses as they were added, as the checker sees it. Any other answer
comes with no model. With a lawful source nothing can fail but the report, and nothing at
all if it was left as it is. So it is with instances: the clauses that are solved are those
of the instance, an assignment is given exactly when the solve finds one, and the final
check never fails. -/
theorem solve_sound (g : γ) (setup later : List (Request n))
    (hsetup : ∀ r ∈ setup, r.isBuilding = true) (hlater : ∀ r ∈ later, r.isRunning = true) :
    let built := (new n g).run setup
    let s := built.run later
    (∀ t, solve s = .ok .satisfied t → ∃ a : Assignment n, t.model = some a
        ∧ a.toPartial.isSatisfied (built.added.toList.map Clause.toInts) = true)
      ∧ (∀ status t, solve s = .ok status t → status ≠ .satisfied → t.model = none)
      ∧ (∀ e t, solve s = .error e t → t.model = none
          ∧ (LawfulSource γ → s.ReportFault e ∧ e ≠ .invalidModel))
      ∧ (LawfulSource γ → (∀ r ∈ setup ++ later, ∀ v k, r ≠ .setReport v k) →
          ∃ status t, solve s = .ok status t)
      ∧ ∀ varCount clauses seed verbosity options value m (i : Solver m Pcg64),
          seedOfBytes seed = .ok value → variableCount varCount = .ok m →
          prepare clauses options (blank m value verbosity) = .ok () i →
          let found := (solveInstance varCount clauses seed verbosity options).1
          (∃ values, clauses.items = .ok values
              ∧ values.mapM (readClause m) = .ok i.added.toList)
            ∧ match solve i with
              | .ok .satisfied _ => ∃ values, found = .ok (some values) ∧ values.length = m
                  ∧ (PartialAssignment.ofValues values.toArray).isSatisfied
                    (i.added.toList.map Clause.toInts) = true
              | .ok _ _ => found = .ok none
              | .error e _ => found = .error e ∧ e ≠ .invalidModel := by
  intro built s
  have hready : s.Ready built.added := ready_run g hsetup hlater
  have hfault : LawfulSource γ → ∀ e t, solve s = .error e t → s.ReportFault e := by
    intro hlawful e t ht
    have h := (leads_solve (faultsWithin_of_lawful γ) hready.settled hready.faithful).error ht
    exact h.2.resolve_left id
  refine ⟨fun t ht => ?_, fun status t ht hne => ?_, fun e t ht => ⟨?_, fun hlawful => ?_⟩,
    fun hlawful hreport => ?_, ?_⟩
  · obtain ⟨a, hm, ha⟩ := model_of_solve hready.settled hready.faithful ht
    rw [hready.added] at ha
    exact ⟨a, hm, ha⟩
  · exact no_model_of_solve hready.settled hready.faithful ht hne
  · exact ((leads_solve (faultsWithin_true γ) hready.settled hready.faithful).error ht).1
  · exact ⟨hfault hlawful e t ht, (hfault hlawful e t ht).ne_invalidModel⟩
  · have hreporting : s.reporting = (new n g).reporting := by
      refine (reporting_run (fun r hr => hreport r ?_) built).trans
        (reporting_run (fun r hr => hreport r ?_) (new n g))
      · exact List.mem_append_right setup hr
      · exact List.mem_append_left later hr
    cases hsolve : solve s with
    | ok status t => exact ⟨status, t, rfl⟩
    | error e t =>
        have h := (hfault hlawful e t hsolve).congr hreporting
        exact absurd h (not_reportFault_new n g e)
  · intro varCount clauses seed verbosity options value m i hseed hm hi
    exact solveInstance_sound hseed hm hi

/-- Without the final check, the third solve of two clauses finds an assignment, and this
satisfies them. -/
theorem third_solve_sound :
    let setup : List (Request 2) := [.setOption "check-model" (.bool false),
      .addClause (.arr [.int 1, .int 2, .int 1]), .addClause (.arr [.int (-1)])]
    let later : List (Request 2) := [.solve, .simplify, .solve]
    let s := ((new 2 Tape.zero).run setup).run later
    (∀ r ∈ setup, r.isBuilding = true) ∧ (∀ r ∈ later, r.isRunning = true)
      ∧ ∃ t, solve s = .ok .satisfied t ∧ ∃ a : Assignment 2, t.model = some a
        ∧ a.toPartial.isSatisfied [[1, 2, 1], [-1]] = true := by
  intro setup later s
  have hsetup : ∀ r ∈ setup, r.isBuilding = true := by
    simp [setup, Request.isBuilding, Request.isQuiet]
  have hlater : ∀ r ∈ later, r.isRunning = true := by
    simp [later, Request.isRunning]
  obtain ⟨hmodel, -, -, hanswer, -⟩ := solve_sound Tape.zero setup later hsetup hlater
  obtain ⟨status, t, ht⟩ := hanswer inferInstance (by simp [setup, later])
  have hstatus : (match solve s with
      | .ok status _ => status
      | .error _ _ => .undefined) = .satisfied := by
    subst s later setup
    decide +kernel
  obtain rfl : status = .satisfied := by
    change solve s = _ at ht
    rwa [ht] at hstatus
  obtain ⟨a, hm, ha⟩ := hmodel t ht
  exact ⟨hsetup, hlater, t, ht, a, hm, ha⟩

end Solver

end LocalSat
