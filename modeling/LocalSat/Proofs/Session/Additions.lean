/-
Clauses that are added after a simplification.

* `leads_solve_checked`: with the final check, an answer that an assignment was found comes with
  a model of all clauses, whatever was done before;
* `sound_additions`, `sound_additions_simplify`: when the clauses are sound after additions;
* `solve_after_additions`: after additions a solve is right if no clause that is left is empty
  or has a variable with a forced value, and always if the clauses are simplified again;
* `solve_misses_additions`: otherwise it may fail, or accept an assignment that is wrong, since
  a solve simplifies only if there was no pass yet, and adding a clause does not change that.
-/
import LocalSat.Proofs.Session.Safety

namespace LocalSat

variable {n : Nat} {γ : Type}

/-- Whether a request is to set an option, to add a clause, to simplify or to solve. -/
def Request.isIncremental : Request n → Bool
  | setOption .. => true
  | addClause _ => true
  | simplify => true
  | solve => true
  | _ => false

namespace Solver

variable [RandomSource γ]

/-! ### The final check -/

/-- A search that succeeds has a current assignment. -/
lemma leads_searchFor_values (left : Nat) {s : Solver n γ} (h : s.values.isSome = true) :
    Leads (searchFor left) s (fun _ t => t.values.isSome = true)
      fun _ t => t.values.isSome = true := by
  refine leads_searchFor_keeps (P := fun t => t.values.isSome = true) (fun {t} ht => ?_) left h
  refine (leads_step_moved t).mono ?_ ?_
  · rintro _ _ ⟨g, a, x, v, move, r, -, rfl⟩
    rfl
  · rintro _ _ (⟨g, rfl⟩ | ⟨g, a, x, v, move, -, rfl⟩)
    · exact ht
    · rfl

/-- An answer that an assignment was found comes with a model of the clauses in `added`. -/
def Upheld (s : Solver n γ) (added : Array (Clause n)) (status : Status) : Prop :=
  status = .satisfied → ∃ a, s.model = some a ∧ a.Satisfies added.toList

omit [RandomSource γ] in
/-- The end of a search takes no assignment that does not satisfy all clauses. -/
lemma leads_finished_checked {s : Solver n γ} (hvalues : s.values.isSome = true)
    (hcheck : s.options.checkModel = true) (status : Status) :
    Leads (finished status) s (fun status t => t.Upheld s.added status)
      fun _ _ => True := by
  obtain ⟨a, ha⟩ := Option.isSome_iff_exists.1 hvalues
  rw [finished, leads_bind, leads_modify, leads_bind]
  refine (leads_announce _ _).mono ?_ fun _ _ _ => trivial
  rintro _ _ ⟨r, rfl⟩
  rw [leads_ite]
  split
  · rw [leads_bind]
    refine (leads_acceptModel_cases (s := { s with status, report := r }) ha).mono ?_
      fun _ _ _ => trivial
    rintro _ _ ⟨rfl, hconfirms⟩ -
    exact ⟨a, rfl, (isSatisfied_toInts a s.added.toList).1 (hconfirms hcheck)⟩
  · next hne => exact fun h => absurd h hne

/-- The search of a solve takes no assignment that does not satisfy all clauses. -/
lemma leads_solveSearch_checked {s : Solver n γ} (hcheck : s.options.checkModel = true) :
    Leads solveSearch s (fun status t => t.Upheld s.added status) fun _ _ => True := by
  refine leads_solveSearch_of (faultsWithin_true γ) (fun _ _ _ _ => trivial)
    (fun _ _ _ _ => trivial) fun a g r _ => ?_
  rw [search, leads_bind, leads_get]
  refine ((leads_searchFor_values _ rfl).and (fixes_base_searchFor _ _)).mono ?_
    fun _ _ _ => trivial
  rintro status t ⟨hvalues, hbase⟩
  have hadded : t.added = s.added := congrArg (fun b : Solver n Unit => b.added) hbase
  have hoptions : t.options = s.options := congrArg (fun b : Solver n Unit => b.options) hbase
  rw [← hadded]
  exact leads_finished_checked hvalues (hoptions ▸ hcheck) status

/-- With the final check, a solve takes no assignment that does not satisfy all clauses. -/
lemma leads_solve_checked {s : Solver n γ} (hcheck : s.options.checkModel = true) :
    Leads solve s (fun status t => t.Upheld s.added status) fun _ _ => True := by
  refine leads_solve_of fun {t} hsettings hadded => leads_concluded_of (fun _ => ?_) fun _ h => ?_
  · have hoptions : t.options = s.options := congrArg Prod.fst hsettings
    rw [← hadded]
    exact leads_solveSearch_checked (hoptions ▸ hcheck)
  · cases h

/-! ### Additions -/

/-- A new solver that is to report nothing. -/
def silent (n : Nat) (g : γ) : Solver n γ := { new n g with verbosity := some (.int 0) }

section

variable {g : γ} {rs : List (Request n)}

/-- Sessions of additions report nothing. -/
lemma reporting_additions (hrs : ∀ r ∈ rs, r.isIncremental = true) :
    ((silent n g).run rs).reporting = (silent n g).reporting := by
  refine reporting_run (fun r hr v k => ?_) _
  rintro rfl
  cases hrs _ hr

/-- Sessions of additions make no literal true by hand, and so they keep the models. -/
lemma faithful_additions (hrs : ∀ r ∈ rs, r.isIncremental = true) :
    ((silent n g).run rs).Faithful [] := by
  have hbuilt : (silent n g).Built := (Built.new n g).of_known rfl
  have hstart : (silent n g).Faithful [] := hbuilt.faithful
  refine run_induction (P := fun s => s.Faithful []) (fun r hr s hs => ?_) hstart
  have hafter := faithful_after hs r
  cases r with
  | force | setReport | initSearch | flip | search => cases hrs _ hr
  | setOption | addClause | simplify | solve => exact hafter

/-- Clauses are sound after additions, if there was no pass yet, or if none that is left is
empty or has a variable with a forced value. -/
lemma sound_additions (hrs : ∀ r ∈ rs, r.isIncremental = true)
    (h : ((silent n g).run rs).rounds = 0
      ∨ ∀ c ∈ ((silent n g).run rs).clauses.toList,
        c ≠ [] ∧ ∀ l ∈ c, ((silent n g).run rs).forced.get l.var = none) :
    ((silent n g).run rs).Sound := by
  have hcomplete : ((silent n g).run rs).Complete := complete_run (fun _ => rfl) rs
  intro hok
  rcases h with hrounds | hfree
  · exact ⟨_, grounded_of_complete (hcomplete hrounds) fun h => absurd hrounds h⟩
  · exact ⟨_, fun _ => id, fun c hc => (hfree c hc).2,
      fun a ha hagrees => (((faithful_additions hrs).models hok a).2 ⟨ha, hagrees⟩).1,
      fun _ c hc => (hfree c hc).1⟩

/-- A simplification makes the clauses sound again. -/
lemma sound_additions_simplify (hrs : ∀ r ∈ rs, r.isIncremental = true)
    (hreport : ∀ e, ¬((silent n g).run rs).ReportFault e) :
    (((silent n g).run rs).after .simplify).Sound := by
  refine Settled.sound ?_ ((faithful_additions hrs).propagates (propagates_after_simplify _))
  refine of_leads (P := fun t => t.Settled) (leads_drop (leads_simplify_of ?_ ?_ ?_))
  · intro hok hok'
    rw [hok] at hok'
    cases hok'
  · exact fun _ => settled_simplified _
  · exact fun _ e he => absurd he (hreport e)

end

/-- A solve of sound clauses succeeds with a right answer, if the source is lawful and the
report does not fail. -/
lemma exists_solve_of_sound [LawfulSource γ] {s : Solver n γ} (h : s.Sound)
    (hreport : ∀ e, ¬s.ReportFault e) :
    ∃ status t, solve s = .ok status t ∧ t.Upheld s.added status := by
  have hanswer := leads_solve_of_sound (faultsWithin_of_lawful γ) h
  cases hsolve : solve s with
  | error e t => exact absurd ((hanswer.error hsolve).2.resolve_left id) (hreport e)
  | ok status t =>
      refine ⟨status, t, rfl, ?_⟩
      rintro rfl
      have hadded : t.added = s.added := ((propagates_solve s).ok hsolve).added
      rw [← hadded]
      exact hanswer.ok hsolve

/-- **After additions, clauses must be simplified again.** Let options be set, clauses be
added, simplifications and solves be made in any order, without a report and with a lawful
source. When the clauses are then simplified, a solve fails in no way, and an answer that an
assignment was found comes with a model of all clauses that were added. So it is without this
simplification, if there was no pass yet, or if no clause that is left is empty or has a
variable with a forced value. With the final check the model is right in any case, when there
is an answer. -/
theorem solve_after_additions [LawfulSource γ] (g : γ) (rs : List (Request n))
    (hrs : ∀ r ∈ rs, r.isIncremental = true) :
    let s := (silent n g).run rs
    (∃ status t, solve (s.after .simplify) = .ok status t ∧ t.Upheld s.added status)
      ∧ ((s.rounds = 0 ∨ ∀ c ∈ s.clauses.toList,
            c ≠ [] ∧ ∀ l ∈ c, s.forced.get l.var = none) →
          ∃ status t, solve s = .ok status t ∧ t.Upheld s.added status)
      ∧ ∀ status t, solve s = .ok status t → s.options.checkModel = true →
          t.Upheld s.added status := by
  intro s
  have hreporting : s.reporting = (some (.int 0), some (.int 1000)) := reporting_additions hrs
  have hreport : ∀ {t : Solver n γ}, t.reporting = s.reporting → ∀ e, ¬t.ReportFault e := by
    intro t ht
    obtain ⟨hlevel, hinterval⟩ := Prod.mk.inj (ht.trans hreporting)
    exact not_reportFault (by rw [hlevel]; rfl) ⟨_, hinterval, rfl⟩
  refine ⟨?_, fun h => ?_, fun status t ht hcheck => ?_⟩
  · have hadded : (s.after .simplify).added = s.added := (propagates_after_simplify s).added
    have hkeeps : (s.after .simplify).reporting = s.reporting :=
      congrArg Prod.snd (settings_after rfl s)
    rw [← hadded]
    exact exists_solve_of_sound (sound_additions_simplify hrs (hreport rfl)) (hreport hkeeps)
  · exact exists_solve_of_sound (sound_additions hrs h) (hreport rfl)
  · exact (leads_solve_checked hcheck).ok ht

/-- A clause that is added after a solve, and is false by a forced value, is taken into account
by a simplification. -/
theorem solve_after_additions_of_implication :
    let rs : List (Request 2) := [.addClause (.arr [.int 1]), .solve,
      .addClause (.arr [.int (-1), .int 2])]
    let s := (silent 2 Tape.zero).run rs
    (∀ r ∈ rs, r.isIncremental = true) ∧ s.forced.Flags ⟨0, true⟩
      ∧ ∃ t a, solve (s.after .simplify) = .ok .satisfied t ∧ t.model = some a
        ∧ a.Satisfies s.added.toList := by
  intro rs s
  have hrs : ∀ r ∈ rs, r.isIncremental = true := by simp [rs, Request.isIncremental]
  have hforced : s.forced.Flags ⟨0, true⟩ := by
    subst s rs
    rw [Forced.Flags]
    decide +kernel
  obtain ⟨status, t, ht, hmodel⟩ := (solve_after_additions Tape.zero rs hrs).1
  have hrun : Leads solve (s.after .simplify) (fun status _ => status = .satisfied)
      fun _ _ => False := by
    subst s rs
    decide +kernel
  obtain rfl := hrun.ok ht
  obtain ⟨a, ha, hsat⟩ := hmodel rfl
  exact ⟨hrs, hforced, t, a, ht, ha, hsat⟩

/-- **Without a simplification, a solve may miss an addition.** Against the value that the
first clause has forced, the second one is searched for as it is. The only flip there is goes
back on the forced value. With the final check the solve then fails, and without it an
assignment is accepted that does not satisfy the first clause. An empty clause that is added
after a solve makes the next one fail. -/
theorem solve_misses_additions :
    let rs : Bool → List (Request 1) := fun check => [.setOption "check-model" (.bool check),
      .addClause (.arr [.int 1]), .solve, .addClause (.arr [.int (-1)])]
    let rs' : List (Request 1) := [.solve, .addClause (.arr [])]
    (∀ check, ∀ r ∈ rs check, r.isIncremental = true) ∧ (∀ r ∈ rs', r.isIncremental = true)
      ∧ (∃ e t, solve ((silent 1 Tape.zero).run (rs true)) = .error e t
          ∧ e.message = "Invalid solution found!")
      ∧ (∃ t a, solve ((silent 1 Tape.zero).run (rs false)) = .ok .satisfied t
          ∧ t.model = some a ∧ [⟨0, true⟩] ∈ ((silent 1 Tape.zero).run (rs false)).added.toList
          ∧ ¬a.Satisfies [[⟨0, true⟩]])
      ∧ ∃ e t, solve ((silent 1 Tape.zero).run rs') = .error e t := by
  intro rs rs'
  have hrs : ∀ check, ∀ r ∈ rs check, r.isIncremental = true := by
    simp [rs, Request.isIncremental]
  have hrs' : ∀ r ∈ rs', r.isIncremental = true := by simp [rs', Request.isIncremental]
  have hfails : Leads solve ((silent 1 Tape.zero).run (rs true)) (fun _ _ => False)
      fun e _ => e.message = "Invalid solution found!" := by
    subst rs rs'
    decide +kernel
  have hwrong : Leads solve ((silent 1 Tape.zero).run (rs false))
      (fun status t => status = .satisfied ∧ t.model = some (Vector.replicate 1 false))
      fun _ _ => False := by
    subst rs rs'
    decide +kernel
  have hempty : Leads solve ((silent 1 Tape.zero).run rs') (fun _ _ => False)
      fun _ _ => True := by
    subst rs rs'
    decide +kernel
  obtain ⟨e, t, ht, hmessage⟩ := hfails.exists_error
  obtain ⟨status, u, hu, rfl, hmodel⟩ := hwrong.exists_ok
  obtain ⟨e', v, hv, -⟩ := hempty.exists_error
  refine ⟨hrs, hrs', ⟨e, t, ht, hmessage⟩, ⟨u, _, hu, hmodel, ?_, ?_⟩, e', v, hv⟩
  · subst rs rs'
    decide +kernel
  · rw [Assignment.Satisfies]
    decide

end Solver

end LocalSat
