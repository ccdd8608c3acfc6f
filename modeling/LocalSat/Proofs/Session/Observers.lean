/-
Settings that only observe a search.

* `Solver.unobserved`: a solver without the settings that only observe the search, and without
  what they give: the report, the record of the flips and its first assignment;
* `Alike s t`: two solvers are the same but for these, and both can report;
* `lockstep_alike`, `agree_simplify_alike`, `agree_solve_alike`: they go alike; the final check
  fails in neither, since the clauses are sound;
* `Request.isObserving`, `Request.isReportable`: the requests that only change such a setting,
  and those after which reports can be made;
* `alike_after`, `alike_run_filter`: the former can be left out of a session;
* `solve_unobserved`: observers do not perturb the solves of a session.
-/
import LocalSat.Proofs.Random.Logged
import LocalSat.Proofs.Session.Additions
import LocalSat.Proofs.Solver.Lockstep

namespace LocalSat

variable {n : Nat} {γ : Type}

namespace Solver

/-! ### Solvers without observers -/

/-- The solver without the settings that only observe the search, and without what they
give. -/
def unobserved (s : Solver n γ) : Solver n γ :=
  { s with
    options := { s.options with checkModel := true, recordTrace := false }
    verbosity := none
    progressInterval := none
    initial := none
    trace := #[]
    report := #[] }

/-- Two solvers are the same but for their observers, and both can report. -/
structure Alike (s t : Solver n γ) : Prop where
  /-- All else is the same. -/
  same : t.unobserved = s.unobserved
  /-- The first one can report. -/
  left : ∀ e, ¬s.ReportFault e
  /-- The second one can report. -/
  right : ∀ e, ¬t.ReportFault e

namespace Alike

variable {s t u s' t' : Solver n γ}

lemma refl (h : ∀ e, ¬s.ReportFault e) : Alike s s := ⟨rfl, h, h⟩

/-- Two solvers that are like a third one are alike. -/
lemma join (h : Alike s u) (h' : Alike t u) : Alike s t :=
  ⟨h'.same.symm.trans h.same, h.left, h'.left⟩

/-- Two such solvers stay so under changes that are the same without the observers, and do not
touch how they report. -/
lemma of_eq (h : Alike s t) (f : Solver n γ → Solver n γ)
    (hs : s'.unobserved = f s.unobserved) (ht : t'.unobserved = f t.unobserved)
    (hs' : s'.reporting = s.reporting) (ht' : t'.reporting = t.reporting) : Alike s' t' where
  same := ht.trans ((congrArg f h.same).trans hs.symm)
  left e he := h.left e (he.congr hs')
  right e he := h.right e (he.congr ht')

/-- They stay so under the same change. -/
lemma map {f : Solver n γ → Solver n γ} (h : Alike s t)
    (hf : ∀ u, (f u).unobserved = (f u.unobserved).unobserved)
    (hreporting : ∀ u, (f u).reporting = u.reporting) : Alike (f s) (f t) :=
  h.of_eq (fun u => (f u).unobserved) (hf s) (hf t) (hreporting s) (hreporting t)

/-- What does not depend on the observers is the same. -/
lemma congr {τ : Type} (h : Alike s t) (f : Solver n γ → τ) (hf : ∀ u, f u = f u.unobserved) :
    f t = f s :=
  (hf t).trans ((congrArg f h.same).trans (hf s).symm)

lemma ok_eq (h : Alike s t) : t.ok = s.ok := h.congr (fun u => u.ok) fun _ => rfl

lemma values_eq (h : Alike s t) : t.values = s.values := h.congr (fun u => u.values) fun _ => rfl

end Alike

/-! ### What goes alike -/

section

variable {s t : Solver n γ}

/-- Operations that only report agree. -/
lemma agree_reporting {m m' : Action n γ Unit} (h : Alike s t)
    (hm : Leads m s (fun _ u => ∃ r, u = { s with report := r }) fun e u => u = s ∧ s.ReportFault e)
    (hm' : Leads m' t (fun _ v => ∃ r, v = { t with report := r })
      fun e v => v = t ∧ t.ReportFault e) : Agree Alike m m' s t := by
  obtain ⟨_, v, hv, r', rfl⟩ := (hm'.mono (fun _ _ => id) fun e _ he => h.right e he.2).exists_ok
  refine hm.mono ?_ fun e _ he => absurd he.2 (h.left e)
  rintro _ _ ⟨r, rfl⟩
  exact ⟨_, hv, h.of_eq id rfl rfl rfl rfl⟩

/-- Solvers that are alike but for their observers search alike. -/
lemma lockstep_alike : Lockstep (Alike : Solver n γ → Solver n γ → Prop) where
  same h :=
    { clauses := h.congr clauses fun _ => rfl
      forced := h.congr forced fun _ => rfl
      policy := h.congr policy fun _ => rfl
      values := h.values_eq
      index := h.congr index fun _ => rfl
      flips := h.congr (fun u => u.counters.flips) fun _ => rfl
      source := h.congr source fun _ => rfl }
  source source h := h.map (f := fun u => { u with source }) (fun _ => rfl) fun _ => rfl
  values values h := h.map (f := fun u => { u with values }) (fun _ => rfl) fun _ => rfl
  index index h := h.map (f := fun u => { u with index }) (fun _ => rfl) fun _ => rfl
  started a source h := h.map (f := fun u => u.started a source) (fun _ => rfl) fun _ => rfl
  recorded v move h := h.map (f := fun u => u.recorded v move) (fun _ => rfl) fun _ => rfl
  progress {s t} h := agree_reporting h (leads_progress s) (leads_progress t)

/-- A solver that can report knows whether it is to. -/
lemma exists_reports_of_not_fault (h : ∀ e, ¬s.ReportFault e) (level : Int) :
    ∃ loud, s.reports level = .ok loud := by
  cases hr : s.reports level with
  | ok loud => exact ⟨loud, rfl⟩
  | error e => exact absurd (reportFault_of_reports hr) (h e)

/-- Simplifications agree, whatever is reported on them. -/
lemma agree_simplify_alike (h : Alike s t) : Agree Alike simplify simplify s t := by
  cases hok : s.ok with
  | false =>
      have hok' : t.ok = false := h.ok_eq.trans hok
      rw [Agree, Leads, simplify_of_refuted hok]
      exact ⟨t, simplify_of_refuted hok', h⟩
  | true =>
      have hok' : t.ok = true := h.ok_eq.trans hok
      obtain ⟨loud, hloud⟩ := exists_reports_of_not_fault h.left 2
      obtain ⟨loud', hloud'⟩ := exists_reports_of_not_fault h.right 2
      have hsimplified : Alike (s.simplified loud) (t.simplified loud') :=
        h.of_eq (fun u => (u.simplified false).unobserved) rfl rfl rfl rfl
      rw [Agree, Leads, simplify_of_ok hok, hloud, simplify_of_ok hok', hloud']
      refine ⟨_, ?_, hsimplified⟩
      show EStateM.Result.ok (t.simplified loud').ok (t.simplified loud') = _
      rw [hsimplified.ok_eq]

/-- The final check passes where the checker confirms the assignment, whether it is made or
not. -/
lemma acceptModel_of_confirms (h : ∀ a, s.values = some a → s.confirms a = true) :
    acceptModel s = .ok () { s with model := s.values } := by
  rw [acceptModel_run, if_neg]
  rw [Option.any_eq_true]
  rintro ⟨a, ha, hfails⟩
  simp [h a ha] at hfails

/-- The final checks agree, if the checker confirms the assignment. -/
lemma agree_acceptModel_alike (h : Alike s t)
    (hconfirms : ∀ a, s.values = some a → s.confirms a = true) :
    Agree Alike acceptModel acceptModel s t := by
  have hconfirms' : ∀ a, t.values = some a → t.confirms a = true := by
    rwa [h.values_eq, h.congr confirms fun _ => rfl]
  rw [Agree, leads_of_ok (acceptModel_of_confirms hconfirms)]
  refine ⟨_, acceptModel_of_confirms hconfirms', ?_⟩
  exact h.map (f := fun u => { u with model := u.values }) (fun _ => rfl) fun _ => rfl

/-- The ends of searches agree, if the checker confirms what was found. -/
lemma agree_finished_alike {status : Status} (h : Alike s t)
    (hconfirms : status = .satisfied → ∀ a, s.values = some a → s.confirms a = true) :
    Agree Alike (finished status) (finished status) s t := by
  have hstatus : Alike { s with status } { t with status } :=
    h.map (f := fun u => { u with status }) (fun _ => rfl) fun _ => rfl
  have hset : Leads (modify fun s => { s with status }) s (fun _ u => u = { s with status })
      fun (_ : Fault) _ => True := rfl
  rw [finished]
  refine (agree_modify hstatus).bind_of_leads hset ?_
  rintro _ _ v huv rfl
  refine (agree_reporting huv (leads_announce _ _) (leads_announce _ v)).bind_of_leads
    (leads_announce _ _) ?_
  rintro _ _ v huv ⟨r, rfl⟩
  refine .ite (fun hsat => ?_) fun _ => agree_pure huv _
  exact (agree_acceptModel_alike huv (hconfirms hsat)).bind fun _ _ _ huv => agree_pure huv _

end

section

variable [RandomSource γ] {s t : Solver n γ}

/-- The searches of solves agree, since the assignment that is found satisfies all clauses. -/
lemma agree_solveSearch_alike {f : Forced n} (h : Alike s t) (hf : s.Grounded f)
    (hr : s.rounds ≠ 0) : Agree Alike solveSearch solveSearch s t := by
  have hclear : Leads (modify cleared) s (fun _ u => u = s.cleared) fun (_ : Fault) _ => True :=
    rfl
  rw [solveSearch_eq]
  refine (agree_modify (h.map (f := cleared) (fun _ => rfl) fun _ => rfl)).bind_of_leads hclear ?_
  rintro _ _ v huv rfl
  refine (lockstep_alike.initSearch huv).bind_of_leads
    (leads_initSearch (faultsWithin_true γ) s.cleared) ?_
  rintro _ _ v huv ⟨a, g, rfl, ha⟩
  rw [agree_get_bind, huv.congr maxFlips fun _ => rfl]
  refine (agree_reporting huv (leads_announce _ _) (leads_announce _ v)).bind_of_leads
    (leads_announce _ _) ?_
  rintro _ _ v huv ⟨r, rfl⟩
  -- the search starts in agreement with `f`, and flips no variable with a value in it
  have hsearch := leads_searchFor (faultsWithin_true γ) (P := fun b => f.Agrees b)
    (s.maxFlips - (s.cleared.started a g).counters.flips).toNat
    (s := { s.cleared.started a g with report := r })
    ((tracked_started s.cleared a g).congr rfl rfl rfl) (hf.ne_nil hr)
    (fun _ hb _ hc _ hl => hf.agrees_flip hb hc hl) (hf.agrees ha)
  refine (lockstep_alike.search _ huv).bind_of_leads
    (hsearch.and (fixes_base_searchFor _ _)) ?_
  rintro status u v huv ⟨⟨-, b, htracked, hb, hiff⟩, hbase⟩
  have hadded : u.added = s.added := congrArg (fun b : Solver n Unit => b.added) hbase
  refine agree_finished_alike huv fun hsat a ha => ?_
  obtain rfl : b = a := Option.some.inj (htracked.1.symm.trans ha)
  exact (isSatisfied_toInts b u.added.toList).2 (hadded ▸ hf.satisfies_added b (hiff.1 hsat) hb)

/-- So do the ends of solves. -/
lemma agree_concluded_alike (h : Alike s t) (hsound : s.Sound)
    (hr : s.ok = true → s.rounds ≠ 0) : Agree Alike concluded concluded s t := by
  rw [concluded, agree_get_bind, h.ok_eq]
  refine .ite (fun hok => ?_) fun _ => ?_
  · obtain ⟨f, hf⟩ := hsound hok
    exact agree_solveSearch_alike h hf (hr hok)
  · have hstatus : Alike { s with status := .contradiction } { t with status := .contradiction } :=
      h.map (f := fun u => { u with status := .contradiction }) (fun _ => rfl) fun _ => rfl
    exact (agree_modify hstatus).bind fun _ _ _ huv => agree_pure huv _

/-- So do solves. -/
lemma agree_solve_alike (h : Alike s t) (hsound : s.Sound) : Agree Alike solve solve s t := by
  have hmodel : Alike { s with model := none } { t with model := none } :=
    h.map (f := fun u => { u with model := none }) (fun _ => rfl) fun _ => rfl
  have hstart : Sound { s with model := none } := hsound.of_known rfl
  have hdrop : Leads (modify fun s => { s with model := none }) s
      (fun _ u => u = { s with model := none }) fun (_ : Fault) _ => True := rfl
  rw [solve_eq]
  refine (agree_modify hmodel).bind_of_leads hdrop ?_
  rintro _ _ v huv rfl
  rw [agree_get_bind, huv.congr (fun u => u.rounds) fun _ => rfl]
  refine .ite (fun _ => ?_) fun hr => agree_concluded_alike huv hstart fun _ => hr
  refine (agree_simplify_alike huv).bind_of_leads (sound_of_simplify hstart) ?_
  rintro _ u v huv ⟨hu, hr⟩
  exact agree_concluded_alike huv hu hr

end

end Solver

/-! ### Requests -/

/-- Whether an option only observes the search. -/
def OptionName.isObserver : OptionName → Bool
  | checkModel => true
  | recordTrace => true
  | _ => false

/-- The options without those that only observe the search. -/
def Options.unobserved (o : Options) : Options :=
  { o with checkModel := true, recordTrace := false }

/-- Any other option is set as it is without them. -/
lemma Options.put_unobserved (o : Options) {name : OptionName} (h : name.isObserver = false)
    (value : Json) : o.unobserved.put name value = (o.put name value).map unobserved := by
  cases name with
  | flipsFactor =>
      simp only [put, bind, Except.bind]
      cases checkInt OptionName.flipsFactor.text (.int 1) (.int (Number.twoPow 31)) value <;> rfl
  | noise =>
      simp only [put, bind, Except.bind]
      cases checkFloat OptionName.noise.text (.int 0) (.int 1) value <;> rfl
  | zeroBreakFirst => rfl
  | checkModel | recordTrace => cases h

namespace Request

/-- Whether a request only changes how the search is observed. -/
def isObserving : Request n → Bool
  | setOption name _ => (OptionName.ofText? name).any OptionName.isObserver
  | setReport .. => true
  | _ => false

/-- Whether reports can be made after a request: their level is a number and so is their
interval, which is not zero. -/
def isReportable : Request n → Bool
  | setReport verbosity progressInterval =>
      verbosity.isSome && progressInterval.any fun k => !k.isZero
  | _ => true

end Request

namespace Solver

variable [RandomSource γ] {s t : Solver n γ}

/-- After a request that sets the reports as they can be made, they can be made. -/
lemma not_reportFault_after {r : Request n} (hr : r.isReportable = true)
    (h : ∀ e, ¬s.ReportFault e) (e : Fault) : ¬(s.after r).ReportFault e := by
  cases r with
  | setReport verbosity progressInterval =>
      simp only [Request.isReportable, Bool.and_eq_true, Option.any_eq_true,
        Bool.not_eq_true'] at hr
      exact not_reportFault hr.1 hr.2 e
  | setOption | addClause | force | simplify | initSearch | flip | search | solve =>
      exact fun he => h e (he.congr (reporting_after (by simp) s))

/-- A request that only changes how the search is observed changes nothing else. -/
lemma unobserved_after {r : Request n} (hr : r.isObserving = true) (s : Solver n γ) :
    (s.after r).unobserved = s.unobserved := by
  refine of_leads (P := fun t => t.unobserved = s.unobserved) ?_
  cases r with
  | setReport verbosity progressInterval => rfl
  | setOption name value =>
      obtain ⟨option, hoption, hobserver⟩ := (Option.any_eq_true _ _).1 hr
      show Leads (setOption name value) s _ _
      rw [setOption, leads_bind, leads_get, leads_bind, Options.set, hoption]
      cases option with
      | checkModel | recordTrace => rfl
      | flipsFactor | noise | zeroBreakFirst => cases hobserver
  | addClause | force | simplify | initSearch | flip | search | solve => cases hr

/-- What agrees leads to solvers that are alike. -/
lemma alike_of_agree {r : Request n} (h : Agree Alike r.perform r.perform s t) :
    Alike (s.after r) (t.after r) := by
  rw [after, after]
  cases hr : r.perform s with
  | ok a u =>
      obtain ⟨v, hv, huv⟩ := Leads.ok h hr
      rwa [hv]
  | error e u =>
      obtain ⟨v, hv, huv⟩ := Leads.error h hr
      rwa [hv]

omit [RandomSource γ] in
/-- Options other than observers are set alike. -/
lemma agree_setOption_alike (h : Alike s t) {name : String}
    (hname : (OptionName.ofText? name).any OptionName.isObserver = false) (value : Json) :
    Agree Alike (setOption name value) (setOption name value) s t := by
  have hset : (t.options.set name value).map Options.unobserved
      = (s.options.set name value).map Options.unobserved := by
    have hoptions : t.options.unobserved = s.options.unobserved :=
      h.congr (fun u => u.options.unobserved) fun _ => rfl
    rw [Options.set, Options.set]
    cases hoption : OptionName.ofText? name with
    | none => rfl
    | some option =>
        have hother : option.isObserver = false := by rwa [hoption] at hname
        show (t.options.put option value).map _ = (s.options.put option value).map _
        rw [← Options.put_unobserved _ hother, hoptions, Options.put_unobserved _ hother]
  rw [setOption, agree_get_bind]
  cases hs : s.options.set name value with
  | error e =>
      cases ht : t.options.set name value with
      | error e' =>
          rw [hs, ht] at hset
          obtain rfl : e' = e := Except.error.inj hset
          exact ⟨t, rfl, h⟩
      | ok p =>
          rw [hs, ht] at hset
          cases hset
  | ok o =>
      cases ht : t.options.set name value with
      | error e =>
          rw [hs, ht] at hset
          cases hset
      | ok p =>
          rw [hs, ht] at hset
          have hoptions : p.unobserved = o.unobserved := Except.ok.inj hset
          refine ⟨{ t with options := p }, rfl, ?_, fun e he => h.left e (he.congr rfl),
            fun e he => h.right e (he.congr rfl)⟩
          show { t.unobserved with options := p.unobserved }
            = { s.unobserved with options := o.unobserved }
          rw [h.same, hoptions]

/-- Any other request leads to solvers that are alike, if all clauses are sound when it is to
solve. -/
lemma alike_after {r : Request n} (h : Alike s t) (hr : r.isObserving = false)
    (hsound : r = .solve → s.Sound) : Alike (s.after r) (t.after r) := by
  have hdrop : ∀ {α : Type} {m : Action n γ α}, Agree Alike m m s t →
      Agree Alike (do let _ ← m; pure ()) (do let _ ← m; pure ()) s t :=
    fun hm => hm.bind fun _ _ _ huv => agree_pure huv _
  refine alike_of_agree ?_
  cases r with
  | setOption name value => exact agree_setOption_alike h hr value
  | setReport verbosity progressInterval => cases hr
  | addClause value =>
      exact (agree_attempt h _).bind fun c _ _ huv =>
        agree_modify (huv.map (f := fun u => u.pushClause c) (fun _ => rfl) fun _ => rfl)
  | force l =>
      refine hdrop ?_
      rw [Agree, Leads, force_eq, force_eq, h.congr (fun u => u.forced) fun _ => rfl]
      cases s.forced.force? l with
      | none => exact ⟨t, rfl, h⟩
      | some forced =>
          exact ⟨_, rfl, h.map (f := fun u => { u with forced }) (fun _ => rfl) fun _ => rfl⟩
  | simplify => exact hdrop (agree_simplify_alike h)
  | initSearch => exact lockstep_alike.initSearch h
  | flip v => exact lockstep_alike.flipVariable h v
  | search maxFlips => exact hdrop (lockstep_alike.search maxFlips h)
  | solve => exact hdrop (agree_solve_alike h (hsound rfl))

/-- Requests that only change how the search is observed can be left out, where clauses are
sound when they are solved. -/
lemma alike_run_filter {P : Solver n γ → Prop} {rs : List (Request n)}
    (hkeep : ∀ r ∈ rs, ∀ u, P u → P (u.after r))
    (hsound : ∀ r ∈ rs, r = .solve → ∀ u, P u → u.Sound)
    (hreport : ∀ r ∈ rs, r.isReportable = true) (h : Alike s t) (hs : P s) :
    Alike (s.run rs) (t.run (rs.filter fun r => !r.isObserving)) := by
  induction rs generalizing s t with
  | nil => exact h
  | cons r rs ih =>
      simp only [List.forall_mem_cons] at hkeep hsound hreport
      have hrest := fun {u v : Solver n γ} => ih (s := u) (t := v) hkeep.2 hsound.2 hreport.2
      rw [List.filter_cons]
      cases hr : r.isObserving with
      | true =>
          refine hrest ⟨?_, not_reportFault_after hreport.1 h.left, h.right⟩ (hkeep.1 s hs)
          rw [h.same, unobserved_after hr]
      | false =>
          exact hrest (alike_after h hr fun hsolve => hsound.1 hsolve s hs) (hkeep.1 s hs)

/-- So can they in a session in which all clauses are added before the first simplification or
solve. -/
lemma alike_session_filter (g : γ) {setup later : List (Request n)}
    (hsetup : ∀ r ∈ setup, r.isPreparing = true) (hlater : ∀ r ∈ later, r.isFinal = true)
    (hreport : ∀ r ∈ setup ++ later, r.isReportable = true) :
    Alike (((new n g).run setup).run later)
      (((new n g).run (setup.filter fun r => !r.isObserving)).run
        (later.filter fun r => !r.isObserving)) := by
  rw [List.forall_mem_append] at hreport
  have hbuilt := alike_run_filter (P := fun _ => True) (fun _ _ _ _ => trivial)
    (fun r hr hsolve => absurd (hsetup r hr) (by simp [hsolve, Request.isPreparing])) hreport.1
    (.refl (not_reportFault_new n g)) trivial
  have hsound : ((new n g).run setup).Sound :=
    sound_run g hsetup (by simp : ∀ r ∈ ([] : List (Request n)), r.isFinal = true)
  exact alike_run_filter (P := fun u => u.Sound) (fun r hr _ hu => sound_after hu (hlater r hr))
    (fun _ _ _ _ => id) hreport.2 hbuilt hsound

/-- Requests that only change how the search is observed may be made at any time. -/
lemma forall_of_filter_eq {p : Request n → Bool} (hp : ∀ r, r.isObserving = true → p r = true)
    {rs rs' : List (Request n)}
    (h : rs'.filter (fun r => !r.isObserving) = rs.filter fun r => !r.isObserving)
    (hrs : ∀ r ∈ rs, p r = true) : ∀ r ∈ rs', p r = true := by
  intro r hr
  cases hobserving : r.isObserving with
  | true => exact hp r hobserving
  | false =>
      have hmem : r ∈ rs'.filter fun r => !r.isObserving :=
        List.mem_filter.2 ⟨hr, by rw [hobserving]; rfl⟩
      rw [h] at hmem
      exact hrs r (List.mem_filter.1 hmem).1

/-- **Observers do not perturb solves.** Let all clauses be added before the first simplification
or solve, and let anything else be asked in any order. Let another session differ in requests only
that set the report, the final check or the record of the flips, and let the reports of both be at
a level that is a number and at an interval that is one other than zero. Then the solvers are the
same at the end, and after a further solve again, but for these settings, the report, the recorded
flips and the assignment at the start of the last recorded search. So the outcome, the model, the
assignment and its index, the counters, the best number of residual clauses, the passes and the
forced values are the same, and the sources have been asked the same questions in the same order.
Both solves give the same answer or fail alike; with a lawful source they do not fail. -/
theorem solve_unobserved (g : γ) (setup later setup' later' : List (Request n))
    (hsetup : ∀ r ∈ setup, r.isPreparing = true) (hlater : ∀ r ∈ later, r.isFinal = true)
    (hreport : ∀ r ∈ setup ++ later, r.isReportable = true)
    (hreport' : ∀ r ∈ setup' ++ later', r.isReportable = true)
    (hsame : setup'.filter (fun r => !r.isObserving) = setup.filter fun r => !r.isObserving)
    (hsame' : later'.filter (fun r => !r.isObserving) = later.filter fun r => !r.isObserving) :
    let s : Solver n (Logged γ) := ((new n (Logged.ofSource g)).run setup).run later
    let t : Solver n (Logged γ) := ((new n (Logged.ofSource g)).run setup').run later'
    t.unobserved = s.unobserved
      ∧ Agree (fun u v => v.unobserved = u.unobserved) solve solve s t
      ∧ (LawfulSource γ → ∃ status u v, solve s = .ok status u ∧ solve t = .ok status v) := by
  intro s t
  have hpreparing : ∀ r : Request n, r.isObserving = true → r.isPreparing = true := by
    rintro (_ | _ | _ | _ | _ | _ | _ | _ | _) h <;> first | rfl | cases h
  have hfinal : ∀ r : Request n, r.isObserving = true → r.isFinal = true := by
    rintro (_ | _ | _ | _ | _ | _ | _ | _ | _) h <;> first | rfl | cases h
  have halike : Alike s t := by
    have hs := alike_session_filter (Logged.ofSource g) hsetup hlater hreport
    have ht := alike_session_filter (Logged.ofSource g)
      (forall_of_filter_eq hpreparing hsame hsetup) (forall_of_filter_eq hfinal hsame' hlater)
      hreport'
    rw [hsame, hsame'] at ht
    exact hs.join ht
  have hsound : s.Sound := sound_run (Logged.ofSource g) hsetup hlater
  have hagree := agree_solve_alike halike hsound
  refine ⟨halike.same, ?_, fun hlawful => ?_⟩
  · exact Leads.mono hagree (fun _ _ ⟨v, hv, huv⟩ => ⟨v, hv, huv.same⟩)
      fun _ _ ⟨v, hv, huv⟩ => ⟨v, hv, huv.same⟩
  · obtain ⟨status, u, hu, -⟩ := exists_solve_of_sound hsound halike.left
    obtain ⟨v, hv, -⟩ := hagree.ok hu
    exact ⟨status, u, v, hu, hv⟩

/-- The second solve of three clauses makes the same two flips in silence as with a report on
each of them, a record and no final check. -/
theorem solve_unobserved_of_flips :
    let setup : List (Request 2) := [.setReport (some (.int 0)) (some (.int 1)),
      .addClause (.arr [.int 1, .int 2]), .addClause (.arr [.int 1, .int (-2)]),
      .addClause (.arr [.int (-1), .int 2])]
    let setup' : List (Request 2) := [.setOption "record-trace" (.bool true),
      .addClause (.arr [.int 1, .int 2]), .addClause (.arr [.int 1, .int (-2)]),
      .setOption "check-model" (.bool false), .addClause (.arr [.int (-1), .int 2])]
    let later : List (Request 2) := [.solve]
    let later' : List (Request 2) := [.solve, .setReport (some (.int 2)) (some (.int 1))]
    let s : Solver 2 (Logged Tape) := ((new 2 (Logged.ofSource Tape.zero)).run setup).run later
    let t : Solver 2 (Logged Tape) := ((new 2 (Logged.ofSource Tape.zero)).run setup').run later'
    (∀ r ∈ setup, r.isPreparing = true) ∧ (∀ r ∈ later, r.isFinal = true)
      ∧ (∀ r ∈ setup ++ later, r.isReportable = true)
      ∧ (∀ r ∈ setup' ++ later', r.isReportable = true)
      ∧ ∃ u v, solve s = .ok .satisfied u ∧ solve t = .ok .satisfied v
        ∧ v.unobserved = u.unobserved ∧ u.counters.flips = 2
        ∧ u.report.size = 0 ∧ v.report.size ≠ 0 ∧ u.trace.size = 0 ∧ v.trace.size = 2 := by
  intro setup setup' later later' s t
  have hsetup : ∀ r ∈ setup, r.isPreparing = true := by simp [setup, Request.isPreparing]
  have hlater : ∀ r ∈ later, r.isFinal = true := by simp [later, Request.isFinal]
  have hreport : ∀ r ∈ setup ++ later, r.isReportable = true := by decide +kernel
  have hreport' : ∀ r ∈ setup' ++ later', r.isReportable = true := by decide +kernel
  have hrun : Leads solve s (fun status u => status = .satisfied ∧ u.counters.flips = 2
      ∧ u.report.size = 0 ∧ u.trace.size = 0) fun _ _ => False := by
    subst s later setup
    decide +kernel
  have hrun' : Leads solve t (fun _ v => v.report.size ≠ 0 ∧ v.trace.size = 2)
      fun _ _ => False := by
    subst t later' setup'
    decide +kernel
  obtain ⟨-, hagree, -⟩ :=
    solve_unobserved Tape.zero setup later setup' later' hsetup hlater hreport hreport' rfl rfl
  obtain ⟨status, u, hu, rfl, hflips, hsilent, hunrecorded⟩ := hrun.exists_ok
  obtain ⟨v, hv, huv⟩ := hagree.ok hu
  obtain ⟨hloud, hrecorded⟩ := hrun'.ok hv
  exact ⟨hsetup, hlater, hreport, hreport', u, v, hu, hv, huv, hflips, hsilent, hloud,
    hunrecorded, hrecorded⟩

end Solver

end LocalSat
