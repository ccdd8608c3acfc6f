/-
What a solve leads to.

* `Faithful s U`: the clauses that are left and the forced values have the same models as
  the clauses that were added and the literals in `U`;
* `leads_solveSearch_of`, `leads_concluded_of`, `leads_solve_of`: what a solve leads to, by its
  parts;
* `propagates_solve`: a solve does to the clauses what propagation does;
* `leads_solve_of_sound`, `leads_solve`: on sound clauses, such as settled ones, the answer of
  a solve is right, and what can fail is the source or the report.
-/
import LocalSat.Proofs.Solver.Simplify
import LocalSat.Solver.Solve

namespace LocalSat.Solver

variable {n : Nat} {γ : Type}

/-! ### Models -/

/-- The clauses that are left, with the forced values, have the same models as the clauses
that were added, with the literals in `U`. Refuted clauses have none. -/
structure Faithful (s : Solver n γ) (U : List (Literal n)) : Prop where
  /-- The models. -/
  models : s.ok = true → ∀ a : Assignment n,
    (a.Satisfies s.added.toList ∧ ∀ l ∈ U, a.holds l = true) ↔ s.Admits a
  /-- Refuted clauses. -/
  unsatisfiable : s.ok = false → ∀ a : Assignment n,
    ¬(a.Satisfies s.added.toList ∧ ∀ l ∈ U, a.holds l = true)

/-- Propagation leaves the models as they are. -/
lemma Faithful.propagates {s t : Solver n γ} {U : List (Literal n)} (h : s.Faithful U)
    (hp : s.Propagates t) : t.Faithful U where
  models ht a := by
    rw [hp.added, h.models (hp.ok_of_ok ht) a, hp.models ht a]
  unsatisfiable ht a := by
    rw [hp.added]
    cases hs : s.ok with
    | false => exact h.unsatisfiable hs a
    | true => exact fun ha => hp.unsatisfiable hs ht a ((h.models hs a).1 ha)

/-! ### The parts of a solve -/

/-- An announcement changes the report only, and fails with its faults. -/
lemma leads_announce (lines : List String) (s : Solver n γ) :
    Leads (announce lines) s (fun _ t => ∃ r, t = { s with report := r })
      fun e t => t = s ∧ s.ReportFault e := by
  rw [announce, leads_bind, leads_get, leads_bind]
  cases hl : s.reports 1 with
  | error e => exact ⟨rfl, reportFault_of_reports hl⟩
  | ok loud =>
      rw [leads_attempt_ok, leads_ite]
      split
      · exact ⟨_, rfl⟩
      · exact ⟨_, rfl⟩

/-- The final check takes the current assignment, if there is one, and fails if it is on and
the checker does not confirm it. -/
lemma acceptModel_run (s : Solver n γ) :
    acceptModel s =
      if (s.values.any fun a => s.options.checkModel && !s.confirms a) = true then
        .error .invalidModel { s with model := s.values }
      else .ok () { s with model := s.values } := by
  have key : ∀ values : Option (Assignment n), acceptModel { s with values } =
      if (values.any fun a => s.options.checkModel && !s.confirms a) = true then
        .error .invalidModel { s with values, model := values }
      else .ok () { s with values, model := values } := by
    rintro (_ | a)
    · rfl
    · rw [Option.any_some]
      show (if (s.options.checkModel && !s.confirms a) = true then
        (throw .invalidModel : Action n γ Unit) else pure ()) _ = _
      split <;> rfl
  exact key s.values

/-- The final check takes the current assignment as the model. If it is on, it fails unless
the checker confirms the assignment. -/
lemma leads_acceptModel_cases {s : Solver n γ} {a : Assignment n} (ha : s.values = some a) :
    Leads acceptModel s
      (fun _ t => t = { s with model := some a }
        ∧ (s.options.checkModel = true → s.confirms a = true))
      fun e t => e = .invalidModel ∧ t = { s with model := some a } ∧ s.confirms a = false := by
  rw [Leads, acceptModel_run, ha, Option.any_some]
  cases hbad : s.options.checkModel && !s.confirms a with
  | true =>
      rw [Bool.and_eq_true, Bool.not_eq_true'] at hbad
      exact ⟨rfl, rfl, hbad.2⟩
  | false =>
      refine ⟨rfl, fun hcheck => ?_⟩
      simpa [hcheck] using hbad

/-- The final check accepts an assignment that the checker confirms. -/
lemma leads_acceptModel {s : Solver n γ} {a : Assignment n} (ha : s.values = some a)
    (hc : s.confirms a = true) :
    Leads acceptModel s (fun _ t => t = { s with model := some a }) fun _ _ => False := by
  refine (leads_acceptModel_cases ha).mono (fun _ _ => And.left) ?_
  rintro _ _ ⟨-, -, hbad⟩
  rw [hc] at hbad
  cases hbad

/-- The end of a search of a solve. -/
def finished (status : Status) : Action n γ Status := do
  modify fun s => { s with status }
  announce [Report.separator]
  if status = .satisfied then acceptModel
  pure status

section

variable {τ : Type} {f : Solver n γ → τ}

/-- An announcement changes the report only. -/
lemma fixes_announce (hf : ∀ s r, f { s with report := r } = f s) (lines : List String) :
    Fixes f (announce lines : Action n γ Unit) := by
  intro s
  refine (leads_announce lines s).mono ?_ ?_
  · rintro _ _ ⟨r, rfl⟩
    exact hf s r
  · rintro _ _ ⟨rfl, -⟩
    rfl

/-- The final check changes the model only. -/
lemma fixes_acceptModel (hf : ∀ s m, f { s with model := m } = f s) :
    Fixes f (acceptModel : Action n γ Unit) := by
  refine .bind (.modify fun s => hf s _) fun _ => .bind .get fun s => ?_
  split
  · exact .ite (.throw _) (.pure _)
  · exact .pure _

/-- The end of a search changes the report, the model and the status only. -/
lemma fixes_finished (hreport : ∀ s r, f { s with report := r } = f s)
    (hmodel : ∀ s m, f { s with model := m } = f s) (status : Status)
    (hstatus : ∀ s, f { s with status } = f s) :
    Fixes f (finished status : Action n γ Status) := by
  refine .bind (.modify hstatus) fun _ => .bind (fixes_announce hreport _) fun _ => ?_
  exact .ite (.bind (fixes_acceptModel hmodel) fun _ => .pure _) (.pure _)

end

/-- The end of a search gives the answer of the search. -/
lemma gives_finished (status : Status) :
    Gives (fun answer => answer = status) (finished status : Action n γ Status) := by
  refine .after fun _ => .after fun _ => ?_
  exact .ite (.after fun _ => .pure rfl) (.pure rfl)

/-- What is changed by no search, and depends neither on the model nor on the status. -/
structure Steady {τ : Type} (f : Solver n γ → τ) : Prop where
  /-- No search changes it. -/
  of_base_eq : ∀ {s t}, t.base = s.base → f t = f s
  /-- It does not depend on the model. -/
  model : ∀ s m, f { s with model := m } = f s
  /-- It does not depend on the status. -/
  status : ∀ s x, f { s with status := x } = f s

lemma steady_known : Steady (known : Solver n γ → _) :=
  ⟨known_eq_of_base_eq, fun _ _ => rfl, fun _ _ => rfl⟩

lemma steady_settings : Steady (settings : Solver n γ → _) :=
  ⟨congrArg fun b : Solver n Unit => b.settings, fun _ _ => rfl, fun _ _ => rfl⟩

namespace Steady

variable {α τ : Type} {f : Solver n γ → τ}

/-- What keeps the base of a solver leaves it as it is. -/
lemma fixes (hf : Steady f) {m : Action n γ α} (h : Fixes base m) : Fixes f m :=
  fun s => (h s).mono (fun _ _ => hf.of_base_eq) fun _ _ => hf.of_base_eq

end Steady

variable [RandomSource γ]

/-- A search of a solve is set up, announced, made and finished. -/
lemma solveSearch_eq : (solveSearch : Action n γ Status) = (do
    modify cleared
    initSearch
    let s ← get
    announce (Report.headLines s s.maxFlips)
    let status ← search s.maxFlips
    finished status) := rfl

/-- The end of a solve, after the simplification. -/
def concluded : Action n γ Status := do
  if (← get).ok then solveSearch
  else
    modify fun s => { s with status := .contradiction }
    pure .contradiction

/-- A solve simplifies the clauses if there was no pass yet. -/
lemma solve_eq : (solve : Action n γ Status) = (do
    modify fun s => { s with model := none }
    if (← get).rounds = 0 then
      let _ ← simplify
      concluded
    else
      concluded) := rfl

/-- Where a solve leads is where its end leads, after a simplification if there was no pass
yet. -/
lemma leads_solve_iff {s : Solver n γ} {Q : Status → Solver n γ → Prop}
    {E : Fault → Solver n γ → Prop} :
    Leads solve s Q E ↔
      if s.rounds = 0 then
        Leads simplify { s with model := none } (fun _ t => Leads concluded t Q E) E
      else Leads concluded { s with model := none } Q E := by
  rw [solve_eq, leads_bind, leads_modify, leads_bind, leads_get, leads_ite, leads_bind]

/-- What the end of a solve leads to: a search, unless the clauses are refuted. -/
lemma leads_concluded_of {s : Solver n γ} {Q : Status → Solver n γ → Prop}
    {E : Fault → Solver n γ → Prop} (hsearch : s.ok = true → Leads solveSearch s Q E)
    (hrefuted : s.ok = false → Q .contradiction { s with status := .contradiction }) :
    Leads concluded s Q E := by
  rw [concluded, leads_bind, leads_get, leads_ite]
  split
  · next hok => exact hsearch hok
  · next hok => exact hrefuted (by simpa using hok)

/-- What the search of a solve leads to: a search that starts in agreement with the forced
values, and its end, unless the source or the report fails before. -/
lemma leads_solveSearch_of {F : Fault → Prop} (hF : FaultsWithin γ F) {s : Solver n γ}
    {Q : Status → Solver n γ → Prop} {E : Fault → Solver n γ → Prop}
    (hsource : ∀ e a g, F e → E e { s.cleared with values := some a, source := g })
    (hreport : ∀ e a g, s.ReportFault e → E e (s.cleared.started a g))
    (hsearch : ∀ a g r, s.forced.Agrees a →
      Leads (search s.maxFlips) { s.cleared.started a g with report := r }
        (fun status t => Leads (finished status) t Q E) E) :
    Leads solveSearch s Q E := by
  rw [solveSearch_eq, leads_bind, leads_modify, leads_bind]
  refine (leads_initSearch hF s.cleared).mono ?_ ?_
  swap
  · rintro e _ ⟨he, a, g, rfl⟩
    exact hsource e a g he
  rintro _ _ ⟨a, g, rfl, ha⟩
  rw [leads_bind, leads_get, leads_bind]
  refine (leads_announce _ _).mono ?_ ?_
  swap
  · rintro e _ ⟨rfl, he⟩
    exact hreport e a g he
  rintro _ _ ⟨r, rfl⟩
  rw [leads_bind]
  exact hsearch a g r ha

/-- What an answer of a solve is follows from what its end leads to, where the simplification
has changed neither what is set by hand nor the clauses as they were added. -/
lemma leads_solve_of {s : Solver n γ} {Q : Status → Solver n γ → Prop}
    (h : ∀ {t : Solver n γ}, t.settings = s.settings → t.added = s.added →
      Leads concluded t Q fun _ _ => True) :
    Leads solve s Q fun _ _ => True := by
  rw [leads_solve_iff]
  split
  · refine ((fixes_settings_simplify _).and (leads_simplify _)).mono ?_ fun _ _ _ => trivial
    rintro _ t ⟨hsettings, hp⟩
    exact h hsettings hp.added
  · exact h rfl rfl

lemma Steady.fixes_solveSearch {τ : Type} {f : Solver n γ → τ} (hf : Steady f) :
    Fixes f (solveSearch : Action n γ Status) := by
  rw [solveSearch_eq]
  refine .bind (.modify fun _ => hf.of_base_eq rfl) fun _ => ?_
  refine .bind (hf.fixes fixes_base_initSearch) fun _ => .bind .get fun s => ?_
  have hreport : ∀ s r, f { s with report := r } = f s := fun _ _ => hf.of_base_eq rfl
  refine .bind (fixes_announce hreport _) fun _ => ?_
  refine .bind (hf.fixes (fixes_base_search _)) fun status => ?_
  exact fixes_finished hreport hf.model status fun s => hf.status s status

/-- The end of a solve changes nothing that is steady. -/
lemma Steady.fixes_concluded {τ : Type} {f : Solver n γ → τ} (hf : Steady f) :
    Fixes f (concluded : Action n γ Status) := by
  refine .bind .get fun _ => .ite hf.fixes_solveSearch ?_
  exact .bind (.modify fun s => hf.status s _) fun _ => .pure _

/-- A solve does not change what is set by hand. -/
lemma fixes_settings_solve : Fixes settings (solve : Action n γ Status) := by
  rw [solve_eq]
  refine .bind (.modify fun _ => rfl) fun _ => .bind .get fun s => ?_
  have hend : Fixes settings (concluded : Action n γ Status) := steady_settings.fixes_concluded
  exact .ite (.bind fixes_settings_simplify fun _ => hend) hend

/-- Refuted clauses are reported as such, and nothing is asked of the source. -/
lemma leads_solve_of_refuted {s : Solver n γ} (h : s.ok = false) :
    Leads solve s (fun status t => status = .contradiction ∧ t.source = s.source)
      fun _ _ => False := by
  have hend : Leads concluded { s with model := none }
      (fun status t => status = .contradiction ∧ t.source = s.source) fun _ _ => False := by
    refine leads_concluded_of (fun hok => ?_) fun _ => ⟨rfl, rfl⟩
    simp [h] at hok
  rw [leads_solve_iff]
  split
  · rw [leads_of_ok (simplify_of_refuted (s := { s with model := none }) h)]
    exact hend
  · exact hend

/-- A search of a solve does not answer that the clauses are refuted. -/
lemma gives_solveSearch :
    Gives (fun status => status ≠ .contradiction) (solveSearch : Action n γ Status) := by
  refine .after fun _ => .after fun _ => .after fun s => .after fun _ => ?_
  have hsearch : Gives (fun status => status ≠ .contradiction)
      (search s.maxFlips : Action n γ Status) := by
    refine .after fun _ => fun t => (gives_searchFor _ t).mono ?_ fun _ _ => id
    rintro _ _ (rfl | rfl) h <;> cases h
  refine hsearch.bind fun status h => .after fun _ => .after fun _ => ?_
  exact .ite (.after fun _ => .pure h) (.pure h)

/-- A solve answers that the clauses are refuted only if they are. -/
lemma leads_solve_contradiction (s : Solver n γ) :
    Leads solve s (fun status t => status = .contradiction → t.ok = false)
      fun _ _ => True := by
  refine leads_solve_of fun {t} _ _ => leads_concluded_of (fun _ => ?_) fun hok _ => hok
  exact (gives_solveSearch t).mono (fun status u h hc => absurd hc h) fun _ _ => id

/-- When a solve answers that the clauses are refuted, it has made no search, and only dropped
the model. -/
lemma leads_solve_without_search {τ : Type} {f : Solver n γ → τ} (hsimplify : Fixes f simplify)
    (hstatus : ∀ s x, f { s with status := x } = f s) (s : Solver n γ) :
    Leads solve s (fun status t => status = .contradiction → f t = f { s with model := none })
      fun _ _ => True := by
  have hend : ∀ t : Solver n γ, f t = f { s with model := none } →
      Leads concluded t (fun status u => status = .contradiction → f u = f { s with model := none })
        fun _ _ => True := by
    intro t ht
    refine leads_concluded_of (fun _ => ?_) fun _ _ => (hstatus t _).trans ht
    exact (gives_solveSearch t).mono (fun _ _ h hc => absurd hc h) fun _ _ => id
  rw [leads_solve_iff]
  split
  · exact (hsimplify _).mono (fun _ t ht => hend t ht) fun _ _ _ => trivial
  · exact hend _ rfl

/-- The outcome that a solve keeps is its answer. -/
lemma leads_solve_status (s : Solver n γ) :
    Leads solve s (fun status t => t.status = status) fun _ _ => True := by
  have hfinished : ∀ (status : Status) (t : Solver n γ),
      Leads (finished status) t (fun answer u => u.status = answer) fun _ _ => True := by
    intro status t
    have hrest : Fixes Solver.status (do
        announce [Report.separator]
        if status = .satisfied then acceptModel
        pure status : Action n γ Status) := by
      refine .bind (fixes_announce (fun _ _ => rfl) _) fun _ => ?_
      exact .ite (.bind (fixes_acceptModel fun _ _ => rfl) fun _ => .pure _) (.pure _)
    have hanswer := gives_finished status t
    rw [finished, leads_bind, leads_modify] at hanswer ⊢
    refine ((hrest _).and hanswer).mono ?_ fun _ _ _ => trivial
    rintro _ u ⟨hu, rfl⟩
    exact hu
  refine leads_solve_of fun {t} _ _ => leads_concluded_of (fun _ => ?_) fun _ => rfl
  refine leads_solveSearch_of (faultsWithin_true γ) (fun _ _ _ _ => trivial)
    (fun _ _ _ _ => trivial) fun a g r _ => ?_
  exact (leads_any _ _).mono (fun status u _ => hfinished status u) fun _ _ => id

/-- What depends on something steady only, and is kept by every simplification, is kept by
every solve. -/
lemma leads_solve_keeps {τ : Type} {f : Solver n γ → τ} (hf : Steady f) {P : Solver n γ → Prop}
    (hsteady : ∀ {s t}, P s → f t = f s → P t)
    (hsimplify : ∀ {s}, P s → Leads simplify s (fun _ t => P t) fun _ t => P t)
    {s : Solver n γ} (h : P s) : Leads solve s (fun _ t => P t) fun _ t => P t := by
  have hend : ∀ {t : Solver n γ}, P t →
      Leads concluded t (fun _ u => P u) fun _ u => P u := by
    intro t ht
    exact (hf.fixes_concluded t).mono (fun _ _ => hsteady ht) fun _ _ => hsteady ht
  have hstart : P { s with model := none } := hsteady h (hf.model s none)
  rw [leads_solve_iff]
  split
  · exact (hsimplify hstart).mono (fun _ _ => hend) fun _ _ => id
  · exact hend hstart

/-- Whatever a solver knows, a solve does to the clauses what propagation does. -/
lemma propagates_solve (s : Solver n γ) :
    Leads solve s (fun _ t => s.Propagates t) fun _ t => s.Propagates t := by
  refine leads_solve_keeps steady_known (P := fun t => s.Propagates t)
    (fun h hk => h.trans (.of_known hk)) (fun {t} h => ?_) (.of_known rfl)
  exact (leads_simplify t).mono (fun _ _ => h.trans) fun _ _ hu => h.trans hu.1

/-! ### The answer of a solve -/

omit [RandomSource γ] in
/-- Clauses to which nothing was done are grounded. -/
lemma grounded_of_complete {s : Solver n γ} (h : s.clauses = s.added)
    (hne : s.rounds ≠ 0 → ∀ c ∈ s.clauses.toList, c ≠ []) : s.Grounded (Forced.none n) where
  forced l hl := absurd hl (Forced.not_flags_none l)
  free _ _ l _ := Forced.get_none l.var
  satisfies_added a ha _ := by rwa [← h]
  ne_nil := hne

omit [RandomSource γ] in
/-- Settled clauses that have kept their models are sound. -/
lemma Settled.sound {s : Solver n γ} (h : s.Settled) (hf : s.Faithful []) : s.Sound := by
  intro hok
  rcases h hok with hirr | ⟨hadded, hne⟩
  · exact ⟨s.forced, fun _ => id, fun c hc => (hirr c hc).1.free,
      fun a ha hagrees => ((hf.models hok a).2 ⟨ha, hagrees⟩).1, fun _ => hirr.ne_nil⟩
  · exact ⟨_, grounded_of_complete hadded hne⟩

/-- What a solver holds after an answer: a model of the clauses as they were added, or
none. -/
def Answered (s : Solver n γ) : Status → Prop
  | .satisfied => ∃ a, s.model = some a ∧ a.Satisfies s.added.toList
  | .contradiction => s.model = none
  | .exhausted => s.model = none
  | .undefined => False

omit [RandomSource γ] in
/-- The end of a search accepts the assignment that the search has found. -/
lemma leads_finished {status : Status} {s : Solver n γ} {a : Assignment n}
    (ha : s.values = some a) (hm : s.model = none)
    (hstatus : status = .satisfied ∨ status = .exhausted)
    (hsat : status = .satisfied → a.Satisfies s.added.toList) :
    Leads (finished status) s (fun status t => t.Answered status)
      fun e t => t.model = none ∧ s.ReportFault e := by
  rw [finished, leads_bind, leads_modify, leads_bind]
  refine (leads_announce _ _).mono ?_ ?_
  · rintro _ _ ⟨r, rfl⟩
    rw [leads_ite]
    split
    · next h =>
      subst h
      have haccept := leads_acceptModel (s := { s with status := .satisfied, report := r }) ha
        ((isSatisfied_toInts a s.added.toList).2 (hsat rfl))
      rw [leads_bind]
      refine haccept.mono ?_ fun _ _ => False.elim
      rintro _ _ rfl
      exact ⟨a, rfl, hsat rfl⟩
    · next h =>
      rw [hstatus.resolve_left h]
      exact hm
  · rintro e _ ⟨rfl, he⟩
    exact ⟨hm, he.congr rfl⟩

/-- The search of a solve gives a right answer on grounded clauses. It fails as the source
does, or with a fault of the report, and then there is no model. -/
lemma leads_solveSearch {E : Fault → Prop} (hE : FaultsWithin γ E) {s : Solver n γ}
    {f : Forced n} (h : s.Grounded f) (hr : s.rounds ≠ 0) (hm : s.model = none) :
    Leads solveSearch s (fun status t => t.Answered status)
      fun e t => t.model = none ∧ (E e ∨ s.ReportFault e) := by
  refine leads_solveSearch_of hE (fun e a g he => ⟨hm, .inl he⟩)
    (fun e a g he => ⟨hm, .inr he⟩) fun a g r ha => ?_
  rw [search, leads_bind, leads_get]
  -- the search starts in agreement with `f`, and flips no variable with a value in it
  have hsearch := leads_searchFor hE (P := fun b => f.Agrees b)
    (s.maxFlips - (s.cleared.started a g).counters.flips).toNat
    (s := { s.cleared.started a g with report := r })
    ((tracked_started s.cleared a g).congr rfl rfl rfl) (h.ne_nil hr)
    (fun _ hb _ hc _ hl => h.agrees_flip hb hc hl) (h.agrees ha)
  refine (hsearch.and (fixes_base_searchFor _ _)).mono ?_ ?_
  · rintro status t ⟨⟨hstatus, b, htr, hb, hiff⟩, hbase⟩
    have hmt : t.model = none :=
      (congrArg (fun b : Solver n Unit => b.model) hbase).trans hm
    have hadded : t.added = s.added := congrArg (fun b : Solver n Unit => b.added) hbase
    refine (leads_finished htr.1 hmt hstatus fun hsat => ?_).mono (fun _ _ => id) ?_
    · rw [hadded]
      exact h.satisfies_added b (hiff.1 hsat) hb
    · rintro e u ⟨hmu, he⟩
      exact ⟨hmu, .inr (he.of_base_eq hbase)⟩
  · rintro e t ⟨he, hbase⟩
    exact ⟨(congrArg (fun b : Solver n Unit => b.model) hbase).trans hm, he⟩

/-- The end of a solve gives a right answer. -/
lemma leads_concluded {E : Fault → Prop} (hE : FaultsWithin γ E) {s : Solver n γ}
    (h : s.Sound) (hr : s.ok = true → s.rounds ≠ 0) (hm : s.model = none) :
    Leads concluded s (fun status t => t.Answered status)
      fun e t => t.model = none ∧ (E e ∨ s.ReportFault e) := by
  refine leads_concluded_of (fun hok => ?_) fun _ => hm
  obtain ⟨f, hf⟩ := h hok
  exact leads_solveSearch hE hf (hr hok) hm

/-- A solve of sound clauses gives a right answer. It fails as the source does, or with a
fault of the report, and then there is no model. -/
lemma leads_solve_of_sound {E : Fault → Prop} (hE : FaultsWithin γ E) {s : Solver n γ}
    (h : s.Sound) :
    Leads solve s (fun status t => t.Answered status)
      fun e t => t.model = none ∧ (E e ∨ s.ReportFault e) := by
  have hstart : Sound { s with model := none } := h.of_known rfl
  rw [leads_solve_iff]
  split
  · have hsimp := ((leads_simplify { s with model := none }).and
      (sound_of_simplify hstart)).and ((fixes_model_simplify { s with model := none }).and
      (fixes_settings_simplify { s with model := none }))
    refine hsimp.mono ?_ ?_
    · rintro _ t ⟨⟨-, hsound, hr⟩, hm, hsettings⟩
      refine (leads_concluded hE hsound hr hm).mono (fun _ _ => id) ?_
      rintro e u ⟨hmu, he⟩
      exact ⟨hmu, he.imp_right fun hfault => hfault.congr (congrArg Prod.snd hsettings)⟩
    · rintro e t ⟨⟨⟨-, he⟩, -⟩, hm, -⟩
      exact ⟨hm, .inr (he.congr rfl)⟩
  · next hr => exact leads_concluded hE hstart (fun _ => hr) rfl

/-- A solve of settled clauses gives a right answer. It fails as the source does, or with a
fault of the report, and then there is no model. -/
lemma leads_solve {E : Fault → Prop} (hE : FaultsWithin γ E) {s : Solver n γ}
    (h : s.Settled) (hf : s.Faithful []) :
    Leads solve s (fun status t => t.Answered status)
      fun e t => t.model = none ∧ (E e ∨ s.ReportFault e) :=
  leads_solve_of_sound hE (h.sound hf)

end LocalSat.Solver
