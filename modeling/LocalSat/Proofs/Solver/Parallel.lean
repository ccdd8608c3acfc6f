/-
Solvers that go alike but for their reports.

* `Parallel R`: solvers that are related by `R` are set alike, and stay related under every
  change that a solve makes; their reports are free;
* `Parallel.announce`, `Parallel.progress`, `Parallel.acceptModel`, `Parallel.finished`: what
  such solvers do agrees; `Parallel.lockstep`: so do their searches;
* `Parallel.underway`, `Parallel.concluded`: so do the searches of solves within the same
  budget, and their ends;
* `agree_simplify`: when simplifications agree.
-/
import LocalSat.Proofs.Solver.Lockstep
import LocalSat.Proofs.Solver.Solve

namespace LocalSat.Solver

variable {n : Nat} {γ : Type}

/-- Solvers that are related search, check and report alike, and stay related with all that a
solve changes. What is on their reports does not matter. -/
structure Parallel (R : Solver n γ → Solver n γ → Prop) : Prop where
  /-- What the search depends on is the same. -/
  same : ∀ {s t}, R s t → s.SameSearch t
  /-- What the reports depend on is the same. -/
  reporting : ∀ {s t}, R s t → t.reporting = s.reporting
  /-- What the final check depends on is the same. -/
  checks : ∀ {s t}, R s t → t.options.checkModel = s.options.checkModel ∧ t.added = s.added
  /-- The source goes on. -/
  source : ∀ {s t} source, R s t → R { s with source } { t with source }
  /-- The assignment changes. -/
  values : ∀ {s t} values, R s t → R { s with values } { t with values }
  /-- The index changes. -/
  index : ∀ {s t} index, R s t → R { s with index } { t with index }
  /-- A search is started. -/
  started : ∀ {s t} a source, R s t → R (s.started a source) (t.started a source)
  /-- A flip is recorded. -/
  recorded : ∀ {s t} v move, R s t → R (s.recorded v move) (t.recorded v move)
  /-- The reports change. -/
  report : ∀ {s t} r r', R s t → R { s with report := r } { t with report := r' }
  /-- A model is found. -/
  model : ∀ {s t} model, R s t → R { s with model } { t with model }
  /-- There is an outcome. -/
  status : ∀ {s t} status, R s t → R { s with status } { t with status }

namespace Parallel

variable {R : Solver n γ → Solver n γ → Prop} {s t : Solver n γ}

/-- Reports go as far. -/
lemma reports_eq (hR : Parallel R) (h : R s t) (level : Int) :
    t.reports level = s.reports level := by
  rw [reports, reports, (Prod.mk.inj (hR.reporting h)).1]

/-- Announcements agree, whatever their lines are. -/
lemma announce (hR : Parallel R) (h : R s t) (lines lines' : List String) :
    Agree R (announce lines) (announce lines') s t := by
  rw [Solver.announce, Solver.announce, agree_get_bind, hR.reports_eq h]
  refine (agree_attempt h _).bind fun loud u v huv => ?_
  exact .ite (fun _ => agree_modify (hR.report _ _ huv)) fun _ => agree_pure huv _

/-- Rows of the report agree. -/
lemma progress (hR : Parallel R) (h : R s t) : Agree R progress progress s t := by
  have hdue : t.isRowDue = s.isRowDue := by
    rw [isRowDue, isRowDue, (Prod.mk.inj (hR.reporting h)).2, (hR.same h).flips]
  rw [Solver.progress, agree_get_bind, hR.reports_eq h, hdue]
  refine (agree_attempt h _).bind fun loud u v huv => ?_
  refine .ite (fun _ => ?_) fun _ => agree_pure huv _
  refine (agree_attempt huv _).bind fun due u v huv => ?_
  exact .ite (fun _ => agree_modify (hR.report _ _ huv)) fun _ => agree_pure huv _

/-- Such solvers search alike. -/
lemma lockstep (hR : Parallel R) : Lockstep R where
  same := hR.same
  source := hR.source
  values := hR.values
  index := hR.index
  started := hR.started
  recorded := hR.recorded
  progress := hR.progress

/-- The final checks agree. -/
lemma acceptModel (hR : Parallel R) (h : R s t) :
    Agree R acceptModel acceptModel s t := by
  have hvalues : t.values = s.values := (hR.same h).values
  obtain ⟨hcheck, hadded⟩ := hR.checks h
  have hfails : (t.values.any fun a => t.options.checkModel && !t.confirms a)
      = s.values.any fun a => s.options.checkModel && !s.confirms a := by
    have hconfirms : t.confirms = s.confirms := by
      funext a
      rw [confirms, confirms, hadded]
    rw [hvalues, hcheck, hconfirms]
  have hmodel : R { s with model := s.values } { t with model := t.values } := by
    have heq : ({ t with model := s.values } : Solver n γ) = { t with model := t.values } :=
      congrArg (fun m => { t with model := m }) hvalues.symm
    exact heq ▸ hR.model s.values h
  rw [Agree, Leads, acceptModel_run, acceptModel_run, hfails]
  cases s.values.any fun a => s.options.checkModel && !s.confirms a with
  | true => exact ⟨_, rfl, hmodel⟩
  | false => exact ⟨_, rfl, hmodel⟩

/-- The ends of searches agree. -/
lemma finished (hR : Parallel R) (h : R s t) (status : Status) :
    Agree R (finished status) (finished status) s t := by
  rw [Solver.finished]
  refine (agree_modify (hR.status status h)).bind fun _ u v huv => ?_
  refine (hR.announce huv _ _).bind fun _ u v huv => ?_
  refine .ite (fun _ => ?_) fun _ => agree_pure huv _
  exact (hR.acceptModel huv).bind fun _ _ _ huv => agree_pure huv _

end Parallel

/-! ### Solves -/

/-- Simplifications agree where they keep the solvers related, and related solvers have both been
refuted or neither. -/
lemma agree_simplify {R : Solver n γ → Solver n γ → Prop}
    (hok : ∀ {s t}, R s t → t.ok = s.ok) {s t : Solver n γ} (h : R s t)
    (hlevel : t.verbosity = s.verbosity)
    (hsimplified : ∀ loud, R (s.simplified loud) (t.simplified loud))
    (hpassed : R s.passed t.passed) : Agree R simplify simplify s t := by
  have hreports : t.reports 2 = s.reports 2 := by rw [reports, reports, hlevel]
  rw [simplify, agree_get_bind, hok h, hreports]
  refine .ite (fun _ => ?_) fun _ => agree_pure h _
  split
  · next loud _ =>
    have hanswer : (set (t.simplified loud) >>= fun _ => do pure (← get).ok : Action n γ Bool) t
        = .ok (s.simplified loud).ok (t.simplified loud) := by
      rw [← hok (hsimplified loud)]
      rfl
    exact ⟨_, hanswer, hsimplified loud⟩
  · exact ⟨_, rfl, hpassed⟩

variable [RandomSource γ]

/-- The search of a solve once it is set up. -/
def underway : Action n γ Status := do
  let s ← get
  announce (Report.headLines s s.maxFlips)
  let status ← search s.maxFlips
  finished status

lemma solveSearch_eq_underway : (solveSearch : Action n γ Status) = (do
    modify cleared
    initSearch
    underway) := rfl

namespace Parallel

variable {R : Solver n γ → Solver n γ → Prop} {s t : Solver n γ}

/-- Searches within the same budget agree once they are set up. -/
lemma underway (hR : Parallel R) (h : R s t) (hflips : t.maxFlips = s.maxFlips) :
    Agree R underway underway s t := by
  rw [Solver.underway, agree_get_bind, hflips]
  refine (hR.announce h _ _).bind fun _ u v huv => ?_
  exact (hR.lockstep.search _ huv).bind fun status u v huv => hR.finished huv status

/-- The ends of solves agree where related solvers have the same budget, and no flips of
earlier searches are left. -/
lemma concluded (hR : Parallel R) (h : R s t) (hok : t.ok = s.ok)
    (hcleared : R s.cleared t.cleared) (hflips : ∀ {u v}, R u v → v.maxFlips = u.maxFlips) :
    Agree R concluded concluded s t := by
  rw [Solver.concluded, agree_get_bind, hok]
  refine .ite (fun _ => ?_) fun _ => ?_
  · rw [solveSearch_eq_underway]
    refine (agree_modify hcleared).bind fun _ u v huv => ?_
    refine (hR.lockstep.initSearch huv).bind fun _ u v huv => ?_
    exact hR.underway huv (hflips huv)
  · exact (agree_modify (hR.status .contradiction h)).bind fun _ u v huv => agree_pure huv _

end Parallel

end LocalSat.Solver
