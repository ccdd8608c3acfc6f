/-
What propagation does to a solver.

* `Solver.known`: what a solver knows about its clauses;
* `Retains s t`: what is forced or refuted in `s` stays so in `t`;
* `Propagates s t`: from `s` to `t` the clauses were replaced by others with the same
  models, or refuted;
* `leads_simplify`: this is what a simplification does, also when it cannot report;
* `Settled s`: the clauses that are left have been propagated, or they are those that were
  added; `settled_of_simplify` keeps it;
* `Grounded s f`: the clauses that are left make up for those that were added, together with
  the forced values in `f`; `sound_of_simplify` keeps it.
-/
import LocalSat.Proofs.Outcome
import LocalSat.Proofs.Propagation.Closure
import LocalSat.Proofs.Solver.Search

namespace LocalSat.Solver

variable {n : Nat} {γ : Type} {s t u : Solver n γ}

/-! ### What a solver knows -/

/-- What a solver knows about its clauses: whether they are refuted, how they were added,
which are left, what is forced, and how many passes there were. -/
def known (s : Solver n γ) : Bool × Array (Clause n) × Array (Clause n) × Forced n × Nat :=
  (s.ok, s.added, s.clauses, s.forced, s.rounds)

/-- The parts of what a solver knows. -/
lemma known_eq_iff : t.known = s.known ↔
    t.ok = s.ok ∧ t.added = s.added ∧ t.clauses = s.clauses ∧ t.forced = s.forced
      ∧ t.rounds = s.rounds := by
  simp [known]

/-- What is known belongs to the base of a solver. -/
lemma known_eq_of_base_eq (h : t.base = s.base) : t.known = s.known :=
  congrArg (fun b : Solver n Unit => (b.ok, b.added, b.clauses, b.forced, b.rounds)) h

/-! ### Propagation -/

/-- An assignment satisfies the clauses that are left and agrees with the forced values. -/
def Admits (s : Solver n γ) (a : Assignment n) : Prop :=
  a.Satisfies s.clauses.toList ∧ s.forced.Agrees a

/-- What is forced and what is refuted stays so. -/
structure Retains (s t : Solver n γ) : Prop where
  /-- What was forced stays so. -/
  keeps : ∀ l, s.forced.Flags l → t.forced.Flags l
  /-- Refuted clauses stay so. -/
  refuted : s.ok = false → t.ok = false

/-- Nothing is lost where nothing happens. -/
lemma Retains.refl (s : Solver n γ) : s.Retains s := ⟨fun _ => id, id⟩

/-- Nothing is lost step by step. -/
lemma Retains.trans (h : s.Retains t) (h' : t.Retains u) : s.Retains u :=
  ⟨fun l hl => h'.keeps l (h.keeps l hl), fun hs => h'.refuted (h.refuted hs)⟩

/-- Clauses that are not refuted were not refuted before. -/
lemma Retains.ok_of_ok (h : s.Retains t) (ht : t.ok = true) : s.ok = true := by
  by_contra hne
  rw [h.refuted (by simpa using hne)] at ht
  cases ht

/-- The clauses of a solver were replaced by others with the same models, or refuted. -/
structure Propagates (s t : Solver n γ) : Prop extends Retains s t where
  /-- No clause was added. -/
  added : t.added = s.added
  /-- Clauses that are not refuted keep their models. -/
  models : t.ok = true → ∀ a, s.Admits a ↔ t.Admits a
  /-- Clauses that were refuted have had no model. -/
  unsatisfiable : s.ok = true → t.ok = false → ∀ a, ¬s.Admits a

namespace Propagates

/-- Nothing has happened where nothing else is known. -/
lemma of_known (h : t.known = s.known) : s.Propagates t := by
  obtain ⟨hok, hadded, hcl, hf, -⟩ := known_eq_iff.1 h
  refine ⟨⟨fun l hl => hf ▸ hl, fun hs => hok ▸ hs⟩, hadded, fun _ a => ?_, fun hs ht => ?_⟩
  · rw [Admits, Admits, hcl, hf]
  · simp [hok, hs] at ht

/-- Propagation goes on. -/
lemma trans (h : s.Propagates t) (h' : t.Propagates u) : s.Propagates u where
  toRetains := h.toRetains.trans h'.toRetains
  added := h'.added.trans h.added
  models hu a := (h.models (h'.ok_of_ok hu) a).trans (h'.models hu a)
  unsatisfiable hs hu a := by
    cases ht : t.ok with
    | false => exact h.unsatisfiable hs ht a
    | true => exact fun ha => h'.unsatisfiable ht hu a ((h.models ht a).1 ha)

end Propagates

/-- All passes together propagate. -/
lemma propagates_simplified (hok : s.ok = true) (loud : Bool) :
    s.Propagates (s.simplified loud) := by
  have hp := justified_propagate s.forced s.forcedCount s.clauses.toList
  have hkeeps : ∀ l, s.forced.Flags l → (s.simplified loud).forced.Flags l := by
    cases hres : (propagate s.forced s.forcedCount s.clauses.toList).ok with
    | true => exact (hp.reduces hres).1.keeps
    | false => exact (hp.refutes hres).1.keeps
  refine ⟨⟨hkeeps, fun hs => ?_⟩, rfl, fun hres a => ?_, fun _ hres => ?_⟩
  · rw [hok] at hs
    cases hs
  · exact (hp.reduces hres).1.satisfies_iff a
  · exact (hp.refutes hres).1.not_satisfies

/-- One pass propagates, when only what it forces is kept. -/
lemma propagates_passed (s : Solver n γ) : s.Propagates s.passed := by
  have hp := justified_pass s.forced s.clauses.toList
  rw [passed]
  split
  · next g found heq =>
    rw [heq] at hp
    refine ⟨⟨hp.keeps, fun _ => rfl⟩, rfl, fun h => ?_, fun _ _ => hp.not_satisfies⟩
    cases h
  · next ds g found changed heq =>
    rw [heq] at hp
    have hr : Reduces s.forced g s.clauses.toList ds := hp
    refine ⟨⟨hr.keeps, id⟩, rfl, fun _ a => ?_, fun hs ht => ?_⟩
    · exact and_congr_right fun hcs => hr.agrees_iff hcs
    · rw [hs] at ht
      cases ht

/-- A simplification of refuted clauses does nothing. -/
lemma simplify_of_refuted (hok : s.ok = false) : simplify s = .ok false s := by
  rw [simplify, get_bind_run, if_neg (by simp [hok])]
  rfl

/-- What a simplification leads to: nothing changes if the clauses are refuted, and otherwise
there are all passes, or there is one if it is not known whether to report on it. -/
lemma leads_simplify_of {Q : Solver n γ → Prop} {E : Fault → Solver n γ → Prop}
    (hrefuted : s.ok = false → Q s) (hall : s.ok = true → ∀ loud, Q (s.simplified loud))
    (hone : s.ok = true → ∀ e, s.ReportFault e → E e s.passed) :
    Leads simplify s (fun _ t => Q t) E := by
  cases hok : s.ok with
  | false =>
      rw [Leads, simplify_of_refuted hok]
      exact hrefuted hok
  | true =>
      rw [Leads, simplify_of_ok hok]
      cases hr : s.reports 2 with
      | ok loud => exact hall hok loud
      | error e => exact hone hok e (reportFault_of_reports hr)

/-- A simplification propagates. It only fails with a fault of the report. -/
lemma leads_simplify (s : Solver n γ) :
    Leads simplify s (fun _ t => s.Propagates t)
      fun e t => s.Propagates t ∧ s.ReportFault e :=
  leads_simplify_of (fun _ => .of_known rfl) propagates_simplified
    fun _ _ he => ⟨propagates_passed s, he⟩

/-- A simplification changes the clauses, what is forced, the number of passes and the report
only. -/
lemma fixes_simplify {τ : Type} {f : Solver n γ → τ}
    (hf : ∀ s ok clauses forced forcedCount rounds report,
      f { s with ok, clauses, forced, forcedCount, rounds, report } = f s) :
    Fixes f (simplify : Action n γ Bool) := by
  refine fun s => leads_simplify_of (fun _ => rfl) (fun _ loud => hf s _ _ _ _ _ _) ?_
  intro _ _ _
  rw [passed]
  split
  · exact hf s _ _ _ _ _ _
  · exact hf s _ _ _ _ _ _

/-- A simplification does not touch the model. -/
lemma fixes_model_simplify :
    Fixes (fun s => s.model) (simplify : Action n γ Bool) :=
  fixes_simplify fun _ _ _ _ _ _ _ => rfl

/-- A simplification does not change what is set by hand. -/
lemma fixes_settings_simplify : Fixes settings (simplify : Action n γ Bool) :=
  fixes_simplify fun _ _ _ _ _ _ _ => rfl

/-- A simplification asks nothing of the source. -/
lemma fixes_source_simplify : Fixes source (simplify : Action n γ Bool) :=
  fixes_simplify fun _ _ _ _ _ _ _ => rfl

/-! ### Settled clauses -/

/-- The clauses that are left cannot be reduced, or they are those that were added, and
then none is empty if there was a pass over them. -/
def Settled (s : Solver n γ) : Prop :=
  s.ok = true → Irreducible s.forced s.clauses.toList
    ∨ s.clauses = s.added ∧ (s.rounds ≠ 0 → ∀ c ∈ s.clauses.toList, c ≠ [])

/-- Whether the clauses are settled depends on what is known. -/
lemma Settled.of_known (h : s.Settled) (hk : t.known = s.known) : t.Settled := by
  obtain ⟨hok, hadded, hcl, hf, hr⟩ := known_eq_iff.1 hk
  rwa [Settled, hok, hadded, hcl, hf, hr]

/-- There is at least one pass. -/
lemma length_rounds_propagate (f : Forced n) (count : Nat) (cs : List (Clause n)) :
    0 < (propagate f count cs).rounds.length := by
  rw [propagate]
  split
  · simp
  · split <;> simp

/-- All passes together are some. -/
lemma rounds_simplified (s : Solver n γ) (loud : Bool) : (s.simplified loud).rounds ≠ 0 := by
  have := length_rounds_propagate s.forced s.forcedCount s.clauses.toList
  show s.rounds + _ ≠ 0
  omega

/-- One pass is one more. -/
lemma rounds_passed (s : Solver n γ) : s.passed.rounds = s.rounds + 1 := by
  rw [passed]
  split <;> rfl

/-- All passes together settle the clauses. -/
lemma settled_simplified (s : Solver n γ) (loud : Bool) : (s.simplified loud).Settled := by
  intro hok
  exact .inl ((justified_propagate s.forced s.forcedCount s.clauses.toList).reduces hok).2

/-- Clauses that a pass does not refute are not empty. -/
lemma ne_nil_of_pass {f g : Forced n} {cs ds : List (Clause n)} {found : Nat}
    {changed : Bool} (h : pass f cs = .reduced ds g found changed) : ∀ c ∈ cs, c ≠ [] := by
  rintro c hc rfl
  obtain ⟨g', k, hnil⟩ := exists_refuted_of_nil_mem f hc
  rw [h] at hnil
  cases hnil

/-- One pass leaves settled clauses settled, when only what it forces is kept. -/
lemma Settled.passed (h : s.Settled) (hok : s.ok = true) : s.passed.Settled := by
  have hp := justified_pass s.forced s.clauses.toList
  rw [Solver.passed]
  split
  · intro h
    cases h
  · next ds g found changed heq =>
    rw [heq] at hp
    intro _
    rcases h hok with hirr | ⟨hadded, -⟩
    · refine .inl ?_
      rw [hirr.eq_of_advances hp.toAdvances]
      exact hirr
    · exact .inr ⟨hadded, fun _ => ne_nil_of_pass heq⟩

/-- A simplification leaves settled clauses settled. When it succeeds there has been a
pass, unless the clauses are refuted. -/
lemma settled_of_simplify (h : s.Settled) :
    Leads simplify s (fun _ t => t.Settled ∧ (t.ok = true → t.rounds ≠ 0))
      fun _ t => t.Settled := by
  refine leads_simplify_of (fun hok => ⟨h, fun hs => ?_⟩) (fun _ loud => ?_)
    fun hok _ _ => h.passed hok
  · rw [hok] at hs
    cases hs
  · exact ⟨settled_simplified s loud, fun _ => rounds_simplified s loud⟩

/-! ### Grounded clauses -/

/-- The clauses that are left make up for those that were added, together with some of the
forced values, those in `f`. No clause that is left has a variable with a value in `f`, and
none is empty if there was a pass over them. -/
structure Grounded (s : Solver n γ) (f : Forced n) : Prop where
  /-- The values in `f` are forced. -/
  forced : ∀ l, f.Flags l → s.forced.Flags l
  /-- The clauses leave them alone. -/
  free : ∀ c ∈ s.clauses.toList, ∀ l ∈ c, f.get l.var = none
  /-- What satisfies the clauses that are left and agrees with `f` satisfies all. -/
  satisfies_added : ∀ a : Assignment n, a.Satisfies s.clauses.toList → f.Agrees a →
    a.Satisfies s.added.toList
  /-- A pass leaves no empty clause. -/
  ne_nil : s.rounds ≠ 0 → ∀ c ∈ s.clauses.toList, c ≠ []

namespace Grounded

variable {f g : Forced n}

/-- Whether clauses are grounded depends on what is known. -/
lemma of_known (h : s.Grounded f) (hk : t.known = s.known) : t.Grounded f := by
  obtain ⟨-, hadded, hcl, hf, hr⟩ := known_eq_iff.1 hk
  refine ⟨?_, ?_, ?_, ?_⟩
  · rw [hf]
    exact h.forced
  · rw [hcl]
    exact h.free
  · rw [hcl, hadded]
    exact h.satisfies_added
  · rw [hcl, hr]
    exact h.ne_nil

/-- What agrees with all forced values agrees with those in `f`. -/
lemma agrees (h : s.Grounded f) {a : Assignment n} (ha : s.forced.Agrees a) : f.Agrees a :=
  (f.agrees_iff a).2 fun l hl => (s.forced.agrees_iff a).1 ha l (h.forced l hl)

/-- A flip of a variable that occurs in the clauses leaves the values in `f` alone. -/
lemma agrees_flip (h : s.Grounded f) {a : Assignment n} (ha : f.Agrees a) {c : Clause n}
    (hc : c ∈ s.clauses.toList) {l : Literal n} (hl : l ∈ c) : f.Agrees (a.flip l.var) :=
  Forced.Agrees.flip ha (h.free c hc l hl)

/-- More can be forced. -/
lemma of_flags (h : s.Grounded f) (hg : ∀ l, s.forced.Flags l → g.Flags l) :
    Grounded { s with forced := g } f :=
  ⟨fun l hl => hg l (h.forced l hl), h.free, h.satisfies_added, h.ne_nil⟩

/-- All passes together leave the clauses grounded in all forced values. -/
lemma simplified (h : s.Grounded f) {loud : Bool} (hok : (s.simplified loud).ok = true) :
    (s.simplified loud).Grounded (s.simplified loud).forced := by
  obtain ⟨hred, hirr⟩ :=
    (justified_propagate s.forced s.forcedCount s.clauses.toList).reduces hok
  refine ⟨fun _ => id, fun c hc => (hirr c hc).1.free, fun a ha hagrees => ?_,
    fun _ => hirr.ne_nil⟩
  obtain ⟨hcs, hforced⟩ := (hred.satisfies_iff a).2 ⟨ha, hagrees⟩
  exact h.satisfies_added a hcs (h.agrees hforced)

/-- One pass leaves grounded clauses grounded, when only what it forces is kept. -/
lemma passed (h : s.Grounded f) (hok : s.passed.ok = true) : s.passed.Grounded f := by
  have hp := justified_pass s.forced s.clauses.toList
  rw [Solver.passed] at hok ⊢
  split at hok
  · cases hok
  · next ds g found changed heq =>
    rw [heq] at hp
    have hr : Reduces s.forced g s.clauses.toList ds := hp
    exact ⟨fun l hl => hr.keeps l (h.forced l hl), h.free, h.satisfies_added,
      fun _ => ne_nil_of_pass heq⟩

end Grounded

/-- The clauses are grounded, unless they are refuted. -/
def Sound (s : Solver n γ) : Prop := s.ok = true → ∃ f, s.Grounded f

/-- Whether clauses are sound depends on what is known. -/
lemma Sound.of_known (h : s.Sound) (hk : t.known = s.known) : t.Sound := by
  intro hok
  obtain ⟨f, hf⟩ := h ((known_eq_iff.1 hk).1 ▸ hok)
  exact ⟨f, hf.of_known hk⟩

/-- A simplification leaves sound clauses sound. When it succeeds there has been a pass,
unless the clauses are refuted. -/
lemma sound_of_simplify (h : s.Sound) :
    Leads simplify s (fun _ t => t.Sound ∧ (t.ok = true → t.rounds ≠ 0))
      fun _ t => t.Sound := by
  refine leads_simplify_of (fun hok => ⟨h, fun hs => ?_⟩) (fun hok loud => ?_)
    fun hok _ _ hres => ?_
  · rw [hok] at hs
    cases hs
  · obtain ⟨f, hf⟩ := h hok
    exact ⟨fun hres => ⟨_, hf.simplified hres⟩, fun _ => rounds_simplified s loud⟩
  · obtain ⟨f, hf⟩ := h hok
    exact ⟨f, hf.passed hres⟩

end LocalSat.Solver
