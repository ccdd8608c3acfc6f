/-
The number of passes and of forced values.

* `Solver.Tallies s t`: what the passes from `s` to `t` add to the two numbers that a solver
  keeps; `tallies_reached_simplify` says that a simplification adds that much, also when it
  refutes the clauses or cannot report;
* `forcedCount_run`: without literals that are made true by hand the number of forced values is
  that of the variables with one;
* `simplify_rounds`: a simplification makes at most two passes more than it forces values.
-/
import LocalSat.Proofs.Propagation.Rounds
import LocalSat.Proofs.Session.Models
import LocalSat.Proofs.Solver.Increment

namespace LocalSat.Solver

variable {n : Nat} {γ : Type} {s t : Solver n γ}

/-! ### One simplification -/

/-- The passes from `s` to `t` are as many as the values that they force, and two at most in
addition. They refute clauses only where one is met of which nothing is left. -/
structure Tallies (s t : Solver n γ) : Prop where
  /-- What was forced stays so. -/
  keeps : ∀ l, s.forced.Flags l → t.forced.Flags l
  /-- The values that are forced are counted. -/
  counts : t.forcedCount + s.forced.count = s.forcedCount + t.forced.count
  /-- There is a pass. -/
  rounds_lt : s.rounds < t.rounds
  /-- There are few passes. -/
  rounds_le : t.rounds + s.forcedCount ≤ s.rounds + t.forcedCount + 2
  /-- Nothing is left of a clause where they are refuted. -/
  refuted : t.ok = false → ∃ c r, Meets s.forced s.clauses.toList t.forced c
    ∧ c.reduce? t.forced = some r ∧ r.literals = []

/-- All passes together are tallied. -/
lemma tallies_simplified (hok : s.ok = true) (loud : Bool) : s.Tallies (s.simplified loud) where
  keeps := (propagates_simplified hok loud).keeps
  counts := forcedCount_propagate s.forced s.forcedCount s.clauses.toList
  rounds_lt := by
    have hpos := length_rounds_propagate s.forced s.forcedCount s.clauses.toList
    show s.rounds < s.rounds + (propagate s.forced s.forcedCount s.clauses.toList).rounds.length
    omega
  rounds_le := by
    have hle := length_rounds_propagate_le s.forced s.forcedCount s.clauses.toList
    show s.rounds + (propagate s.forced s.forcedCount s.clauses.toList).rounds.length
        + s.forcedCount
      ≤ s.rounds + (propagate s.forced s.forcedCount s.clauses.toList).forcedCount + 2
    omega
  refuted := exists_meets_of_propagate

/-- A single pass is tallied. -/
lemma tallies_passed (hok : s.ok = true) : s.Tallies s.passed := by
  have hkeeps := (propagates_passed s).keeps
  have hrounds := rounds_passed s
  have hcount : ∃ k, s.passed.forcedCount = s.forcedCount + k
      ∧ s.passed.forced.count = s.forced.count + k := by
    rw [passed]
    split
    · next hp => exact ⟨_, rfl, count_of_pass_refuted hp⟩
    · next hp => exact ⟨_, rfl, (passes_of_pass hp).count_eq⟩
  obtain ⟨k, hk, hk'⟩ := hcount
  refine ⟨hkeeps, by omega, by omega, by omega, ?_⟩
  rw [passed]
  split
  · next hp => exact fun _ => exists_meets_of_pass_refuted hp
  · exact fun h => Bool.noConfusion (hok.symm.trans h)

/-- The passes of a simplification are tallied, also when it cannot report on them. -/
lemma tallies_reached_simplify (hok : s.ok = true) : s.Tallies (reached (simplify s)) :=
  Leads.reached (leads_simplify_of (fun h => Bool.noConfusion (hok.symm.trans h))
    tallies_simplified fun _ _ _ => tallies_passed hok)

/-- The values that tallied passes force are on variables that were free. -/
lemma Tallies.forcedCount_eq (h : s.Tallies t) :
    t.forcedCount = s.forcedCount + (t.forced.domain \ s.forced.domain).card := by
  have hcard := Finset.card_sdiff_add_card_eq_card (Forced.domain_subset h.keeps)
  have hcounts := h.counts
  rw [s.forced.count_eq_card, t.forced.count_eq_card] at hcounts
  omega

/-! ### Many requests -/

variable [RandomSource γ]

/-- The number of forced values is that of the variables with one, as long as no literal is made
true by hand. -/
lemma forcedCount_run (source : γ) {rs : List (Request n)} (hrs : ∀ l, Request.force l ∉ rs) :
    ((new n source).run rs).forcedCount = ((new n source).run rs).forced.count := by
  have hlasting : Lasting fun s : Solver n γ => (s.forced, s.forcedCount) :=
    ⟨⟨congrArg fun b : Solver n Unit => (b.forced, b.forcedCount), fun _ _ => rfl,
      fun _ _ => rfl⟩, fun _ _ _ _ => rfl⟩
  have hsimplify : ∀ {t : Solver n γ}, t.forcedCount = t.forced.count →
      Leads simplify t (fun _ u => u.forcedCount = u.forced.count)
        fun _ u => u.forcedCount = u.forced.count := by
    intro t ht
    have hcounted : ∀ {u : Solver n γ}, t.Tallies u → u.forcedCount = u.forced.count := by
      intro u hu
      have := hu.counts
      omega
    exact leads_simplify_of (fun _ => ht) (fun hok loud => hcounted (tallies_simplified hok loud))
      fun hok _ _ => hcounted (tallies_passed hok)
  refine run_induction (P := fun s => s.forcedCount = s.forced.count) (fun r hr s hs => ?_) ?_
  · refine after_keeps hlasting (P := fun s => s.forcedCount = s.forced.count) hs r
      (fun ht heq => ?_) (fun _ _ _ => hs) ?_ fun _ => hsimplify
    · obtain ⟨hf, hk⟩ := Prod.ext_iff.1 heq
      exact hk.trans (ht.trans (congrArg Forced.count hf).symm)
    · rintro l rfl
      exact absurd hr (hrs l)
  · show 0 = (Forced.none n).count
    rw [Forced.count_eq_card, eq_comm, Finset.card_eq_zero, Finset.eq_empty_iff_forall_notMem]
    intro v hv
    obtain ⟨b, hb⟩ := Forced.mem_domain.1 hv
    exact Forced.not_flags_none _ hb

/-! ### The bound -/

/-- **A simplification makes at most two passes more than it forces values.** Let the clauses of
a solver not be refuted. A simplification comes to an end, also where it refutes them, and with
an answer if the level of the report is a number. It makes some passes, and the number of values
that it counts as forced is the number of variables that have a value after it and had none
before. There are at most two passes more. Whenever it meets a clause of which one literal is
left, that literal can be forced, which makes one more forced value; and where it refutes the
clauses, it has met one of which nothing is left. As long as no literal is made true by hand,
the number of values that a solver counts as forced is the number of variables with a value,
whatever else it is asked to do. -/
theorem simplify_rounds (s : Solver n γ) (hok : s.ok = true) :
    let t := reached (simplify s)
    let fresh := t.forced.domain \ s.forced.domain
    (s.verbosity.isSome → ∃ b, simplify s = .ok b t)
      ∧ s.rounds < t.rounds
      ∧ t.rounds ≤ s.rounds + (t.forcedCount - s.forcedCount) + 2
      ∧ t.forcedCount = s.forcedCount + fresh.card
      ∧ fresh.card ≤ n - s.forced.domain.card
      ∧ (∀ f c r l, Meets s.forced s.clauses.toList f c → c.reduce? f = some r →
          r.literals = [l] → ∃ g, f.force? l = some g ∧ g.domain.card = f.domain.card + 1)
      ∧ (t.ok = false → ∃ c r, Meets s.forced s.clauses.toList t.forced c
          ∧ c.reduce? t.forced = some r ∧ r.literals = [])
      ∧ ∀ (source : γ) (rs : List (Request n)), (∀ l, Request.force l ∉ rs) →
          ((new n source).run rs).forcedCount = ((new n source).run rs).forced.domain.card := by
  intro t fresh
  have h : s.Tallies t := tallies_reached_simplify hok
  have hcount := h.forcedCount_eq
  refine ⟨fun hv => ?_, h.rounds_lt, ?_, hcount, ?_, ?_, h.refuted, fun source rs hrs => ?_⟩
  · obtain ⟨loud, hrun⟩ := exists_simplify hv hok
    have ht : t = s.simplified loud := congrArg reached hrun
    exact ⟨_, ht ▸ hrun⟩
  · have := h.rounds_le
    omega
  · have hfree : fresh ⊆ s.forced.domainᶜ := fun v hv =>
      Finset.mem_compl.2 (Finset.mem_sdiff.1 hv).2
    calc fresh.card ≤ s.forced.domainᶜ.card := Finset.card_le_card hfree
      _ = n - s.forced.domain.card := by rw [Finset.card_compl, Fintype.card_fin]
  · intro f c r l _ hr hl
    have hrem := Clause.remains_of_reduce? hr
    have hmem : l ∈ r.literals := by simp [hl]
    obtain ⟨g, hg⟩ := Option.ne_none_iff_exists'.1 (hrem.force?_ne_none hmem)
    refine ⟨g, hg, ?_⟩
    rw [← Forced.count_eq_card, ← Forced.count_eq_card]
    exact Forced.count_of_force? (hrem.free.free l hmem) hg
  · rw [forcedCount_run source hrs, Forced.count_eq_card]

/-- A clause that loses a literal only in the second pass makes a third one necessary, so that
there are two passes more than the one value that is forced. -/
theorem simplify_rounds_of_late_unit :
    let x : Fin 3 → Literal 3 := fun v => ⟨v, true⟩
    let s := (new 3 Tape.zero).withClauses [[(x 0).negate, x 1, x 2], [x 0]]
    let t := reached (simplify s)
    s.ok = true ∧ simplify s = .ok true t ∧ (t.forced.domain \ s.forced.domain).card = 1
      ∧ t.rounds = s.rounds + 1 + 2 := by
  intro x s t
  obtain ⟨hanswer, -, -, hcount, -⟩ := simplify_rounds s rfl
  obtain ⟨b, hb⟩ := hanswer rfl
  have hrun : Leads simplify s (fun b t => b = true ∧ t.forcedCount = 1 ∧ t.rounds = 3)
      fun _ _ => False := by
    subst s x
    decide +kernel
  obtain ⟨rfl, hforced, hrounds⟩ := hrun.ok hb
  refine ⟨rfl, hb, ?_, hrounds⟩
  have hone : 1 = 0 + (t.forced.domain \ s.forced.domain).card := hforced.symm.trans hcount
  omega

end LocalSat.Solver
