/-
Flips do what break counts say.

* `Tracked.exists_flipped`: the index after a flip in a tracked search;
* `unsat_pos_of_pickNext`, `exists_of_pickNext_zeroBreak`: where a flip is chosen some clause is
  residual, and a flip that is made first since it breaks nothing is one in such a clause;
* `flip_as_counted`: what a flip does to the counts and to the residual set, for clauses as a
  simplification leaves them.
-/
import LocalSat.Proofs.Search.Flip
import LocalSat.Proofs.Solver.Account
import LocalSat.Proofs.Solver.Stroke

namespace LocalSat.Solver

variable {n : Nat} {γ : Type}

/-- A flip in a tracked search leaves an index that tracks the clauses after it. -/
lemma Tracked.exists_flipped {t : Solver n γ} {a : Assignment n} (h : t.Tracked a)
    {cs : Array (Clause n)} (hcs : t.clauses = cs) (v : Fin n) :
    ∃ (t' : Solver n γ) (y : Index n cs.size), flipVariable v t = .ok () t'
      ∧ t'.values = some (a.flip v) ∧ t'.index = some ⟨cs.size, y⟩
      ∧ y.Tracks cs.toVector (a.flip v) := by
  subst hcs
  obtain ⟨x, hflip, htr⟩ := exists_flipVariable h v
  obtain ⟨y, hy, hidx⟩ := htr.exists_index
  exact ⟨_, y, hflip, rfl, hy, hidx⟩

variable [RandomSource γ]

/-- Where a flip is chosen, there is a residual clause. -/
lemma unsat_pos_of_pickNext {t t' : Solver n γ} {chosen : Fin n × Move}
    (h : pickNext t = .ok chosen t') : 0 < t.unsat := by
  obtain ⟨c, hc⟩ : ∃ c, t.firstResidual = .ok c := by
    cases hfirst : t.firstResidual with
    | ok c => exact ⟨c, rfl⟩
    | error e =>
        rw [pickNext, get_bind_run, hfirst] at h
        cases h
  rw [firstResidual] at hc
  split at hc
  · cases hc
  next m x hx =>
  split at hc
  · cases hc
  next i hi =>
  obtain ⟨hlt, -⟩ := Array.getElem?_eq_some_iff.1 hi
  rw [unsat, hx]
  exact hlt

/-- A flip that is made first since it breaks nothing is one of a variable in a residual clause,
and breaks nothing. -/
lemma exists_of_pickNext_zeroBreak {t t' : Solver n γ} {a : Assignment n} (h : t.Tracked a)
    {v : Fin n} (hpick : pickNext t = .ok (v, .zeroBreak) t') :
    (∃ c ∈ t.clauses.toList, (∀ l ∈ c, a.holds l ≠ true) ∧ v ∈ c.map Literal.var)
      ∧ a.breaks t.clauses.toList v = 0 ∧ ∃ g, t' = { t with source := g } := by
  obtain ⟨u, hfits, hchosen, g, -, rfl⟩ :=
    (leads_pickNext_fits h (unsat_pos_of_pickNext hpick)).ok hpick
  obtain ⟨rfl, hmove⟩ := Prod.mk.inj hchosen
  have hzero := hfits.chosen
  rw [hmove] at hzero
  exact ⟨⟨u.clause, hfits.mem, hfits.falsified, hzero.mem⟩, hzero.breaks_eq_zero, g, rfl⟩

/-- **A flip does what its break count says.** A simplification that refutes nothing leaves clauses
in which no variable occurs twice. Let the clauses be so, let a search be set up, and let any
variables be flipped. Then the break count of each variable is the number of clauses that have a
true literal before its flip and none after it. This flip changes the counts of exactly the clauses
in which the variable occurs, each by one. The residual clauses after it are those before in which
the variable does not occur, and those that are broken, so that there are more of them by the break
count and less by the number of residual clauses in which the variable occurs. Whatever the options,
the record and the source are by then, a flip that is chosen first since it breaks nothing leaves a
proper part of the residual clauses. -/
theorem flip_as_counted (s : Solver n γ) :
    (∀ t, simplify s = .ok true t → ∀ c ∈ t.clauses, (c.map Literal.var).Nodup)
      ∧ ((∀ c ∈ s.clauses, (c.map Literal.var).Nodup) →
        ∀ s₀, initSearch s = .ok () s₀ → ∀ vs : List (Fin n),
        let clauses := s.clauses.toVector
        ∃ (t : Solver n γ) (a : Assignment n) (x : Index n s.clauses.size),
          vs.forM flipVariable s₀ = .ok () t ∧ t.clauses = s.clauses
            ∧ t.values = some a ∧ t.index = some ⟨s.clauses.size, x⟩ ∧ x.Tracks clauses a
            ∧ (∀ v, t.breakCount v = .ok (broken clauses a v).card
              ∧ ∃ (t' : Solver n γ) (y : Index n s.clauses.size),
                flipVariable v t = .ok () t' ∧ t'.values = some (a.flip v)
                ∧ t'.index = some ⟨s.clauses.size, y⟩
                ∧ (∀ i ∈ touched clauses v,
                  (y.trueCount.get i - x.trueCount.get i).natAbs = 1)
                ∧ (∀ i, i ∉ touched clauses v → y.trueCount.get i = x.trueCount.get i)
                ∧ y.residual.indices
                  = x.residual.indices \ touched clauses v ∪ broken clauses a v
                ∧ (y.residual.size : Int) = x.residual.size + (broken clauses a v).card
                  - (x.residual.indices ∩ touched clauses v).card)
            ∧ ∀ u : Solver n γ, u.values = t.values → u.index = t.index → u.clauses = t.clauses →
              ∀ v u', pickNext u = .ok (v, .zeroBreak) u' →
              ∃ (t' : Solver n γ) (y : Index n s.clauses.size),
                flipVariable v u' = .ok () t' ∧ t'.index = some ⟨s.clauses.size, y⟩
                ∧ y.residual.indices ⊂ x.residual.indices) := by
  constructor
  · intro t ht c hc
    have hok : s.ok = true := by
      by_contra hok
      rw [simplify_of_refuted (Bool.not_eq_true _ ▸ hok)] at ht
      cases ht
    exact ((clauses_of_simplify hok ht).2 c (Array.mem_toList_iff.2 hc)).1.nodup_map_var
  intro hdistinct s₀ hinit vs clauses
  have hnodup : ∀ i, ((clauses.get i).map Literal.var).Nodup := fun i =>
    hdistinct _ (Array.getElem_mem i.isLt)
  obtain ⟨a₀, g, rfl, -⟩ := (leads_initSearch (faultsWithin_true γ) s).ok hinit
  obtain ⟨t, a, hrun, htr, hcl⟩ := exists_flips (tracked_started s a₀ g) vs
  change t.clauses = s.clauses at hcl
  subst clauses
  rw [← hcl] at hnodup ⊢
  obtain ⟨x, hx, hidx⟩ := htr.exists_index
  have hbreaks : ∀ v, a.breaks t.clauses.toList v = (broken t.clauses.toVector a v).card :=
    fun v => (hidx.breakCount_eq v).symm.trans (hidx.breakCount_eq_card hnodup v)
  refine ⟨t, a, x, hrun, rfl, htr.1, hx, hidx, fun v => ⟨?_, ?_⟩, ?_⟩
  · rw [htr.breakCount_eq, hbreaks]
  · obtain ⟨t', y, hflip, ha, hy, hidy⟩ := htr.exists_flipped rfl v
    have hsize := hidx.size_flip hidy
    exact ⟨t', y, hflip, ha, hy, fun i => hidx.natAbs_trueCount_flip hidy (hnodup i),
      fun i => hidx.trueCount_flip hidy, hidx.indices_flip hidy, by omega⟩
  · intro u hvalues hindex hclauses v u' hpick
    have hu : u.Tracked a := htr.congr hvalues hindex hclauses
    obtain ⟨⟨c, hc, hfalse, hv⟩, hzero, g', rfl⟩ := exists_of_pickNext_zeroBreak hu hpick
    rw [hclauses] at hc hzero
    obtain ⟨t', y, hflip, -, hy, hidy⟩ :=
      Tracked.exists_flipped (t := { u with source := g' }) (hu.congr rfl rfl rfl) hclauses v
    have hbroken : broken t.clauses.toVector a v = ∅ := by
      rw [← Finset.card_eq_zero, ← hbreaks, hzero]
    obtain ⟨i, hi, rfl⟩ := List.mem_iff_getElem.1 hc
    have hresidual : (⟨i, hi⟩ : Fin t.clauses.size) ∈ x.residual.indices :=
      hidx.mem_indices.2 fun ⟨l, hl, hholds⟩ => hfalse l hl hholds
    exact ⟨t', y, hflip, hy, hidx.indices_flip_ssubset hidy hbroken hresidual (mem_touched.2 hv)⟩

/-- After a simplification has dropped a repetition and a clause with both literals of a variable,
the first clause is residual. The flip of its second variable would break the other clause, and that
of its first one breaks nothing and is taken. -/
theorem flip_as_counted_of_harmless :
    let x : Fin 3 → Literal 3 := fun v => ⟨v, true⟩
    let s : Solver 3 Tape :=
      { new 3 Tape.zero with
        clauses := #[[x 0, x 1, x 0], [(x 1).negate, x 2], [x 2, (x 2).negate]]
        options := { zeroBreakFirst := true } }
    ∃ s' s₀ u', simplify s = .ok true s' ∧ (∀ c ∈ s'.clauses, (c.map Literal.var).Nodup)
      ∧ initSearch s' = .ok () s₀ ∧ s₀.breakCount 0 = .ok 0 ∧ s₀.breakCount 1 = .ok 1
      ∧ pickNext s₀ = .ok (0, .zeroBreak) u'
      ∧ ∃ t' m z y, flipVariable 0 u' = .ok () t' ∧ s₀.index = some ⟨m, z⟩
        ∧ t'.index = some ⟨m, y⟩ ∧ y.residual.indices ⊂ z.residual.indices := by
  intro x s
  have hrun : Leads simplify s (fun b s' => b = true
      ∧ Leads initSearch s' (fun _ s₀ => (s₀.breakCount 0).toOption = some 0
        ∧ (s₀.breakCount 1).toOption = some 1
        ∧ Leads pickNext s₀ (fun chosen _ => chosen = (0, .zeroBreak)) fun _ _ => False)
        fun _ _ => False) fun _ _ => False := by
    subst s x
    decide +kernel
  obtain ⟨b, s', hsimplify, rfl, hrun⟩ := hrun.exists_ok
  obtain ⟨_, s₀, hinit, hzero, hone, hrun⟩ := hrun.exists_ok
  obtain ⟨_, u', hpick, rfl⟩ := hrun.exists_ok
  have hdistinct := (flip_as_counted s).1 s' hsimplify
  obtain ⟨t, a, z, hflips, -, -, hz, -, hcount, hless⟩ :=
    (flip_as_counted s').2 hdistinct s₀ hinit []
  cases hflips
  obtain ⟨t', y, hflip, hy, hsub⟩ := hless s₀ rfl rfl rfl 0 u' hpick
  rw [(hcount 0).1, Except.toOption, Option.some_inj] at hzero
  rw [(hcount 1).1, Except.toOption, Option.some_inj] at hone
  exact ⟨s', s₀, u', hsimplify, hdistinct, hinit, by rw [(hcount 0).1, hzero],
    by rw [(hcount 1).1, hone], hpick, t', _, z, y, hflip, hz, hy, hsub⟩

end LocalSat.Solver
