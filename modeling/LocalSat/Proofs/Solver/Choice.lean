/-
The choice of a flip in a search.

* `pick_eq`: in a tracked search a flip is chosen as by the full break counts;
* `pick_plainly`: so it is after a search was set up and whatever was flipped, under both
  policies, and nothing but the source changes.
-/
import LocalSat.Proofs.Solver.Account

namespace LocalSat.Solver

variable {n : Nat} {γ : Type} [RandomSource γ]

/-- In a tracked search a flip is chosen as by the full break counts. -/
lemma pick_eq {t : Solver n γ} {a : Assignment n} (h : t.Tracked a) {c : Clause n}
    (hc : c ≠ []) :
    pick c t = mapState (fun source => { t with source })
      (plainChoice t.policy (a.breaks t.clauses.toList) (c.map Literal.var) t.source) := by
  have hbound : ∀ v ∈ c.map Literal.var, a.breaks t.clauses.toList v ≤ t.clauses.size :=
    fun v _ => a.breaks_le _ v
  have hplain := chooseFlip_eq_plainChoice (γ := γ) t.policy (by simpa using hc)
    (fun v k => h.breakCountUpTo_eq v k) hbound
  rw [pick, ask, hplain]
  cases plainChoice t.policy (a.breaks t.clauses.toList) (c.map Literal.var) t.source <;> rfl

/-- **Counts that stop early choose as full counts do.** Let a search be set up and any variables
be flipped, over whatever clauses. Then the break counts of all variables can be had, and with a
bound they are cut off one above it. Under every chance of a random flip and both policies, some
of the literals in a clause that is not empty have a variable that breaks least, and a flip in
the clause is chosen by these: with the policy for it, one of them if it breaks nothing, without
a coin, and without any question if there is just one; and otherwise one of all by heads, one of
them by tails. Nothing but the source changes, and a source that answers always leads to a
choice. -/
theorem pick_plainly (s : Solver n γ) {s₀ : Solver n γ} (hinit : initSearch s = .ok () s₀)
    (vs : List (Fin n)) :
    ∃ (t : Solver n γ) (bc : Fin n → Nat),
      vs.forM flipVariable s₀ = .ok () t ∧ t.clauses = s.clauses
        ∧ (∀ v, t.breakCount v = .ok (bc v))
        ∧ (∀ v (bound : Nat), t.breakCountUpTo v bound = .ok (min (bc v) (bound + 1)))
        ∧ ∀ (options : Options) (c : Clause n), c ≠ [] →
          let u := { t with options }
          leastHarmful bc (c.map Literal.var) ≠ []
            ∧ pick c u = mapState (fun source => { u with source })
                (plainChoice ⟨options.noise, options.zeroBreakFirst⟩ bc (c.map Literal.var)
                  u.source)
            ∧ (LawfulSource γ → ∃ v move source,
                pick c u = .ok (v, move) { u with source } ∧ v ∈ c.map Literal.var) := by
  obtain ⟨a₀, g, rfl, -⟩ := (leads_initSearch (faultsWithin_true γ) s).ok hinit
  obtain ⟨t, a, hrun, htr, hcl⟩ := exists_flips (tracked_started s a₀ g) vs
  refine ⟨t, a.breaks t.clauses.toList, hrun, hcl, htr.breakCount_eq, htr.breakCountUpTo_eq, ?_⟩
  intro options c hc u
  have hu : u.Tracked a := htr.congr rfl rfl rfl
  refine ⟨leastHarmful_ne_nil (by simpa using hc) fun v _ => a.breaks_le _ v, pick_eq hu hc,
    fun hlawful => ?_⟩
  obtain ⟨⟨v, move⟩, u', hpick, ⟨source, rfl⟩, l, hl, rfl⟩ :=
    (leads_pick (faultsWithin_of_lawful γ) hu hc).exists_ok
  exact ⟨l.var, move, source, hpick, List.mem_map_of_mem hl⟩

/-- A clause that repeats its true literal is not counted, since its count of true literals is
two: the variable breaks nothing and is taken without a question, whatever the coin would
show. -/
theorem pick_plainly_of_repeated_literal :
    let x : Fin 3 → Literal 3 := fun v => ⟨v, true⟩
    let s : Solver 3 Tape :=
      { new 3 Tape.zero with
        clauses := #[[(x 0).negate, (x 0).negate], [(x 1).negate], [(x 1).negate, x 2]] }
    ∃ s₀ t, initSearch s = .ok () s₀ ∧ [1, 1].forM flipVariable s₀ = .ok () t
      ∧ t.breakCount 0 = .ok 0 ∧ t.breakCount 1 = .ok 2
      ∧ ∀ noise,
          let u := { t with options := { noise, zeroBreakFirst := true } }
          pick [x 1, x 0] u = .ok (0, .zeroBreak) u := by
  intro x s
  have hrun : Leads (do initSearch; [1, 1].forM flipVariable) s
      (fun _ t => (t.breakCount 0).toOption = some 0 ∧ (t.breakCount 1).toOption = some 2)
      fun _ _ => False := by
    subst s x
    decide +kernel
  obtain ⟨_, t, ht, hzero, htwo⟩ := hrun.exists_ok
  obtain ⟨_, s₀, hinit, hflips⟩ := exists_of_bind_run_eq_ok ht
  obtain ⟨t', bc, hflips', -, hbc, -, hpick⟩ := pick_plainly s hinit [1, 1]
  cases hflips.symm.trans hflips'
  rw [hbc, Except.toOption, Option.some_inj] at hzero htwo
  refine ⟨s₀, t, hinit, hflips, by rw [hbc, hzero], by rw [hbc, htwo], fun noise => ?_⟩
  obtain ⟨-, hsame, -⟩ := hpick { noise, zeroBreakFirst := true } [x 1, x 0] (by simp)
  have hbest : leastHarmful bc [1, 0] = [0] := by simp [leastHarmful, hzero, htwo]
  refine hsame.trans ?_
  simp only [List.map_cons, List.map_nil, plainChoice, x, hbest]
  rw [if_pos ⟨trivial, 0, by simp, hzero⟩]
  rfl

end LocalSat.Solver
