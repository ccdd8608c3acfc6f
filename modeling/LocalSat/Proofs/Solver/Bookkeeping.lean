/-
The bookkeeping of flips.

* `Tracked.exists_index`, `Tracked.exists_current`: the index of a tracked search is over its
  clauses;
* `exists_flips`: any number of flips succeeds and goes on tracking the clauses;
* `initSearch_flips`: what this says about the occurrences, the counts and the residual
  set, whatever the clauses are and whatever is flipped.
-/
import LocalSat.Proofs.Random.Tape
import LocalSat.Proofs.Satisfaction
import LocalSat.Proofs.Solver.Search

namespace LocalSat.Solver

variable {n : Nat} {γ : Type}

/-- The index of a tracked search is over its clauses. -/
lemma Tracked.exists_index {s : Solver n γ} {a : Assignment n} (h : s.Tracked a) :
    ∃ x : Index n s.clauses.size,
      s.index = some ⟨s.clauses.size, x⟩ ∧ x.Tracks s.clauses.toVector a := by
  obtain ⟨-, m, x, ⟨clauses, rfl⟩, hx, hcl, htr⟩ := h
  change clauses = s.clauses at hcl
  subst hcl
  exact ⟨x, hx, htr⟩

/-- A tracked search has a current assignment and its index. -/
lemma Tracked.exists_current {s : Solver n γ} {a : Assignment n} (h : s.Tracked a) :
    ∃ x : Index n s.clauses.size,
      s.current = some (a, ⟨s.clauses.size, x⟩) ∧ x.Tracks s.clauses.toVector a := by
  obtain ⟨x, hx, htr⟩ := h.exists_index
  refine ⟨x, ?_, htr⟩
  rw [current, h.1, hx]
  rfl

/-- Any number of flips succeeds and goes on tracking the clauses. -/
lemma exists_flips {s : Solver n γ} {a : Assignment n} (h : s.Tracked a)
    (vs : List (Fin n)) :
    ∃ t b, vs.forM flipVariable s = .ok () t ∧ t.Tracked b ∧ t.clauses = s.clauses := by
  induction vs generalizing s a with
  | nil => exact ⟨s, a, rfl, h, rfl⟩
  | cons v vs ih =>
      obtain ⟨x, hflip, htr⟩ := exists_flipVariable h v
      obtain ⟨t, b, hrun, htb, hcl⟩ := ih htr
      refine ⟨t, b, ?_, htb, hcl⟩
      show (flipVariable v >>= fun _ => vs.forM flipVariable) s = _
      rw [bind_run_of_ok hflip]
      exact hrun

variable [RandomSource γ]

/-- **The bookkeeping of flips is right.** A search can be set up whenever the source gives
answers. From there every sequence of flips succeeds, of whatever variables, for whatever
clauses. After it the index tracks the clauses under the current assignment, no clause is
residual twice, none is residual exactly if the checker says that all are satisfied, and one
more flip would succeed and change the value of its variable only. -/
theorem initSearch_flips (s : Solver n γ) :
    (LawfulSource γ → ∃ s₀, initSearch s = .ok () s₀)
      ∧ ∀ s₀, initSearch s = .ok () s₀ → ∀ vs : List (Fin n),
        ∃ (t : Solver n γ) (a : Assignment n) (x : Index n s.clauses.size),
          vs.forM flipVariable s₀ = .ok () t ∧ t.clauses = s.clauses
            ∧ t.values = some a ∧ t.index = some ⟨s.clauses.size, x⟩
            ∧ x.Tracks s.clauses.toVector a
            ∧ (x.residual.slots.toList.map (·.index)).Nodup
            ∧ x.residual.isEmpty = a.toPartial.isSatisfied (s.clauses.toList.map Clause.toInts)
            ∧ ∀ v, ∃ t' b, flipVariable v t = .ok () t' ∧ t'.values = some b
                ∧ b.get v = (!a.get v) ∧ ∀ w, w ≠ v → b.get w = a.get w := by
  constructor
  · intro hlawful
    have h := leads_initSearch (faultsWithin_of_lawful γ) s
    obtain ⟨u, s₀, hinit, -⟩ := (h.mono (fun _ _ => id) fun _ _ => And.left).exists_ok
    exact ⟨s₀, hinit⟩
  · intro s₀ hinit vs
    obtain ⟨a₀, g, rfl, -⟩ := (leads_initSearch (faultsWithin_true γ) s).ok hinit
    obtain ⟨t, a, hrun, htr, hcl⟩ := exists_flips (tracked_started s a₀ g) vs
    change t.clauses = s.clauses at hcl
    have hempty : ∀ {m} {x : Index n m}, t.index = some ⟨m, x⟩ →
        x.residual.isEmpty = a.toPartial.isSatisfied (t.clauses.toList.map Clause.toInts) := by
      intro m x hx
      rw [Bool.eq_iff_iff, isSatisfied_toInts, htr.isEmpty_iff hx]
    obtain ⟨x, hx, hidx⟩ := htr.exists_index
    rw [← hcl]
    refine ⟨t, a, x, hrun, rfl, htr.1, hx, hidx, hidx.wellFormed.nodup_slots, hempty hx, ?_⟩
    intro v
    obtain ⟨y, hflip, -⟩ := exists_flipVariable htr v
    refine ⟨_, a.flip v, hflip, rfl, by simp, fun w hw => ?_⟩
    rw [Assignment.get_flip, if_neg (Ne.symm hw)]

/-- Clauses that repeat literals, hold both literals of a variable, or hold one literal or
none, are tracked as well. Where one holds none, no sequence of flips ends the search. -/
theorem initSearch_flips_of_raw_clauses :
    let x : Literal 2 := ⟨0, true⟩
    let y : Literal 2 := ⟨1, true⟩
    let s : Solver 2 Tape :=
      { new 2 Tape.zero with clauses := #[[x, x, y.negate], [x, x.negate, x], [y], []] }
    ∃ s₀, initSearch s = .ok () s₀ ∧ ∃ t m z, [0, 1, 0, 0].forM flipVariable s₀ = .ok () t
      ∧ t.index = some ⟨m, z⟩ ∧ z.residual.isEmpty = false := by
  intro x y s
  obtain ⟨hex, hflips⟩ := initSearch_flips s
  obtain ⟨s₀, hinit⟩ := hex inferInstance
  obtain ⟨t, a, z, hrun, -, -, hz, -, -, hempty, -⟩ := hflips s₀ hinit [0, 1, 0, 0]
  refine ⟨s₀, hinit, t, _, z, hrun, hz, ?_⟩
  rw [hempty]
  simp [s, Clause.toInts, PartialAssignment.isSatisfied]

end LocalSat.Solver
