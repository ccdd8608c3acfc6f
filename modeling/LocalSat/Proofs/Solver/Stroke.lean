/-
Simplification at one stroke.

* `simplify_at_one_stroke`: however many passes a simplification makes, the clauses that it
  leaves are those that one reduction by the values forced in the end leaves of the clauses
  that there were, and a single pass that starts with these values leaves them as well.
-/
import LocalSat.Proofs.Solver.Increment

namespace LocalSat.Solver

variable {n : Nat} {γ : Type} {s t : Solver n γ}

/-- A simplification that refutes nothing leaves the reduct by the values forced in the end,
which cannot be reduced. -/
lemma clauses_of_simplify (hok : s.ok = true) (h : simplify s = .ok true t) :
    t.clauses.toList = reduct t.forced s.clauses.toList
      ∧ Irreducible t.forced t.clauses.toList := by
  obtain ⟨loud, rfl, hres⟩ := eq_simplified_of_simplify hok h
  exact ⟨clauses_propagate hres.symm, ((justified_propagate _ _ _).reduces hres.symm).2⟩

/-- **All passes of a simplification are one reduction by the values forced in the end.** A
simplification of clauses that are not refuted gives an answer if the level of the report is a
number. If it does not refute the clauses, those that are left are, in their order, the clauses
without a true literal and without two opposite ones, each with its literals of free variables
at their first places. Each has at least two literals, of different variables, which are free.
One pass that starts with the values forced in the end leaves these clauses as well, and forces
nothing. -/
theorem simplify_at_one_stroke (s : Solver n γ) (hok : s.ok = true) :
    (s.verbosity.isSome → ∃ b t, simplify s = .ok b t)
      ∧ ∀ t, simplify s = .ok true t →
        t.clauses.toList
            = (s.clauses.toList.filter fun c => ¬∃ l ∈ c, t.forced.Flags l ∨ l.negate ∈ c).map
                (fun c => (c.filter fun l => (t.forced.get l.var).isNone).eraseDups)
          ∧ (∀ d ∈ t.clauses, 2 ≤ d.length ∧ (d.map Literal.var).Nodup
              ∧ ∀ l ∈ d, t.forced.get l.var = none)
          ∧ ∃ changed,
              pass t.forced s.clauses.toList = .reduced t.clauses.toList t.forced 0 changed := by
  refine ⟨fun hv => ?_, fun t ht => ?_⟩
  · obtain ⟨loud, h⟩ := exists_simplify hv hok
    exact ⟨_, _, h⟩
  obtain ⟨hclauses, hirr⟩ := clauses_of_simplify hok ht
  have hpass := pass_of_long fun d hd => (hirr d (hclauses ▸ hd)).2
  refine ⟨hclauses, fun d hd => ?_, _, hpass.trans (by rw [hclauses])⟩
  obtain ⟨hfree, htwo⟩ := hirr d (Array.mem_toList_iff.2 hd)
  exact ⟨htwo, hfree.nodup_map_var, hfree.free⟩

/-- The literal that the first clause loses only after the second and the third one, its
repetitions, a clause with both literals of a variable and a true clause: four passes leave
what one reduction does. -/
theorem simplify_at_one_stroke_of_late_premise :
    let x : Fin 5 → Literal 5 := fun v => ⟨v, true⟩
    let s := (new 5 (⟨[], []⟩ : Script)).withClauses
      [[(x 1).negate, x 3, x 4, x 3], [(x 0).negate, x 1], [x 0], [x 2, (x 2).negate], [x 1, x 2]]
    s.ok = true ∧ ∃ t changed, simplify s = .ok true t ∧ t.rounds = 4
      ∧ t.clauses.toList = [[x 3, x 4]]
      ∧ pass t.forced s.clauses.toList = .reduced [[x 3, x 4]] t.forced 0 changed := by
  intro x s
  have hrun : Leads simplify s
      (fun b t => b = true ∧ t.rounds = 4 ∧ t.clauses.toList = [[x 3, x 4]])
      fun _ _ => False := by
    subst s x
    decide +kernel
  obtain ⟨b, t, ht, rfl, hrounds, hleft⟩ := hrun.exists_ok
  obtain ⟨-, -, changed, hpass⟩ := (simplify_at_one_stroke s rfl).2 t ht
  exact ⟨rfl, t, changed, ht, hrounds, hleft, hleft ▸ hpass⟩

end LocalSat.Solver
