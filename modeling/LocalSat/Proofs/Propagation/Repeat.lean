/-
Unit propagation where it has little to do.

* `pass_of_long`: where of every clause at least two literals remain, a pass is a reduction at
  one stroke;
* `Clause.reduce?_of_free`, `pass_of_irreducible`: a free clause is reduced to itself, and so a
  pass over clauses that cannot be reduced changes nothing;
* `propagate_of_irreducible`: unit propagation on them is a single pass that changes nothing.
-/
import LocalSat.Proofs.Propagation.Reduct

namespace LocalSat

variable {n : Nat} {f : Forced n} {cs : List (Clause n)}

/-- A pass puts what remains of a clause in front, if these are at least two literals. -/
lemma pass_cons_of_long {c : Clause n} {r : ReducedClause n} (hr : c.reduce? f = some r)
    (hlong : 2 ≤ r.literals.length) : pass f (c :: cs) = (pass f cs).cons r := by
  rw [pass, hr]
  obtain ⟨_ | ⟨_, _ | ⟨_, _⟩⟩, _⟩ := r
  · exact absurd hlong (by simp)
  · exact absurd hlong (by simp)
  · rfl

/-- Where of every clause that is not opposed at least two literals remain, a pass is a
reduction at one stroke, which forces nothing. It changes something if a clause is opposed or has
a false literal. -/
lemma pass_of_long (h : ∀ d ∈ reduct f cs, 2 ≤ d.length) :
    pass f cs
      = .reduced (reduct f cs) f 0 (cs.any fun c => (c.reduce? f).all (·.shortened)) := by
  induction cs with
  | nil => rfl
  | cons c cs ih =>
      cases hr : c.reduce? f with
      | none =>
          rw [reduct_cons_of_opposed (Clause.reduce?_eq_none.1 hr)] at h ⊢
          rw [pass, hr, List.any_cons, hr, ih h]
          rfl
      | some r =>
          rw [reduct_cons_of_not_opposed (Clause.remains_of_reduce? hr).not_opposed,
            ← Clause.literals_of_reduce? hr] at h ⊢
          obtain ⟨hlong, hrest⟩ := List.forall_mem_cons.1 h
          rw [pass_cons_of_long hr hlong, List.any_cons, hr, ih hrest, Bool.or_comm]
          rfl

/-- A free clause is reduced to itself. -/
lemma Clause.reduce?_of_free {c : Clause n} (h : Clause.Free f c) :
    c.reduce? f = some ⟨c, false⟩ := by
  cases hr : c.reduce? f with
  | none => exact absurd (reduce?_eq_none.1 hr) h.not_opposed
  | some r =>
      have hliterals : r.literals = c := (literals_of_reduce? hr).trans h.freePart_eq
      have hwhole : r.shortened = false := by
        rw [← Bool.not_eq_true, (remains_of_reduce? hr).shortened_iff]
        rintro ⟨l, hl, hfalse⟩
        exact (h.not_flags hl).2 hfalse
      rw [← hliterals, ← hwhole]

/-- A pass over clauses that cannot be reduced changes nothing. -/
lemma pass_of_irreducible (h : Irreducible f cs) : pass f cs = .reduced cs f 0 false := by
  have hsame : (cs.any fun c => (c.reduce? f).all (·.shortened)) = false := by
    rw [List.any_eq_false]
    intro c hc
    simp [Clause.reduce?_of_free (h c hc).1]
  rw [pass_of_long fun d hd => (h d (h.reduct_eq ▸ hd)).2, h.reduct_eq, hsame]

/-- Unit propagation on clauses that cannot be reduced is a single pass. -/
lemma propagate_of_irreducible (h : Irreducible f cs) (count : Nat) :
    propagate f count cs = ⟨true, cs, f, count, [.reduced cs.length count]⟩ := by
  rw [propagate]
  split
  · next hp =>
    rw [pass_of_irreducible h] at hp
    cases hp
  · next hp =>
    rw [pass_of_irreducible h] at hp
    cases hp
    rfl

end LocalSat
