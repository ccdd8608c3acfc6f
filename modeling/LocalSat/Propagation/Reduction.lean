/-
Clauses under forced values.

* `Clause.reduce?`: a clause without its false and repeated literals, or nothing when
  the clause is true or holds both literals of a variable;
* `length_reduceFrom?`: a reduced clause is no longer, and shorter when a false literal
  was dropped.
-/
import LocalSat.Propagation.Forced

namespace LocalSat

/-- A clause that is not known to be true. -/
structure ReducedClause (n : Nat) where
  /-- The literals that are left. -/
  literals : Clause n
  /-- Whether a false literal was dropped. -/
  shortened : Bool
  deriving Repr, DecidableEq

namespace Clause

variable {n : Nat}

/-- Reduces the rest of a clause, of which the literals in `kept` are kept so far, the
last one first. -/
def reduceFrom? (f : Forced n) (kept : Clause n) : Clause n → Option (ReducedClause n)
  | [] => some ⟨kept.reverse, false⟩
  | l :: c =>
      if l ∈ kept then reduceFrom? f kept c
      else if f.value? l = some true ∨ l.negate ∈ kept then none
      else if f.value? l = some false then
        (reduceFrom? f kept c).map fun r => { r with shortened := true }
      else reduceFrom? f (l :: kept) c

/-- A clause under forced values: nothing when one of its literals is true or two of
those that are left are opposite, and otherwise its literals without the false ones and
without repetitions. -/
def reduce? (f : Forced n) (c : Clause n) : Option (ReducedClause n) := reduceFrom? f [] c

/-- What is kept of a clause and what was kept before are no longer than the two
together, and shorter by one if a literal was dropped for being false. -/
theorem length_reduceFrom? (f : Forced n) {kept c : Clause n} {r : ReducedClause n}
    (h : reduceFrom? f kept c = some r) :
    r.literals.length + (if r.shortened then 1 else 0) ≤ kept.length + c.length := by
  induction c generalizing kept r with
  | nil =>
      simp only [reduceFrom?, Option.some.injEq] at h
      simp [← h]
  | cons l c ih =>
      simp only [reduceFrom?] at h
      split at h
      · have := ih h
        simp only [List.length_cons]
        omega
      split at h
      · cases h
      split at h
      · obtain ⟨r', hr', rfl⟩ := Option.map_eq_some_iff.1 h
        have := ih hr'
        simp only [List.length_cons, if_true]
        omega
      · have := ih h
        simp only [List.length_cons] at this ⊢
        omega

end Clause

end LocalSat
