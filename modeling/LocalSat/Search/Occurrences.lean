/-
Where literals occur.

* `Occurrences n m`: for each literal the clauses in which it occurs, out of `m`;
* `Occurrences.ofClauses`: in ascending order, a clause once for each time that the
  literal stands in it.
-/
import LocalSat.Literal

namespace LocalSat

/-- For each literal the clauses in which it occurs, out of `m` of them. -/
structure Occurrences (n m : Nat) where
  /-- The clauses in which a variable itself occurs. -/
  positive : Table n (List (Fin m))
  /-- The clauses in which the negation of a variable occurs. -/
  negative : Table n (List (Fin m))

namespace Occurrences

variable {n m : Nat}

/-- The clauses in which a literal occurs. -/
def of (o : Occurrences n m) (l : Literal n) : List (Fin m) :=
  if l.positive then o.positive.get l.var else o.negative.get l.var

/-- No literal occurs anywhere. -/
def empty (n m : Nat) : Occurrences n m :=
  ⟨Vector.replicate n [], Vector.replicate n []⟩

/-- One more occurrence of a literal, in a clause before all the others. -/
def add (o : Occurrences n m) (i : Fin m) (l : Literal n) : Occurrences n m :=
  if l.positive then
    { o with positive := o.positive.write l.var (i :: o.positive.get l.var) }
  else
    { o with negative := o.negative.write l.var (i :: o.negative.get l.var) }

/-- The occurrences of the literals in a list of clauses. They are collected from the
last clause to the first. -/
def ofClauses (clauses : Table m (Clause n)) : Occurrences n m :=
  (List.finRange m).foldr (fun i o => (clauses.get i).foldl (fun o l => o.add i l) o) (empty n m)

/-- Only the literal that is added gets an occurrence. -/
theorem of_add (o : Occurrences n m) (i : Fin m) (l l' : Literal n) :
    (o.add i l).of l' = if l = l' then i :: o.of l' else o.of l' := by
  obtain ⟨v, s⟩ := l
  obtain ⟨v', s'⟩ := l'
  cases s <;> cases s' <;> simp [of, add, Table.get_write] <;> split <;> simp_all

end Occurrences

end LocalSat
