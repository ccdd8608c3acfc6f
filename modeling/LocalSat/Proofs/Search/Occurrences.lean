/-
The occurrences of literals in clauses.

* `of_ofClauses`: a literal occurs in the clauses in ascending order, in each as often as
  it stands there;
* `count_of_ofClauses`, `pairwise_of_ofClauses`: the same as two facts, which determine the
  list.
-/
import LocalSat.Search.Occurrences
import Mathlib.Data.List.FinRange
import Mathlib.Tactic.Common

namespace LocalSat.Occurrences

variable {n m : Nat}

/-- The occurrences in a clause come before those that were collected. -/
lemma of_foldl_add (o : Occurrences n m) (i : Fin m) (c : Clause n) (l : Literal n) :
    (c.foldl (fun o k => o.add i k) o).of l = List.replicate (c.count l) i ++ o.of l := by
  induction c generalizing o with
  | nil => simp
  | cons k c ih =>
      rw [List.foldl_cons, ih, of_add]
      by_cases hkl : k = l
      · rw [if_pos hkl, hkl, List.count_cons_self, List.replicate_succ', List.append_assoc]
        rfl
      · rw [if_neg hkl, List.count_cons_of_ne hkl]

/-- A literal occurs in the clauses in ascending order, in each as often as it stands
there. -/
lemma of_ofClauses (clauses : Table m (Clause n)) (l : Literal n) :
    (ofClauses clauses).of l =
      (List.finRange m).flatMap fun i => List.replicate ((clauses.get i).count l) i := by
  have key : ∀ is : List (Fin m),
      (is.foldr (fun i o => (clauses.get i).foldl (fun o k => o.add i k) o) (empty n m)).of l =
        is.flatMap fun i => List.replicate ((clauses.get i).count l) i := by
    intro is
    induction is with
    | nil => cases hl : l.positive <;> simp [of, empty, hl]
    | cons i is ih => rw [List.foldr_cons, of_foldl_add, ih, List.flatMap_cons]
  exact key (List.finRange m)

/-- A clause is listed once for each time that the literal stands in it. -/
lemma count_of_ofClauses (clauses : Table m (Clause n)) (l : Literal n) (i : Fin m) :
    ((ofClauses clauses).of l).count i = (clauses.get i).count l := by
  have key : ∀ is : List (Fin m),
      (is.flatMap fun j => List.replicate ((clauses.get j).count l) j).count i =
        is.count i * (clauses.get i).count l := by
    intro is
    induction is with
    | nil => simp
    | cons j is ih =>
        rw [List.flatMap_cons, List.count_append, ih, List.count_replicate]
        by_cases hj : j = i
        · subst hj
          simp [Nat.add_mul, Nat.add_comm]
        · simp [hj]
  rw [of_ofClauses, key, List.count_eq_one_of_mem (List.nodup_finRange m) (List.mem_finRange i),
    Nat.one_mul]

/-- The clauses of a literal are listed in ascending order. -/
lemma pairwise_of_ofClauses (clauses : Table m (Clause n)) (l : Literal n) :
    ((ofClauses clauses).of l).Pairwise (· ≤ ·) := by
  rw [of_ofClauses, List.pairwise_flatMap]
  constructor
  · intro i _
    exact List.pairwise_replicate.2 (.inr le_rfl)
  · refine (List.pairwise_lt_finRange m).imp fun hij x hx y hy => ?_
    rw [List.eq_of_mem_replicate hx, List.eq_of_mem_replicate hy]
    exact le_of_lt hij

end LocalSat.Occurrences
