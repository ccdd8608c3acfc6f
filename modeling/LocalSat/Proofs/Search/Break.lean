/-
Bounds on break counts.

* `breakCountUpTo_le`: a count that may stop early is no larger than the full count;
* `Tracks.nodup_critical`: a clause that the true literal of a variable alone makes true has
  this literal only once;
* `Tracks.breakCount_le`: so a flip breaks no more clauses than there are.
-/
import LocalSat.Proofs.Search.Index
import Mathlib.Data.Fintype.Card

namespace LocalSat.Index

variable {n m : Nat} {x : Index n m}

/-- Counting on counts no more than there is. -/
lemma countUpTo_le (x : Index n m) (bound : Int) (count : Nat) (cs : List (Fin m)) :
    x.countUpTo bound count cs ≤ count + cs.countP fun c => x.trueCount.get c == 1 := by
  induction cs generalizing count with
  | nil => simp [countUpTo]
  | cons c cs ih =>
      rw [countUpTo, List.countP_cons]
      split
      · next hone =>
        have := ih (count + 1)
        simp only [hone, beq_self_eq_true, if_true]
        split <;> omega
      · next hone =>
        have := ih count
        simp only [beq_iff_eq, if_neg hone]
        omega

/-- A count that may stop early is no larger than the full count. -/
lemma breakCountUpTo_le (x : Index n m) (a : Assignment n) (v : Fin n) (bound : Int) :
    x.breakCountUpTo a v bound ≤ x.breakCount a v := by
  have := x.countUpTo_le bound 0 (x.support a v)
  rwa [Nat.zero_add] at this

/-- No clause that the true literal of a variable alone makes true is listed twice. -/
lemma Tracks.nodup_critical {clauses : Table m (Clause n)} {a : Assignment n}
    (hx : x.Tracks clauses a) (v : Fin n) :
    ((x.support a v).filter fun c => x.trueCount.get c == 1).Nodup := by
  refine List.nodup_iff_count_le_one.2 fun i => ?_
  by_cases hone : x.trueCount.get i = 1
  · -- all occurrences of the true literal are among the true literals of the clause
    have hle := hx.count_le_trueCount v i
    rw [hone] at hle
    rw [List.count_filter (by simpa using hone)]
    exact_mod_cast hle
  · rw [List.count_eq_zero_of_not_mem]
    · omega
    · simp [hone]

/-- A flip breaks no more clauses than there are. -/
lemma Tracks.breakCount_le {clauses : Table m (Clause n)} {a : Assignment n}
    (hx : x.Tracks clauses a) (v : Fin n) : x.breakCount a v ≤ m := by
  have hle := (hx.nodup_critical v).length_le_card
  rwa [Fintype.card_fin, ← List.countP_eq_length_filter] at hle

end LocalSat.Index
