/-
Unit propagation to a fixpoint.

* `propagate`: passes over the clauses until one changes nothing or refutes them;
* `Round`: what is reported of a pass.
-/
import LocalSat.Propagation.Pass

namespace LocalSat

/-- What is reported of a pass. -/
inductive Round where
  /-- The pass refuted the clauses. -/
  | contradiction
  /-- The number of clauses left and of values forced so far. -/
  | reduced (clauses forced : Nat)
  deriving Repr, DecidableEq

/-- The outcome of unit propagation. -/
structure Propagated (n : Nat) where
  /-- Whether the clauses were not refuted. -/
  ok : Bool
  /-- The clauses that are left, none after a refutation. -/
  clauses : List (Clause n)
  /-- The forced values. -/
  forced : Forced n
  /-- The number of values forced so far. -/
  forcedCount : Nat
  /-- The passes, the first one first. -/
  rounds : List Round

variable {n : Nat}

/-- Unit propagation: passes until one changes nothing, which is the last. The number of
values forced before is `count`. -/
def propagate (f : Forced n) (count : Nat) (cs : List (Clause n)) : Propagated n :=
  match h : pass f cs with
  | .refuted f' k => ⟨false, [], f', count + k, [.contradiction]⟩
  | .reduced cs' f' k changed =>
      let round := Round.reduced cs'.length (count + k)
      if hc : changed = true then
        have : weight cs' < weight cs := by
          have := weight_pass h
          rw [hc, if_pos rfl] at this
          exact this
        let rest := propagate f' (count + k) cs'
        { rest with rounds := round :: rest.rounds }
      else ⟨true, cs', f', count + k, [round]⟩
termination_by weight cs

end LocalSat
