/-
Turns: flips with what they were chosen by.

* `Turn`: a flip with the clause that it was chosen in and the questions to the source;
* `Turn.Fits`: a turn is one that the policy allows under an assignment;
* `played`: the assignment after some turns; `Plays`: each of some turns fits the assignment
  after those before it;
* `tally`: the numbers of flips in some turns; `Plays.countP_isCoin`: how many coins they asked
  for.
-/
import LocalSat.Proofs.Search.Census
import LocalSat.Proofs.Search.Policy
import LocalSat.Solver.State

namespace LocalSat

variable {n : Nat}

/-- A flip with what it was chosen by. -/
structure Turn (n : Nat) where
  /-- The clause that the flip was chosen in. -/
  clause : Clause n
  /-- The flip, by its kind and the literal that it makes true. -/
  event : Event n
  /-- The questions to the source by which it was chosen, with their answers. -/
  replies : List Reply

namespace Turn

/-- The variable that is flipped. -/
def var (u : Turn n) : Fin n := u.event.literal.var

/-- A turn makes a literal true that is chosen in a clause without a true one. -/
structure Fits (policy : Policy) (clauses : List (Clause n)) (a : Assignment n)
    (u : Turn n) : Prop where
  /-- The clause is one of the clauses. -/
  mem : u.clause ∈ clauses
  /-- It has no true literal. -/
  falsified : ∀ l ∈ u.clause, a.holds l ≠ true
  /-- The literal is the false one of its variable. -/
  literal : u.event.literal = (a.literal u.var).negate
  /-- The variable is chosen among those of the clause. -/
  chosen : Chosen policy (a.breaks clauses) (u.clause.map Literal.var) u.replies u.var
    u.event.move

variable {policy : Policy} {clauses : List (Clause n)} {a : Assignment n} {u : Turn n}

/-- Where a turn is made, some clause has no true literal. -/
lemma Fits.falsified_pos (h : u.Fits policy clauses a) : 0 < a.falsified clauses := by
  refine List.countP_pos_iff.2 ⟨u.clause, h.mem, ?_⟩
  simpa using h.falsified

end Turn

/-! ### Sequences of turns -/

/-- The assignment after some turns. -/
def played (a : Assignment n) (turns : List (Turn n)) : Assignment n :=
  turns.foldl (fun a u => a.flip u.var) a

lemma played_concat (a : Assignment n) (turns : List (Turn n)) (u : Turn n) :
    played a (turns ++ [u]) = (played a turns).flip u.var := by
  rw [played, List.foldl_append]
  rfl

/-- Each of some turns fits the assignment after those before it. -/
def Plays (policy : Policy) (clauses : List (Clause n)) (a : Assignment n)
    (turns : List (Turn n)) : Prop :=
  ∀ us u, us ++ [u] <+: turns → u.Fits policy clauses (played a us)

namespace Plays

variable {policy : Policy} {clauses : List (Clause n)} {a : Assignment n}
  {turns us : List (Turn n)} {u : Turn n}

/-- No turns play. -/
lemma nil (policy : Policy) (clauses : List (Clause n)) (a : Assignment n) :
    Plays policy clauses a [] := by
  intro us u h
  simp at h

/-- The first ones of some turns that play do so too. -/
lemma of_prefix (h : Plays policy clauses a turns) (hus : us <+: turns) :
    Plays policy clauses a us := fun vs v hvs => h vs v (hvs.trans hus)

/-- One more turn plays if it fits the assignment after the others. -/
lemma concat (h : Plays policy clauses a turns) (hu : u.Fits policy clauses (played a turns)) :
    Plays policy clauses a (turns ++ [u]) := by
  intro us v hus
  rcases List.prefix_concat_iff.1 hus with heq | hprefix
  · obtain ⟨rfl, hv⟩ := List.append_inj' heq rfl
    obtain rfl := List.singleton_inj.1 hv
    exact hu
  · exact h us v hprefix

/-- The last turn fits the assignment after the others. -/
lemma last (h : Plays policy clauses a (turns ++ [u])) : u.Fits policy clauses (played a turns) :=
  h turns u List.prefix_rfl

/-- The turns before the last one play. -/
lemma init (h : Plays policy clauses a (turns ++ [u])) : Plays policy clauses a turns :=
  h.of_prefix (List.prefix_append turns [u])

/-- Until the last turn some clause has no true literal. -/
lemma falsified_pos (h : Plays policy clauses a turns) (hus : us <+: turns) (hne : us ≠ turns) :
    0 < (played a us).falsified clauses := by
  obtain ⟨vs, rfl⟩ := hus
  cases vs with
  | nil => simp at hne
  | cons v vs =>
      refine (h us v ⟨vs, ?_⟩).falsified_pos
      rw [List.append_assoc]
      rfl

end Plays

/-! ### The numbers of flips -/

/-- The number of turns of a kind. -/
def countMoves (move : Move) (turns : List (Turn n)) : Nat :=
  (turns.map fun u => u.event.move).count move

/-- The numbers of flips in some turns. -/
def tally (turns : List (Turn n)) : Counters :=
  ⟨turns.length, countMoves .noise turns, countMoves .greedy turns, countMoves .zeroBreak turns⟩

/-- One more turn is one more flip of its kind. -/
lemma tally_concat (turns : List (Turn n)) (u : Turn n) :
    tally (turns ++ [u]) = (tally turns).add u.event.move := by
  simp only [tally, countMoves, List.map_append, List.count_append, List.length_append]
  cases h : u.event.move <;> simp [Counters.add, h]

/-- All turns are of one of the kinds. -/
lemma tally_flips (turns : List (Turn n)) :
    (tally turns).flips
      = (tally turns).noise + (tally turns).greedy + (tally turns).zeroBreak := by
  simp only [tally, countMoves]
  induction turns with
  | nil => rfl
  | cons u turns ih =>
      simp only [List.map_cons, List.count_cons, List.length_cons]
      cases h : u.event.move <;> simp only [beq_iff_eq, reduceCtorEq, if_true, if_false] <;>
        omega

/-- Without the policy for it, no turn is one that breaks nothing and is made first. -/
lemma Plays.zeroBreak_eq_zero {policy : Policy} {clauses : List (Clause n)} {a : Assignment n}
    {turns : List (Turn n)} (h : Plays policy clauses a turns)
    (hoff : policy.zeroBreakFirst = false) : (tally turns).zeroBreak = 0 := by
  induction turns using List.reverseRecOn with
  | nil => rfl
  | append_singleton turns u ih =>
      rw [tally_concat]
      cases hu : u.event.move with
      | zeroBreak => exact absurd hu (h.last.chosen.ne_zeroBreak hoff)
      | noise => exact ih h.init
      | greedy => exact ih h.init

/-- Each turn but those that break nothing and are made first asks for one coin. -/
lemma Plays.countP_isCoin {policy : Policy} {clauses : List (Clause n)} {a : Assignment n}
    {turns : List (Turn n)} (h : Plays policy clauses a turns) :
    (turns.flatMap Turn.replies).countP Reply.isCoin
      = (tally turns).noise + (tally turns).greedy := by
  induction turns using List.reverseRecOn with
  | nil => rfl
  | append_singleton turns u ih =>
      rw [List.flatMap_append, List.countP_append, ih h.init, tally_concat,
        List.flatMap_singleton, h.last.chosen.countP_isCoin]
      cases hu : u.event.move with
      | noise => exact Nat.add_right_comm ..
      | greedy => rfl
      | zeroBreak => rfl

end LocalSat
