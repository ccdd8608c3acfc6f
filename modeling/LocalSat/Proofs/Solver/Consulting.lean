/-
Solves consult their source by sensible questions only.

* `consults_chooseFlip`: the choice of a flip, whatever the counts and candidates are;
* `consults_initSearch`, `consults_searchFor`: a search from its start to its end;
* `consults_solve`: a solve. None of this needs anything of the clauses: an operation that
  asks for a member of an empty list does not succeed.
-/
import LocalSat.Proofs.Random.Replies
import LocalSat.Proofs.Solver.Solve

namespace LocalSat

variable {n : Nat} {γ : Type} [RandomSource γ]

/-! ### Choices -/

section

variable {α : Type}

/-- Counting what flips break asks nothing. -/
lemma consults_tiesOf (breaks : α → Nat → Except Fault Nat) (start : Nat)
    (candidates : List α) :
    Consults id (tiesOf breaks start candidates : EStateM Fault γ (Nat × List α)) := by
  rw [tiesOf]
  split
  · exact .pure _
  · exact .throw _

/-- A member that is chosen for a kind of flip. -/
lemma consults_move (members : List α) (move : Move) :
    Consults id (do
      let v ← RandomSource.pickMember members
      pure (v, move) : EStateM Fault γ (α × Move)) :=
  (consults_pickMember members).bind fun _ => .pure _

/-- The choice of a flip. -/
lemma consults_chooseFlip (policy : Policy) (breaks : α → Nat → Except Fault Nat)
    (start : Nat) (candidates : List α) :
    Consults id (chooseFlip policy breaks start candidates : EStateM Fault γ (α × Move)) := by
  have hnoise : Consults id (noiseMove candidates : EStateM Fault γ (α × Move)) :=
    consults_move candidates .noise
  have hgreedy : ∀ ties : List α, Consults id (greedyMove ties : EStateM Fault γ (α × Move)) :=
    fun ties => consults_move ties .greedy
  have hzero : ∀ ties : List α,
      Consults id (zeroBreakMove ties : EStateM Fault γ (α × Move)) := by
    rintro (_ | ⟨v, _ | ⟨w, vs⟩⟩)
    · exact consults_move [] .zeroBreak
    · exact .pure _
    · exact consults_move (v :: w :: vs) .zeroBreak
  rw [chooseFlip]
  refine .ite ?_ ?_
  · refine (consults_tiesOf breaks start candidates).bind fun found => ?_
    refine .ite (hzero found.2) ?_
    exact (consults_coin policy.noise).bind fun heads => .ite hnoise (hgreedy found.2)
  · refine (consults_coin policy.noise).bind fun heads => .ite hnoise ?_
    exact (consults_tiesOf breaks start candidates).bind fun found => hgreedy found.2

end

namespace Solver

/-! ### Searches -/

/-- Completing the forced values asks for coins only. -/
lemma consults_complete (f : Forced n) (vs : List (Fin n)) :
    Consults Prod.snd (complete f vs : EStateM Fault (Assignment n × γ) Unit) := by
  induction vs with
  | nil => exact .pure ()
  | cons v vs ih =>
      rintro ⟨a, g⟩
      cases hv : f.get v with
      | some b =>
          rw [Leads, complete_cons_some hv]
          exact ih (a.write v b, g)
      | none =>
          rw [Leads, complete_cons_none hv]
          cases hc : RandomSource.coin (0.5 : Float) g with
          | ok b g' =>
              refine (ih (a.write v b, g')).mono (fun _ t ht => ?_) fun _ _ => id
              exact (consulted_of_coin hc).trans ht
          | error e g' => trivial

/-- Setting up a search. -/
lemma consults_initSearch : Consults source (initSearch : Action n γ Unit) := by
  intro s
  have h := consults_complete s.forced (List.finRange n) (Vector.replicate n false, s.source)
  rw [Leads, initSearch]
  cases hc : complete s.forced (List.finRange n) (Vector.replicate n false, s.source) with
  | ok u t => exact h.ok hc
  | error e t => trivial

/-- The choice of the next flip. -/
lemma consults_pickNext : Consults source (pickNext : Action n γ (Fin n × Move)) := by
  refine .bind .get fun s => .bind (.of_fixes (fixes_attempt _)) fun c t => ?_
  exact consults_ask (consults_chooseFlip _ _ _ _) t

/-- A flip with its record and its row of the report. -/
lemma consults_step : Consults source (step : Action n γ Unit) := by
  refine consults_pickNext.bind fun chosen => ?_
  refine .bind (.of_fixes (fixes_flipVariable (fun _ _ _ => rfl) chosen.1)) fun _ => ?_
  refine .bind (.of_fixes (.modify fun _ => rfl)) fun _ => ?_
  exact .of_fixes (fixes_progress fun _ _ => rfl)

/-- However many flips there are. -/
lemma consults_searchFor (left : Nat) :
    Consults source (searchFor left : Action n γ Status) := by
  induction left with
  | zero =>
      refine .bind .get fun s => ?_
      split
      · exact .throw _
      · exact .pure _
  | succ left ih =>
      refine .bind .get fun s => ?_
      split
      · exact .throw _
      · exact .ite (.pure _) (consults_step.bind fun _ => ih)

/-! ### Solves -/

/-- The search of a solve. -/
lemma consults_solveSearch : Consults source (solveSearch : Action n γ Status) := by
  rw [solveSearch_eq]
  refine .bind (.of_fixes (.modify fun _ => rfl)) fun _ => ?_
  refine consults_initSearch.bind fun _ => .bind .get fun s => ?_
  refine .bind (.of_fixes (fixes_announce (fun _ _ => rfl) _)) fun _ => ?_
  have hsearch : Consults source (search s.maxFlips : Action n γ Status) :=
    .bind .get fun _ => consults_searchFor _
  refine hsearch.bind fun status => .of_fixes ?_
  exact fixes_finished (fun _ _ => rfl) (fun _ _ => rfl) status fun _ => rfl

/-- A solve. -/
lemma consults_solve : Consults source (solve : Action n γ Status) := by
  have hend : Consults source (concluded : Action n γ Status) := by
    refine .bind .get fun s => .ite consults_solveSearch ?_
    exact .bind (.of_fixes (.modify fun _ => rfl)) fun _ => .pure _
  rw [solve_eq]
  refine .bind (.of_fixes (.modify fun _ => rfl)) fun _ => .bind .get fun s => ?_
  exact .ite (.bind (.of_fixes fixes_source_simplify) fun _ => hend) hend

end Solver

end LocalSat
