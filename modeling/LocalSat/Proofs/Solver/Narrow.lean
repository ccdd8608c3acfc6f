/-
Clauses that are narrow enough for the generator.

* `Spares m`: an operation does not fail because a choice is too wide;
* `leads_pickMember_narrow`, `leads_chooseFlip_narrow`: choices among few enough candidates;
* `Narrow cs`: all clauses have few enough literals; `narrow_of_irreducible`: clauses that
  cannot be reduced have, since each of their variables occurs once;
* `leads_searchFor_narrow`, `leads_solve_narrow`: searches on such clauses;
* `exists_solve_pcg64`: the first solve of a solver with the generator succeeds.
-/
import LocalSat.Proofs.Solver.Solve
import Mathlib.Data.Fintype.Card

namespace LocalSat

/-- An operation does not fail because a choice is too wide. -/
def Spares {σ α : Type} (m : EStateM Fault σ α) : Prop :=
  ∀ s, Leads m s (fun _ _ => True) fun e _ => e ≠ .wideChoice

namespace Spares

variable {σ α β : Type} {m m' : EStateM Fault σ α}

lemma pure (a : α) : Spares (pure a : EStateM Fault σ α) := fun _ => trivial

lemma bind {k : α → EStateM Fault σ β} (hm : Spares m) (hk : ∀ a, Spares (k a)) :
    Spares (m >>= k) := by
  intro s
  rw [leads_bind]
  exact (hm s).mono (fun a t _ => hk a t) fun _ _ => id

lemma ite {p : Prop} [Decidable p] (h : Spares m) (h' : Spares m') :
    Spares (if p then m else m') := by
  split
  · exact h
  · exact h'

end Spares

/-! ### Choices -/

/-- The generator can choose among so many members. -/
def widest : Nat := Number.twoPow 63

/-- The coins of the generator never fail. -/
lemma spares_coin (chance : Float) :
    Spares (RandomSource.coin chance : EStateM Fault Pcg64 Bool) := fun _ => trivial

section

variable {α : Type}

/-- A member is chosen from a list that is not too long. -/
lemma spares_pickMember {members : List α} (h : members.length ≤ widest) :
    Spares (RandomSource.pickMember members : EStateM Fault Pcg64 α) := by
  have hindex : Spares (RandomSource.index members.length : EStateM Fault Pcg64 Nat) := by
    intro g
    show Leads (Pcg64.index members.length) g _ _
    have hnarrow : ¬(Number.twoPow 63 : Int) < members.length := by
      rw [widest] at h
      omega
    rw [Leads, Pcg64.index]
    by_cases hempty : (members.length : Int) ≤ 0
    · rw [if_pos hempty]
      exact Fault.noConfusion
    · rw [if_neg hempty, if_neg hnarrow]
      trivial
  rw [RandomSource.pickMember]
  refine hindex.bind fun i => ?_
  cases members[i]? with
  | none => exact fun _ => Fault.noConfusion
  | some x => exact .pure x

/-- A move is chosen from a list that is not too long. -/
lemma spares_move {members : List α} (h : members.length ≤ widest) (move : Move) :
    Spares (do
      let v ← RandomSource.pickMember members
      pure (v, move) : EStateM Fault Pcg64 (α × Move)) :=
  (spares_pickMember h).bind fun v => .pure (v, move)

variable {breaks : α → Nat → Except Fault Nat}

/-- The candidates that break least are not found only where counting fails. -/
lemma exists_of_leastBreaking_error {least : Nat} {ties vs : List α} {e : Fault}
    (h : leastBreaking breaks least ties vs = .error e) : ∃ v k, breaks v k = .error e := by
  induction vs generalizing least ties with
  | nil => cases h
  | cons w vs ih =>
      cases hw : breaks w least with
      | error e' =>
          rw [leastBreaking_of_error hw] at h
          cases h
          exact ⟨w, least, hw⟩
      | ok j =>
          rw [leastBreaking_of_ok hw] at h
          split at h
          · exact ih h
          split at h
          · exact ih h
          · exact ih h

/-- A flip is chosen among candidates that are not too many. -/
lemma spares_chooseFlip (policy : Policy)
    (hbreaks : ∀ v k e, breaks v k = .error e → e ≠ .wideChoice) (start : Nat)
    {candidates : List α} (h : candidates.length ≤ widest) :
    Spares (chooseFlip policy breaks start candidates : EStateM Fault Pcg64 (α × Move)) := by
  have hties : ∀ g : Pcg64, Leads (tiesOf breaks start candidates) g
      (fun found _ => found.2.length ≤ widest) fun e _ => e ≠ .wideChoice := by
    intro g
    rw [tiesOf]
    cases hleast : leastBreaking breaks start [] candidates with
    | ok found =>
        exact (sublist_of_leastBreaking hleast).length_le.trans h
    | error e =>
        obtain ⟨v, k, hv⟩ := exists_of_leastBreaking_error hleast
        exact hbreaks v k e hv
  have hnoise : Spares (noiseMove candidates : EStateM Fault Pcg64 (α × Move)) :=
    spares_move h .noise
  have hgreedy : ∀ {ties : List α}, ties.length ≤ widest →
      Spares (greedyMove ties : EStateM Fault Pcg64 (α × Move)) :=
    fun hle => spares_move hle .greedy
  have hzero : ∀ ties : List α, ties.length ≤ widest →
      Spares (zeroBreakMove ties : EStateM Fault Pcg64 (α × Move)) := by
    rintro (_ | ⟨v, _ | ⟨w, vs⟩⟩) hle
    · exact spares_move hle .zeroBreak
    · exact .pure _
    · exact spares_move hle .zeroBreak
  rw [chooseFlip]
  refine .ite (fun g => ?_) ?_
  · rw [leads_bind]
    refine (hties g).mono (fun found g' hle => ?_) fun _ _ => id
    have hrest : Spares (if found.1 = 0 then zeroBreakMove found.2 else do
        let heads ← RandomSource.coin policy.noise
        if heads then noiseMove candidates else greedyMove found.2 :
          EStateM Fault Pcg64 (α × Move)) :=
      .ite (hzero found.2 hle) ((spares_coin _).bind fun _ => .ite hnoise (hgreedy hle))
    exact hrest g'
  · refine (spares_coin _).bind fun heads => .ite hnoise fun g => ?_
    rw [leads_bind]
    exact (hties g).mono (fun found g' hle => hgreedy hle g') fun _ _ => id

end

namespace Solver

variable {n : Nat}

/-! ### Searches -/

/-- All clauses have few enough literals for the generator to choose from. -/
def Narrow (cs : List (Clause n)) : Prop := ∀ c ∈ cs, c.length ≤ widest

/-- A free clause has no more literals than there are variables. -/
lemma length_le_of_free {f : Forced n} {c : Clause n} (h : Clause.Free f c) : c.length ≤ n :=
  calc c.length = (c.map Literal.var).length := (List.length_map _).symm
    _ ≤ Fintype.card (Fin n) := h.nodup_map_var.length_le_card
    _ = n := Fintype.card_fin n

/-- Clauses that cannot be reduced are narrow, if there are not too many variables. -/
lemma narrow_of_irreducible (hn : n ≤ widest) {f : Forced n} {cs : List (Clause n)}
    (h : Irreducible f cs) : Narrow cs :=
  fun c hc => (length_le_of_free (h c hc).1).trans hn

/-- The clause in the first slot is one of the clauses. -/
lemma mem_of_firstResidual {γ : Type} {s : Solver n γ} {c : Clause n}
    (h : s.firstResidual = .ok c) : c ∈ s.clauses.toList := by
  rw [firstResidual] at h
  split at h
  · cases h
  split at h
  · cases h
  split at h
  · cases h
  · next hc =>
    cases h
    exact Array.mem_toList_iff.2 (Array.mem_of_getElem? hc)

/-- If there is none, this is not because a choice is too wide. -/
lemma ne_wideChoice_of_firstResidual {γ : Type} {s : Solver n γ} {e : Fault}
    (h : s.firstResidual = .error e) : e ≠ .wideChoice := by
  rintro rfl
  rw [firstResidual] at h
  split at h
  · cases h
  split at h
  · cases h
  split at h
  · cases h
  · cases h

/-- A choice in a clause leads where the source does. -/
lemma leads_pick_iff {γ : Type} [RandomSource γ] {s : Solver n γ} {c : Clause n}
    {Q : Fin n × Move → Solver n γ → Prop} {E : Fault → Solver n γ → Prop} :
    Leads (pick c) s Q E ↔
      Leads (chooseFlip s.policy (fun v k => s.breakCountUpTo v k) s.clauses.size
        (c.map Literal.var)) s.source (fun chosen g => Q chosen { s with source := g })
        fun e g => E e { s with source := g } := leads_ask

/-- The next flip is chosen among the literals of a clause. -/
lemma leads_pickNext_narrow {s : Solver n Pcg64} (h : Narrow s.clauses.toList) :
    Leads pickNext s (fun _ t => ∃ g, t = { s with source := g })
      fun e _ => e ≠ .wideChoice := by
  have hfault : Leads pickNext s (fun _ _ => True) fun e _ => e ≠ .wideChoice := by
    rw [pickNext, leads_bind, leads_get, leads_bind]
    cases hc : s.firstResidual with
    | error e => exact ne_wideChoice_of_firstResidual hc
    | ok c =>
        rw [leads_attempt_ok, leads_pick_iff]
        refine spares_chooseFlip _ (fun v k e he => ?_) _ ?_ s.source
        · rw [breakCountUpTo] at he
          split at he
          · cases he
          · cases he
            exact Fault.noConfusion
        · rw [List.length_map]
          exact h c (mem_of_firstResidual hc)
  exact ((leads_pickNext_source s).and hfault).mono (fun _ _ => And.left) fun _ _ => And.right

/-- No fault of a report says that a choice is too wide. -/
lemma ReportFault.ne_wideChoice {γ : Type} {s : Solver n γ} {e : Fault} (h : s.ReportFault e) :
    e ≠ .wideChoice := by
  rcases h with ⟨-, rfl⟩ | ⟨-, rfl⟩ | ⟨-, -, -, rfl⟩ <;> exact Fault.noConfusion

/-- A step on narrow clauses makes no choice that is too wide. -/
lemma leads_step_narrow {s : Solver n Pcg64} {a : Assignment n} (htr : s.Tracked a)
    (h : Narrow s.clauses.toList) :
    Leads step s (fun _ t => (∃ b, t.Tracked b) ∧ t.clauses = s.clauses)
      fun e _ => e ≠ .wideChoice := by
  rw [step, leads_bind]
  refine (leads_pickNext_narrow h).mono ?_ fun _ _ => id
  rintro ⟨v, move⟩ _ ⟨g, rfl⟩
  obtain ⟨x, hflip, htr'⟩ :=
    exists_flipVariable (s := { s with source := g }) (htr.congr rfl rfl rfl) v
  rw [leads_bind, Leads, hflip]
  show Leads (do modify fun s => s.recorded v move; progress) _ _ _
  rw [leads_bind, leads_modify]
  refine (leads_progress _).mono ?_ fun _ _ he => he.2.ne_wideChoice
  rintro _ _ ⟨r, rfl⟩
  exact ⟨⟨_, htr'.congr rfl rfl rfl⟩, rfl⟩

/-- However many steps there are. -/
lemma leads_searchFor_narrow (left : Nat) {s : Solver n Pcg64} {a : Assignment n}
    (htr : s.Tracked a) (h : Narrow s.clauses.toList) :
    Leads (searchFor left) s (fun _ _ => True) fun e _ => e ≠ .wideChoice := by
  induction left generalizing s a with
  | zero =>
      rw [searchFor, leads_bind, leads_get]
      split
      · exact Fault.noConfusion
      · trivial
  | succ left ih =>
      rw [searchFor, leads_bind, leads_get]
      split
      · exact Fault.noConfusion
      · rw [leads_ite]
        split
        · trivial
        · rw [leads_bind]
          refine (leads_step_narrow htr h).mono ?_ fun _ _ => id
          rintro _ t ⟨⟨b, htr'⟩, hclauses⟩
          rw [← hclauses] at h
          exact ih htr' h

/-! ### Solves -/

/-- With the coins of the generator a search can always be set up. -/
lemma exists_initSearch (s : Solver n Pcg64) :
    ∃ a g, initSearch s = .ok () (s.started a g) := by
  have hcomplete : ∀ (vs : List (Fin n)) (a : Assignment n) (g : Pcg64),
      ∃ p, complete s.forced vs (a, g) = .ok () p := by
    intro vs
    induction vs with
    | nil => exact fun a g => ⟨(a, g), rfl⟩
    | cons v vs ih =>
        intro a g
        cases hv : s.forced.get v with
        | some b =>
            rw [complete_cons_some hv]
            exact ih _ _
        | none =>
            rw [complete_cons_none hv]
            exact ih _ _
  obtain ⟨p, hp⟩ := hcomplete (List.finRange n) (Vector.replicate n false) s.source
  exact ⟨p.1, p.2, by rw [initSearch, hp]⟩

/-- The final check fails in one way only. -/
lemma leads_acceptModel_fault {γ : Type} (s : Solver n γ) :
    Leads acceptModel s (fun _ _ => True) fun e _ => e = .invalidModel := by
  rw [Leads, acceptModel_run]
  by_cases hbad : (s.values.any fun a => s.options.checkModel && !s.confirms a) = true
  · rw [if_pos hbad]
  · rw [if_neg hbad]
    trivial

/-- The search of a solve on narrow clauses makes no choice that is too wide. -/
lemma leads_solveSearch_narrow {s : Solver n Pcg64} (h : Narrow s.clauses.toList) :
    Leads solveSearch s (fun _ _ => True) fun e _ => e ≠ .wideChoice := by
  obtain ⟨a, g, hinit⟩ := exists_initSearch s.cleared
  rw [solveSearch_eq, leads_bind, leads_modify, leads_bind, Leads, hinit]
  show Leads (get >>= _) (s.cleared.started a g) _ _
  rw [leads_bind, leads_get, leads_bind]
  refine (leads_announce _ _).mono ?_ fun _ _ he => he.2.ne_wideChoice
  rintro _ _ ⟨r, rfl⟩
  rw [leads_bind, search, leads_bind, leads_get]
  have htr : Tracked { s.cleared.started a g with report := r } a :=
    (tracked_started s.cleared a g).congr rfl rfl rfl
  refine (leads_searchFor_narrow _ htr h).mono (fun status t _ => ?_) fun _ _ => id
  -- the end of a search fails with its report or the final check only
  rw [finished, leads_bind, leads_modify, leads_bind]
  refine (leads_announce _ _).mono ?_ fun _ _ he => he.2.ne_wideChoice
  rintro _ u ⟨r', rfl⟩
  rw [leads_ite]
  split
  · rw [leads_bind]
    exact (leads_acceptModel_fault _).mono (fun _ _ _ => trivial) fun _ _ he =>
      he ▸ Fault.noConfusion
  · trivial

/-- The first solve makes no choice that is too wide, if there are not too many variables. -/
lemma leads_solve_narrow (hn : n ≤ widest) {s : Solver n Pcg64} (hr : s.rounds = 0) :
    Leads solve s (fun _ _ => True) fun e _ => e ≠ .wideChoice := by
  rw [leads_solve_iff, if_pos hr]
  have hsimplify : Leads simplify { s with model := none }
      (fun _ t => t.ok = true → Narrow t.clauses.toList) fun e _ => e ≠ .wideChoice := by
    refine leads_simplify_of (fun hok hok' => ?_) (fun _ loud hok => ?_)
      fun _ e he => (he.congr rfl : s.ReportFault e).ne_wideChoice
    · rw [hok] at hok'
      cases hok'
    · exact narrow_of_irreducible hn
        ((justified_propagate s.forced s.forcedCount s.clauses.toList).reduces hok).2
  refine hsimplify.mono (fun _ t ht => ?_) fun _ _ => id
  exact leads_concluded_of (fun hok => leads_solveSearch_narrow (ht hok)) fun _ => trivial

/-- The first solve of sound clauses with the generator succeeds, if there are not too many
variables and the report does not fail. -/
lemma exists_solve_pcg64 (hn : n ≤ widest) {s : Solver n Pcg64} (hr : s.rounds = 0)
    (hsound : s.Sound) (hreport : ∀ e, ¬s.ReportFault e) :
    ∃ status t, solve s = .ok status t ∧ t.Answered status := by
  have hanswer := (leads_solve_of_sound faultsWithin_pcg64 hsound).and (leads_solve_narrow hn hr)
  cases hsolve : solve s with
  | ok status t => exact ⟨status, t, rfl, (hanswer.ok hsolve).1⟩
  | error e t =>
      obtain ⟨⟨-, hwide | hfault⟩, hne⟩ := hanswer.error hsolve
      · exact absurd hwide hne
      · exact absurd hfault (hreport e)

end Solver

end LocalSat
