/-
What a solver holds during a search.

* `opening`: the coins of the variables without a forced value; `leads_complete_replies`:
  completing the forced values asks for these, in order;
* `Tracked.unsat_eq`, `Tracked.breakCount_eq`, `Tracked.breakCountUpTo_eq`: what is counted in a
  tracked search;
* `Account g a turns t`: the state `t` is that of a search that was set up with the source `g`,
  started from the assignment `a` and made the turns in `turns`;
* `leads_initSearch_account`, `leads_step_account`, `leads_searchFor_account`: setting up a
  search gives such a state, a step adds one turn, and so a search adds some;
* `leads_solve_account`: so it is with a solve.
-/
import LocalSat.Proofs.Search.Turn
import LocalSat.Proofs.Solver.Bookkeeping
import LocalSat.Proofs.Solver.Budget
import LocalSat.Proofs.Solver.Solve
import Mathlib.Order.Bounds.Defs

namespace LocalSat.Solver

variable {n : Nat} {γ : Type}

/-! ### Setting up -/

/-- The coins that are asked for before a search: one for each variable without a forced value,
in ascending order. They show the values at the start. -/
def opening (f : Forced n) (a : Assignment n) : List Reply :=
  ((List.finRange n).filter fun v => (f.get v).isNone).map fun v => .coin 0.5 (a.get v)

/-- Completing the forced values asks for the coins of the variables without one. -/
lemma leads_complete_replies [RandomSource γ] (f : Forced n) {vs : List (Fin n)}
    (hvs : vs.Nodup) (a : Assignment n) (g : γ) :
    Leads (complete f vs) (a, g)
      (fun _ t => Replies g
        ((vs.filter fun v => (f.get v).isNone).map fun v => .coin 0.5 (t.1.get v)) t.2)
      fun _ _ => True := by
  induction vs generalizing a g with
  | nil => exact .nil g
  | cons v vs ih =>
      obtain ⟨hv, hvs⟩ := List.nodup_cons.1 hvs
      cases hf : f.get v with
      | some b =>
          rw [Leads, complete_cons_some hf]
          have hskip : (v :: vs).filter (fun w => (f.get w).isNone)
              = vs.filter fun w => (f.get w).isNone := by simp [hf]
          rw [hskip]
          exact ih hvs (a.write v b) g
      | none =>
          rw [Leads, complete_cons_none hf]
          cases hc : RandomSource.coin (0.5 : Float) g with
          | error e g' => trivial
          | ok b g' =>
              have hkeep := leads_complete (faultsWithin_true γ) f vs (a.write v b) g'
              refine ((ih hvs (a.write v b) g').and hkeep).mono ?_ fun _ _ _ => trivial
              rintro _ t ⟨hreplies, -, hkeep⟩
              -- the side that the coin shows is the value of the variable to the end
              have hvalue : t.1.get v = b := by
                rw [hkeep v hv, Table.get_write, if_pos rfl]
              rw [List.filter_cons, hf, Option.isNone_none, if_pos rfl, List.map_cons, hvalue]
              exact .coin hc hreplies

/-! ### What is counted -/

/-- The clauses that are residual in a tracked search are those without a true literal. -/
lemma Tracked.unsat_eq {s : Solver n γ} {a : Assignment n} (h : s.Tracked a) :
    s.unsat = a.falsified s.clauses.toList := by
  obtain ⟨-, m, x, clauses, hx, hcl, htr⟩ := h
  rw [unsat, hx, ← hcl]
  exact htr.size_eq

/-- The break count of a variable is the number of clauses that a flip breaks. -/
lemma Tracked.breakCount_eq {s : Solver n γ} {a : Assignment n} (h : s.Tracked a) (v : Fin n) :
    s.breakCount v = .ok (a.breaks s.clauses.toList v) := by
  obtain ⟨x, hcur, htr⟩ := h.exists_current
  rw [Solver.breakCount, hcur]
  exact congrArg Except.ok (htr.breakCount_eq v)

/-- Counts up to a bound are those of the clauses that a flip breaks. -/
lemma Tracked.breakCountUpTo_eq {s : Solver n γ} {a : Assignment n} (h : s.Tracked a)
    (v : Fin n) (bound : Nat) :
    s.breakCountUpTo v bound = .ok (min (a.breaks s.clauses.toList v) (bound + 1)) := by
  obtain ⟨x, hcur, htr⟩ := h.exists_current
  have hfull : x.breakCount a v = a.breaks s.clauses.toList v := htr.breakCount_eq v
  rw [Solver.breakCountUpTo, hcur, ← hfull]
  exact congrArg Except.ok (x.breakCountUpTo_eq a v bound)

/-! ### The account of a search -/

variable [RandomSource γ]

/-- The state of a search that was set up with the source `g`, started from the assignment `a`
and made some turns. -/
structure Account (g : γ) (a : Assignment n) (turns : List (Turn n)) (t : Solver n γ) :
    Prop where
  /-- The assignment at the start agrees with the forced values. -/
  agrees : t.forced.Agrees a
  /-- The turns are those that the policy allows. -/
  plays : Plays t.policy t.clauses.toList a turns
  /-- The current assignment is the one after the turns. -/
  tracked : t.Tracked (played a turns)
  /-- The assignment at the start is kept if there is a record. -/
  initial : t.options.recordTrace = true → t.initial = some a
  /-- The source was asked for the coins at the start, and for each turn in order. -/
  replies : Replies g (opening t.forced a ++ turns.flatMap Turn.replies) t.source
  /-- The turns are counted. -/
  counters : t.counters = tally turns
  /-- The flips are recorded if there is a record. -/
  trace : t.trace.toList = if t.options.recordTrace then turns.map Turn.event else []
  /-- The smallest number of clauses without a true literal was there after some of the
  turns. -/
  least : IsLeast {k | ∃ us, us <+: turns ∧ k = (played a us).falsified t.clauses.toList}
    t.minUnsat

/-- The state without what is no part of an account. -/
def accounted (s : Solver n γ) : Solver n γ :=
  { s with verbosity := none, progressInterval := none, ok := true, added := #[], rounds := 0,
           forcedCount := 0, model := none, status := .undefined, report := #[] }

namespace Account

variable {g : γ} {a : Assignment n} {turns : List (Turn n)} {s t : Solver n γ}

/-- An account holds of every state that is the same but for other things. -/
lemma congr (h : Account g a turns s) (hst : t.accounted = s.accounted) :
    Account g a turns t := by
  have hs : Account g a turns s.accounted :=
    ⟨h.agrees, h.plays, h.tracked, h.initial, h.replies, h.counters, h.trace, h.least⟩
  rw [← hst] at hs
  exact ⟨hs.agrees, hs.plays, hs.tracked, hs.initial, hs.replies, hs.counters, hs.trace,
    hs.least⟩

/-- The smallest number of clauses without a true literal is zero when all clauses are
satisfied in the end, since no turn is made after that. -/
lemma minUnsat_eq_zero_iff (h : Account g a turns t) : t.minUnsat = 0 ↔ t.unsat = 0 := by
  rw [h.tracked.unsat_eq]
  constructor
  · intro hmin
    obtain ⟨us, hus, hzero⟩ := h.least.1
    by_cases heq : us = turns
    · rw [← heq, ← hzero, hmin]
    · have hpos := h.plays.falsified_pos hus heq
      omega
  · intro hzero
    have hle := h.least.2 ⟨turns, List.prefix_rfl, rfl⟩
    omega

/-- A turn that fits is accounted for when its flip is recorded. -/
lemma moved (h : Account g a turns t) {u : Turn n} {g' : γ} {x : Sigma (Index n)}
    (hfits : u.Fits t.policy t.clauses.toList (played a turns))
    (hreplies : Replies t.source u.replies g')
    (htr : Tracked
      { t with source := g', values := some ((played a turns).flip u.var), index := some x }
      ((played a turns).flip u.var)) :
    Account g a (turns ++ [u]) (t.moved g' (played a turns) x u.var u.event.move) where
  agrees := h.agrees
  plays := h.plays.concat hfits
  tracked := by
    rw [played_concat]
    exact htr.congr rfl rfl rfl
  initial := h.initial
  replies := by
    rw [List.flatMap_append, List.flatMap_singleton, ← List.append_assoc]
    exact h.replies.append hreplies
  counters := by
    rw [tally_concat, ← h.counters]
    rfl
  trace := by
    have hliteral : ((played a turns).flip u.var).literal u.var = u.event.literal := by
      rw [hfits.literal, Assignment.literal, Assignment.get_flip, if_pos rfl]
      rfl
    rw [toList_trace_moved, h.trace, hliteral, List.map_append]
    show _ = if t.options.recordTrace then _ else _
    split <;> rfl
  least := by
    have hmin : (t.moved g' (played a turns) x u.var u.event.move).minUnsat
        = min t.minUnsat ((played a (turns ++ [u])).falsified t.clauses.toList) := by
      rw [played_concat]
      exact congrArg (min t.minUnsat) htr.unsat_eq
    obtain ⟨⟨us, hus, hattained⟩, hbound⟩ := h.least
    rw [hmin]
    -- the prefixes of the turns are those from before and all of the turns
    constructor
    · rcases Nat.le_total t.minUnsat ((played a (turns ++ [u])).falsified t.clauses.toList)
        with hle | hle
      · rw [Nat.min_eq_left hle]
        exact ⟨us, hus.trans (List.prefix_append ..), hattained⟩
      · rw [Nat.min_eq_right hle]
        exact ⟨turns ++ [u], List.prefix_rfl, rfl⟩
    · rintro k ⟨us, hus, rfl⟩
      rcases List.prefix_concat_iff.1 hus with rfl | hus
      · exact Nat.min_le_right ..
      · exact (Nat.min_le_left ..).trans (hbound ⟨us, hus, rfl⟩)

end Account

/-- A search is set up with an account of no turns. -/
lemma leads_initSearch_account {s : Solver n γ} (hcounters : s.counters = .zero)
    (htrace : s.trace = #[]) :
    Leads initSearch s (fun _ t => ∃ a, Account s.source a [] t) fun _ _ => True := by
  have hreplies := leads_complete_replies s.forced (List.nodup_finRange n)
    (Vector.replicate n false) s.source
  have hagrees := leads_complete (faultsWithin_true γ) s.forced (List.finRange n)
    (Vector.replicate n false) s.source
  rw [Leads, initSearch]
  cases hc : complete s.forced (List.finRange n) (Vector.replicate n false, s.source) with
  | error e t => trivial
  | ok u t =>
      have htr : (s.started t.1 t.2).Tracked t.1 := tracked_started s t.1 t.2
      refine ⟨t.1, ?_, .nil _ _ _, htr, fun hrecord => if_pos hrecord, ?_, hcounters, ?_, ?_⟩
      · exact fun v b hb => (hagrees.ok hc).1 v (List.mem_finRange v) b hb
      · rw [List.flatMap_nil, List.append_nil]
        exact hreplies.ok hc
      · show s.trace.toList = _
        rw [htrace]
        exact (ite_self []).symm
      · have hmin : (s.started t.1 t.2).minUnsat = t.1.falsified s.clauses.toList :=
          htr.unsat_eq
        rw [hmin]
        refine ⟨⟨[], List.prefix_rfl, rfl⟩, ?_⟩
        rintro k ⟨us, hus, rfl⟩
        rw [List.prefix_nil.1 hus]
        exact le_rfl

/-- Where some clause has no true literal, the choice of a flip gives a turn that fits. -/
lemma leads_pickNext_fits {t : Solver n γ} {a : Assignment n} (h : t.Tracked a)
    (hpos : 0 < t.unsat) :
    Leads pickNext t
      (fun chosen t' => ∃ u : Turn n, u.Fits t.policy t.clauses.toList a
        ∧ (u.var, u.event.move) = chosen
        ∧ ∃ g, Replies t.source u.replies g ∧ t' = { t with source := g })
      fun _ _ => True := by
  have hsat : ¬a.Satisfies t.clauses.toList := by
    rw [← Assignment.falsified_eq_zero_iff, ← h.unsat_eq]
    omega
  obtain ⟨c, hc, hfirst, hfalse⟩ := h.exists_firstResidual hsat
  rw [pickNext, leads_bind, leads_get, leads_bind, hfirst, leads_attempt_ok]
  show Leads (ask (chooseFlip t.policy (fun v k => t.breakCountUpTo v k) t.clauses.size
    (c.map Literal.var))) t _ _
  rw [leads_ask]
  refine (leads_chooseFlip_chosen (fun v k => h.breakCountUpTo_eq v k)
    (fun v _ => a.breaks_le _ v) t.source).mono ?_ fun _ _ => id
  rintro ⟨v, move⟩ g ⟨qs, hqs, hchosen⟩
  exact ⟨⟨c, ⟨move, (a.literal v).negate⟩, qs⟩, ⟨hc, hfalse, rfl, hchosen⟩, rfl, g, hqs, rfl⟩

/-- A step adds one turn. -/
lemma leads_step_account {g : γ} {a : Assignment n} {turns : List (Turn n)} {t : Solver n γ}
    (h : Account g a turns t) (hpos : 0 < t.unsat) :
    Leads step t (fun _ t' => ∃ u, Account g a (turns ++ [u]) t') fun _ _ => True := by
  rw [step, leads_bind]
  refine (leads_pickNext_fits h.tracked hpos).mono ?_ fun _ _ => id
  rintro _ _ ⟨u, hfits, rfl, g', hreplies, rfl⟩
  obtain ⟨x, hflip, htr⟩ :=
    exists_flipVariable (s := { t with source := g' }) (h.tracked.congr rfl rfl rfl) u.var
  rw [leads_bind, Leads, hflip]
  show Leads (do modify fun s => s.recorded u.var u.event.move; progress) _ _ _
  rw [leads_bind, leads_modify]
  refine (leads_progress _).mono ?_ fun _ _ _ => trivial
  rintro _ _ ⟨r, rfl⟩
  exact ⟨u, (h.moved hfits hreplies htr).congr rfl⟩

/-- A search adds turns. It says that it has found an assignment when no clause is left
without a true literal. -/
lemma leads_searchFor_account {g : γ} {a : Assignment n} {turns : List (Turn n)}
    (left : Nat) {t : Solver n γ} (h : Account g a turns t) :
    Leads (searchFor left) t
      (fun status t' => (∃ turns', Account g a turns' t')
        ∧ (status = .satisfied ↔ t'.unsat = 0))
      fun _ _ => True := by
  have hindex : t.index.isSome = true := by
    obtain ⟨-, m, x, -, hx, -⟩ := h.tracked
    rw [hx, Option.isSome_some]
  induction left generalizing t turns with
  | zero =>
      obtain hzero | hpos := Nat.eq_zero_or_pos t.unsat
      · exact (leads_of_ok (searchFor_of_unsat_eq_zero hindex hzero 0)).2
          ⟨⟨turns, h⟩, by simp [hzero]⟩
      · exact (leads_of_ok (searchFor_zero hpos)).2 ⟨⟨turns, h⟩, by simp; omega⟩
  | succ left ih =>
      obtain hzero | hpos := Nat.eq_zero_or_pos t.unsat
      · exact (leads_of_ok (searchFor_of_unsat_eq_zero hindex hzero _)).2
          ⟨⟨turns, h⟩, by simp [hzero]⟩
      · rw [Leads, searchFor_succ hpos]
        refine leads_bind.2 ((leads_step_account h hpos).mono ?_ fun _ _ => id)
        rintro _ t' ⟨u, h'⟩
        obtain ⟨-, m, x, -, hx, -⟩ := h'.tracked
        exact ih h' (by rw [hx, Option.isSome_some])

/-! ### Solves -/

/-- What a solve leads to, if it does not find that the clauses are refuted: the account of its
search, and what its answer says about it. -/
def Accounted (g : γ) (status : Status) (t : Solver n γ) : Prop :=
  (∃ a turns, Account g a turns t) ∧ (status = .satisfied ↔ t.minUnsat = 0)

/-- The search of a solve. -/
lemma leads_solveSearch_account (s : Solver n γ) :
    Leads solveSearch s (fun status t => Accounted s.source status t) fun _ _ => True := by
  rw [solveSearch_eq, leads_bind, leads_modify, leads_bind]
  refine (leads_initSearch_account (s := s.cleared) rfl rfl).mono ?_ fun _ _ => id
  rintro _ t ⟨a, h⟩
  rw [leads_bind, leads_get, leads_bind]
  refine (leads_announce _ t).mono ?_ fun _ _ _ => trivial
  rintro _ _ ⟨r, rfl⟩
  rw [leads_bind, search, leads_bind, leads_get]
  have hstart : Account s.source a [] { t with report := r } := h.congr rfl
  refine (leads_searchFor_account _ hstart).mono ?_ fun _ _ => id
  rintro status t' ⟨⟨turns, h'⟩, hstatus⟩
  have hkeep := fixes_finished (f := accounted) (fun _ _ => rfl) (fun _ _ => rfl) status
    (fun _ => rfl) t'
  refine ((gives_finished status t').and hkeep).mono ?_ fun _ _ _ => trivial
  rintro _ t'' ⟨rfl, ht''⟩
  have hmin : t''.minUnsat = t'.minUnsat := by
    show t''.accounted.minUnsat = t'.accounted.minUnsat
    rw [ht'']
  refine ⟨⟨a, turns, h'.congr ht''⟩, ?_⟩
  rw [hstatus, hmin, h'.minUnsat_eq_zero_iff]

/-- A solve. -/
lemma leads_solve_account (s : Solver n γ) :
    Leads solve s (fun status t => status ≠ .contradiction → Accounted s.source status t)
      fun _ _ => True := by
  have hend : ∀ t : Solver n γ, t.source = s.source →
      Leads concluded t (fun status t => status ≠ .contradiction → Accounted s.source status t)
        fun _ _ => True := by
    intro t ht
    refine leads_concluded_of (fun _ => ?_) fun _ hne => absurd rfl hne
    rw [← ht]
    exact (leads_solveSearch_account t).mono (fun _ _ h _ => h) fun _ _ => id
  rw [leads_solve_iff]
  split
  · refine (fixes_source_simplify _).mono ?_ fun _ _ _ => trivial
    exact fun _ t ht => hend t ht
  · exact hend _ rfl

end LocalSat.Solver
