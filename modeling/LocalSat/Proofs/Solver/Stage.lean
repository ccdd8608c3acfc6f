/-
The stages of the search of a solve.

* `setOff`, `carryOn`: a solve up to its search, and from there on; `solve_eq_setOff`: together
  they make a solve;
* `leads_setOff`: what a search sets off with, when the clauses were simplified to the end;
* `Stage u a t`: what is left alone between the state `u`, in which a search sets off with the
  assignment `a`, and the state `t`;
* `stage_of_tracked`, `leads_search_stage`, `leads_carryOn_stage`: so it is after any number of
  flips, and after the end of the search.
-/
import LocalSat.Proofs.Solver.Solve

namespace LocalSat.Solver

variable {n : Nat} {γ : Type}

/-! ### Setting off -/

section

variable [RandomSource γ]

/-- Sets up and announces the search of a solve, unless the clauses are refuted. Gives the number of
flips that the search may make. -/
def readied : Action n γ (Option Int) := do
  if (← get).ok then
    modify cleared
    initSearch
    let s ← get
    announce (Report.headLines s s.maxFlips)
    pure (some s.maxFlips)
  else pure none

/-- A solve up to its search: the simplification if there was no pass yet, and setting up. -/
def setOff : Action n γ (Option Int) := do
  modify fun s => { s with model := none }
  if (← get).rounds = 0 then
    let _ ← simplify
    readied
  else readied

/-- A solve from its search on. -/
def carryOn : Option Int → Action n γ Status
  | some budget => search budget >>= finished
  | none => do
      modify fun s => { s with status := .contradiction }
      pure .contradiction

/-- The end of a solve is that of a search which is set up, unless the clauses are refuted. -/
lemma concluded_eq_readied : (concluded : Action n γ Status) = readied >>= carryOn := by
  funext s
  rw [concluded, readied, bind_assoc, get_bind_run, get_bind_run]
  cases s.ok with
  | true =>
      simp only [if_true, solveSearch_eq, bind_assoc, pure_bind, carryOn]
  | false => rfl

/-- A solve sets off and carries on. -/
lemma solve_eq_setOff : (solve : Action n γ Status) = setOff >>= carryOn := by
  rw [solve_eq, setOff, bind_assoc, concluded_eq_readied]
  congr 1
  funext _ s
  rw [bind_assoc, get_bind_run, get_bind_run]
  split <;> simp only [bind_assoc]

/-- When no clause of a search can be reduced, or when there was no pass over the clauses yet, a
search sets off with clauses that cannot be reduced, and from an assignment that agrees with the
forced values. -/
lemma leads_setOff {s : Solver n γ}
    (h : s.ok = true → s.rounds ≠ 0 → Irreducible s.forced s.clauses.toList) :
    Leads setOff s
      (fun budget u => budget.isSome = true →
        Irreducible u.forced u.clauses.toList ∧ ∃ a, u.Tracked a ∧ u.forced.Agrees a)
      fun _ _ => True := by
  have hready : ∀ t : Solver n γ, (t.ok = true → Irreducible t.forced t.clauses.toList) →
      Leads readied t
        (fun budget u => budget.isSome = true →
          Irreducible u.forced u.clauses.toList ∧ ∃ a, u.Tracked a ∧ u.forced.Agrees a)
        fun _ _ => True := by
    intro t ht
    rw [readied, leads_bind, leads_get, leads_ite]
    split
    · next hok =>
      rw [leads_bind, leads_modify, leads_bind]
      refine (leads_initSearch (faultsWithin_true γ) t.cleared).mono ?_ fun _ _ _ => trivial
      rintro _ _ ⟨a, g, rfl, ha⟩
      rw [leads_bind, leads_get, leads_bind]
      refine (leads_announce _ _).mono ?_ fun _ _ _ => trivial
      rintro _ _ ⟨r, rfl⟩ _
      exact ⟨ht hok, a, (tracked_started t.cleared a g).congr rfl rfl rfl, ha⟩
    · exact fun hsome => absurd hsome (by decide)
  rw [setOff, leads_bind, leads_modify, leads_bind, leads_get, leads_ite]
  split
  · rw [leads_bind]
    refine leads_simplify_of (fun hok => hready _ fun hok' => ?_)
      (fun _ loud => hready _ fun hok => ?_) fun _ _ _ => trivial
    · rw [hok] at hok'
      cases hok'
    · exact ((justified_propagate s.forced s.forcedCount s.clauses.toList).reduces hok).2
  · next hr => exact hready _ fun hok => h hok hr

end

/-! ### Stages -/

/-- What a search leaves alone from the state `u`, in which it sets off with the assignment `a`,
to the state `t`: the clauses, the forced values, and the values of variables that are forced or
occur in no clause. What is flipped next, if anything, is none of these. -/
structure Stage [RandomSource γ] (u : Solver n γ) (a : Assignment n) (t : Solver n γ) : Prop where
  /-- The clauses that are left stay. -/
  clauses : t.clauses = u.clauses
  /-- So do the forced values. -/
  forced : t.forced = u.forced
  /-- The current assignment, which the index tracks the clauses under, agrees with the forced
  values, and with the assignment at the start where no clause has the variable. -/
  tracked : ∃ b, t.Tracked b ∧ u.forced.Agrees b
    ∧ ∀ v, (∀ c ∈ u.clauses.toList, v ∉ c.map Literal.var) → b.get v = a.get v
  /-- A variable that is chosen is one of the clause in the first slot and not forced, and it is
  flipped. -/
  next : ∀ v move t', pickNext t = .ok (v, move) t' →
    (∃ c ∈ u.clauses.toList, t.firstResidual = .ok c ∧ v ∈ c.map Literal.var)
      ∧ u.forced.get v = none
      ∧ ∃ t'', flipVariable v t' = .ok () t'' ∧ t''.values = t.values.map (·.flip v)

variable [RandomSource γ] {u t : Solver n γ} {a b : Assignment n}

/-- A choice is made in the clause in the first slot. -/
lemma firstResidual_of_pickNext {chosen : Fin n × Move} {t' : Solver n γ}
    (h : pickNext t = .ok chosen t') : ∃ c, t.firstResidual = .ok c := by
  cases hc : t.firstResidual with
  | ok c => exact ⟨c, rfl⟩
  | error e =>
      rw [pickNext, get_bind_run, hc] at h
      cases h

omit [RandomSource γ] in
/-- There is a clause in the first slot only if some clause is not satisfied. -/
lemma Tracked.not_satisfies (hb : t.Tracked b) {c : Clause n} (hc : t.firstResidual = .ok c) :
    ¬b.Satisfies t.clauses.toList := by
  intro hsat
  obtain ⟨m, x, -, hx, -⟩ := hb.2
  have hempty : x.residual.slots = #[] := by
    simpa [ResidualSet.isEmpty] using (hb.isEmpty_iff hx).2 hsat
  simp [firstResidual, hx, ResidualSet.first?, hempty] at hc

/-- As long as the index tracks the clauses, and the assignment is as it has to be, no choice
touches what is to be left alone. -/
lemma stage_of_tracked (hirr : Irreducible u.forced u.clauses.toList) (hb : t.Tracked b)
    (hclauses : t.clauses = u.clauses) (hforced : t.forced = u.forced)
    (hagrees : u.forced.Agrees b)
    (hkeeps : ∀ v, (∀ c ∈ u.clauses.toList, v ∉ c.map Literal.var) → b.get v = a.get v) :
    Stage u a t := by
  refine ⟨hclauses, hforced, ⟨b, hb, hagrees, hkeeps⟩, fun v move t' hchosen => ?_⟩
  obtain ⟨d, hd⟩ := firstResidual_of_pickNext hchosen
  obtain ⟨c, hc, hfirst, -⟩ := hb.exists_firstResidual (hb.not_satisfies hd)
  rw [hclauses] at hc
  have hpick : pick c t = .ok (v, move) t' := by
    rw [pickNext, get_bind_run, hfirst] at hchosen
    exact hchosen
  obtain ⟨⟨g, rfl⟩, l, hl, rfl⟩ :=
    (leads_pick (faultsWithin_true γ) hb (hirr.ne_nil c hc)).ok hpick
  obtain ⟨x, hflip, -⟩ :=
    exists_flipVariable (s := { t with source := g }) (hb.congr rfl rfl rfl) l.var
  refine ⟨⟨c, hc, hfirst, List.mem_map_of_mem hl⟩, (hirr c hc).1.free l hl, _, hflip, ?_⟩
  rw [hb.1]
  rfl

/-- A search that sets off with clauses that cannot be reduced leaves alone what is forced or occurs
in no clause, after any number of flips. -/
lemma leads_search_stage (hirr : Irreducible u.forced u.clauses.toList) (ha : u.Tracked a)
    (hagrees : u.forced.Agrees a) (k : Int) :
    Leads (search k) u (fun _ t => Stage u a t) fun _ _ => True := by
  rw [search, leads_bind, leads_get]
  -- both are kept by flips of variables that occur in the clauses
  have hflips := leads_searchFor (faultsWithin_true γ) (P := fun b => u.forced.Agrees b
      ∧ ∀ v, (∀ c ∈ u.clauses.toList, v ∉ c.map Literal.var) → b.get v = a.get v)
    (k - u.counters.flips).toNat ha hirr.ne_nil ?_ ⟨hagrees, fun _ _ => rfl⟩
  · refine (hflips.and (fixes_base_searchFor _ u)).mono ?_ fun _ _ _ => trivial
    rintro _ t ⟨⟨-, b, hb, ⟨hbagrees, hkeeps⟩, -⟩, hbase⟩
    exact stage_of_tracked hirr hb (congrArg (fun b : Solver n Unit => b.clauses) hbase)
      (congrArg (fun b : Solver n Unit => b.forced) hbase) hbagrees hkeeps
  · rintro b ⟨hbagrees, hkeeps⟩ c hc l hl
    refine ⟨Forced.Agrees.flip hbagrees ((hirr c hc).1.free l hl), fun v hv => ?_⟩
    have hne : l.var ≠ v := by
      rintro rfl
      exact hv c hc (List.mem_map_of_mem hl)
    rw [Assignment.get_flip, if_neg hne]
    exact hkeeps v hv

/-- What is left alone by a search is left alone by what comes after it in a solve. -/
lemma leads_carryOn_stage (hirr : Irreducible u.forced u.clauses.toList) (ha : u.Tracked a)
    (hagrees : u.forced.Agrees a) (budget : Int) :
    Leads (carryOn (some budget)) u (fun _ t => Stage u a t) fun _ _ => True := by
  rw [carryOn, leads_bind]
  refine (leads_search_stage hirr ha hagrees budget).mono (fun status t hstage => ?_) fun _ _ => id
  have hend := fixes_finished (f := fun s => (s.values, s.index, s.clauses, s.forced))
    (fun _ _ => rfl) (fun _ _ => rfl) status (fun _ => rfl) t
  refine hend.mono (fun _ t' ht' => ?_) fun _ _ _ => trivial
  obtain ⟨hv, hx, hcl, hf⟩ : t'.values = t.values ∧ t'.index = t.index
      ∧ t'.clauses = t.clauses ∧ t'.forced = t.forced := by simpa using ht'
  obtain ⟨b, hb, hbagrees, hkeeps⟩ := hstage.tracked
  exact stage_of_tracked hirr (hb.congr hv hx hcl) (hcl.trans hstage.clauses)
    (hf.trans hstage.forced) hbagrees hkeeps

end LocalSat.Solver
