/-
Solves within a smaller and a larger budget.

* `Rebudgeted few many s t`: two solvers differ in their budgets and their reports only;
  `parallel_rebudgeted`: within a budget they go alike;
* `Outlasts few many status u result`: how a run within the larger budget continues one that
  has ended within the smaller budget;
* `solve_extends`: a larger budget changes nothing in a search that succeeds, and only adds
  to one that gives up.
-/
import LocalSat.Proofs.Random.Tape
import LocalSat.Proofs.Session.Basic
import LocalSat.Proofs.Solver.Budget
import LocalSat.Proofs.Solver.Parallel

namespace LocalSat.Solver

variable {n : Nat} {γ : Type}

/-- The solver with another number of flips for each variable. -/
def withFactor (s : Solver n γ) (k : Int) : Solver n γ :=
  { s with options := { s.options with flipsFactor := k } }

/-- Two solvers differ in their budgets and their reports only. -/
def Rebudgeted (few many : Int) (s t : Solver n γ) : Prop :=
  s.options.flipsFactor = few ∧ ∃ r, t = { s.withFactor many with report := r }

/-! ### What goes alike -/

section

variable {few many : Int} {s t : Solver n γ}

/-- Two such solvers stay so under a change that touches neither the budget nor the report. -/
lemma Rebudgeted.map {f : Solver n γ → Solver n γ} (h : Rebudgeted few many s t)
    (hreport : ∀ r, f { s.withFactor many with report := r }
      = { (f s).withFactor many with report := r })
    (hfactor : (f s).options.flipsFactor = s.options.flipsFactor) :
    Rebudgeted few many (f s) (f t) := by
  obtain ⟨hk, r, rfl⟩ := h
  exact ⟨hfactor.trans hk, r, hreport r⟩

/-- Simplifications agree. -/
lemma agree_simplify_rebudgeted (h : Rebudgeted few many s t) :
    Agree (Rebudgeted few many) simplify simplify s t := by
  have hok : ∀ {s t : Solver n γ}, Rebudgeted few many s t → t.ok = s.ok := by
    rintro s _ ⟨-, r, rfl⟩
    rfl
  have hpassed : Rebudgeted few many s.passed t.passed := by
    obtain ⟨hk, r, rfl⟩ := h
    simp only [passed, withFactor]
    split <;> exact ⟨hk, r, rfl⟩
  refine agree_simplify hok h ?_ (fun loud => ?_) hpassed
  · obtain ⟨-, r, rfl⟩ := h
    rfl
  · obtain ⟨hk, r, rfl⟩ := h
    exact ⟨hk, _, rfl⟩

end

/-- Solvers that differ in their budgets and their reports only go alike within a budget. -/
lemma parallel_rebudgeted (few many : Int) :
    Parallel (Rebudgeted few many : Solver n γ → Solver n γ → Prop) where
  same := by
    rintro s _ ⟨-, r, rfl⟩
    exact ⟨rfl, rfl, rfl, rfl, rfl, rfl, rfl⟩
  reporting := by
    rintro s _ ⟨-, r, rfl⟩
    rfl
  checks := by
    rintro s _ ⟨-, r, rfl⟩
    exact ⟨rfl, rfl⟩
  source source h := h.map (f := fun s => { s with source }) (fun _ => rfl) rfl
  values values h := h.map (f := fun s => { s with values }) (fun _ => rfl) rfl
  index index h := h.map (f := fun s => { s with index }) (fun _ => rfl) rfl
  started a source h := h.map (f := fun s => s.started a source) (fun _ => rfl) rfl
  recorded v move h := h.map (f := fun s => s.recorded v move) (fun _ => rfl) rfl
  report r r' h := ⟨h.1, r', by obtain ⟨-, _, rfl⟩ := h; rfl⟩
  model model h := h.map (f := fun s => { s with model }) (fun _ => rfl) rfl
  status status h := h.map (f := fun s => { s with status }) (fun _ => rfl) rfl

/-! ### Larger budgets -/

/-- How a run within a larger budget continues one that has ended in `u` within a smaller
budget. Its result is the same, unless the smaller budget was used up: then it records the
same flips first, however it ends. -/
structure Outlasts (few many : Int) (status : Status) (u : Solver n γ)
    (result : EStateM.Result Fault (Solver n γ) Status) : Prop where
  /-- A result within the smaller budget stays. -/
  same : status ≠ .exhausted → ∃ v, result = .ok status v ∧ Rebudgeted few many u v
  /-- The flips within the smaller budget come first. -/
  more : status = .exhausted → u.trace.toList <+: (reached result).trace.toList

section

variable {few many : Int} {s t : Solver n γ}

/-- An operation that does not use up its budget outlasts one that it agrees with. -/
lemma outlasts_of_agree {m m' : Action n γ Status}
    (h : Agree (Rebudgeted few many) m m' s t)
    (hm : Gives (fun status => status ≠ .exhausted) m) :
    Leads m s (fun status u => Outlasts few many status u (m' t)) fun _ _ => True := by
  refine (Leads.and h (hm s)).mono ?_ fun _ _ _ => trivial
  rintro status u ⟨hagree, hne⟩
  exact ⟨fun _ => hagree, fun heq => absurd heq hne⟩

variable [RandomSource γ]

/-- A search with its end adds to the record. -/
lemma leads_search_finished_trace (maxFlips : Int) (s : Solver n γ) :
    Leads (search maxFlips >>= finished) s (fun _ t => s.trace.toList <+: t.trace.toList)
      fun _ t => s.trace.toList <+: t.trace.toList := by
  have hsearch : Leads (search maxFlips) s (fun _ t => s.trace.toList <+: t.trace.toList)
      fun _ t => s.trace.toList <+: t.trace.toList := leads_searchFor_trace _ s
  rw [leads_bind]
  refine hsearch.mono (fun status t ht => ?_) fun _ _ => id
  have hend := fixes_finished (f := trace) (fun _ _ => rfl) (fun _ _ => rfl) status
    (fun _ => rfl) t
  refine hend.mono ?_ ?_
  · intro _ u hu
    rwa [hu]
  · intro _ u hu
    rwa [hu]

/-- A search within a larger budget, with its end, outlasts one within a smaller budget. -/
lemma outlasts_search {low high : Int} (hle : low ≤ high) (h : Rebudgeted few many s t) :
    Leads (search low >>= finished) s
      (fun status u => Outlasts few many status u ((search high >>= finished) t))
      fun _ _ => True := by
  have hstatus : Leads (search low) s
      (fun status _ => status = .satisfied ∨ status = .exhausted) fun _ _ => True :=
    gives_searchFor _ s
  rw [leads_bind]
  refine (Leads.and ((parallel_rebudgeted few many).lockstep.search low h) hstatus).mono ?_
    fun _ _ _ => trivial
  rintro status u ⟨⟨v, hv, huv⟩, hstatus⟩
  -- the larger run can make the flips of the smaller one first
  have hlarge : (search high >>= finished) t = (search high >>= finished) v := by
    calc (search high >>= finished) t
        = (search low >>= fun _ => search high >>= finished) t := by
          rw [← bind_assoc, ← search_search hle]
      _ = (search high >>= finished) v := bind_run_of_ok hv
  rw [hlarge]
  obtain rfl | rfl := hstatus
  · rw [bind_run_of_ok (search_of_satisfied hv high)]
    refine outlasts_of_agree ((parallel_rebudgeted few many).finished huv _) fun w => ?_
    refine (gives_finished .satisfied w).mono ?_ fun _ _ => id
    rintro _ _ rfl h
    cases h
  · have hend := fixes_finished (f := trace) (fun _ _ => rfl) (fun _ _ => rfl) .exhausted
      (fun _ => rfl) u
    refine ((gives_finished .exhausted u).and hend).mono ?_ fun _ _ _ => trivial
    rintro _ w ⟨rfl, htrace⟩
    refine ⟨fun hne => absurd rfl hne, fun _ => ?_⟩
    have hv : v.trace = w.trace := by
      obtain ⟨-, r, rfl⟩ := huv
      exact htrace.symm
    rw [← hv]
    exact (leads_search_finished_trace high v).reached

/-- The search of a solve within a larger budget. -/
lemma outlasts_solveSearch (hk : few ≤ many) (h : Rebudgeted few many s t) :
    Leads solveSearch s
      (fun status u => Outlasts few many status u (solveSearch t)) fun _ _ => True := by
  have hcleared : Rebudgeted few many s.cleared t.cleared := h.map (fun _ => rfl) rfl
  rw [solveSearch_eq]
  refine (agree_modify hcleared).leads_bind fun _ u v huv => ?_
  refine ((parallel_rebudgeted few many).lockstep.initSearch huv).leads_bind fun _ u v huv => ?_
  have hbudget : u.maxFlips ≤ v.maxFlips := by
    obtain ⟨hfew, r, rfl⟩ := huv
    rw [maxFlips, hfew]
    exact Int.mul_le_mul_of_nonneg_left hk (Int.natCast_nonneg n)
  rw [leads_bind, leads_get, get_bind_run]
  refine ((parallel_rebudgeted few many).announce huv _ _).leads_bind fun _ u' v' huv' => ?_
  exact outlasts_search hbudget huv'

/-- The end of a solve within a larger budget. -/
lemma outlasts_concluded (hk : few ≤ many) (h : Rebudgeted few many s t) :
    Leads concluded s
      (fun status u => Outlasts few many status u (concluded t)) fun _ _ => True := by
  have hok : t.ok = s.ok := by
    obtain ⟨-, r, rfl⟩ := h
    rfl
  rw [concluded, leads_bind, leads_get, get_bind_run, hok]
  split
  · exact outlasts_solveSearch hk h
  · have hstatus : Rebudgeted few many { s with status := .contradiction }
        { t with status := .contradiction } :=
      h.map (f := fun s => { s with status := .contradiction }) (fun _ => rfl) rfl
    refine outlasts_of_agree ((agree_modify hstatus).bind fun _ _ _ huv => agree_pure huv _) ?_
    exact .after fun _ => .pure (by decide)

/-- A solve within a larger budget. -/
lemma outlasts_solve (hk : few ≤ many) (h : Rebudgeted few many s t) :
    Leads solve s
      (fun status u => Outlasts few many status u (solve t)) fun _ _ => True := by
  have hmodel : Rebudgeted few many { s with model := none } { t with model := none } :=
    h.map (f := fun s => { s with model := none }) (fun _ => rfl) rfl
  rw [solve_eq]
  refine (agree_modify hmodel).leads_bind fun _ u v huv => ?_
  have hrounds : v.rounds = u.rounds := by
    obtain ⟨-, r, rfl⟩ := huv
    rfl
  rw [leads_bind, leads_get, get_bind_run, hrounds]
  split
  · exact (agree_simplify_rebudgeted huv).leads_bind fun _ _ _ huv => outlasts_concluded hk huv
  · exact outlasts_concluded hk huv

end

variable [RandomSource γ]

/-- **A larger budget only adds flips.** A search with a smaller budget beforehand changes
nothing: neither the answer nor the fault, nor anything in the state that is reached, the
source included. So let two solvers differ only in their number of flips for each variable.
When the solve within the smaller budget finds an assignment, or that the clauses are refuted,
the other solve gives the same answer and reaches the same state, but for the lines of the
report, which name the budget. When the smaller budget is used up, the flips that were
recorded are the first ones that the other solve records, however this ends. -/
theorem solve_extends {few many : Int} (h : few ≤ many) :
    (search many : Action n γ Status) = (do
        let _ ← search few
        search many)
      ∧ ∀ (s : Solver n γ) (status : Status) (u : Solver n γ),
        solve (s.withFactor few) = .ok status u →
          (status ≠ .exhausted → ∃ r,
              solve (s.withFactor many) = .ok status { u.withFactor many with report := r })
            ∧ (status = .exhausted →
              u.trace.toList <+: ((s.withFactor many).after .solve).trace.toList) := by
  have hsolve : ∀ (s : Solver n γ) (status : Status) (u : Solver n γ),
      solve (s.withFactor few) = .ok status u →
        Outlasts few many status u (solve (s.withFactor many)) := by
    intro s status u hu
    exact (outlasts_solve h (s := s.withFactor few) ⟨rfl, s.report, rfl⟩).ok hu
  refine ⟨search_search h, fun s status u hu => ⟨fun hne => ?_, fun heq => ?_⟩⟩
  · obtain ⟨v, hv, -, r, rfl⟩ := (hsolve s status u hu).same hne
    exact ⟨r, hv⟩
  · rw [after_solve]
    exact (hsolve s status u hu).more heq

/-- Two random flips that undo each other use up a budget of two flips. Two more flips find
the assignment, and with even more allowed it is found in the same way. -/
theorem solve_extends_of_detour :
    let coins : Nat → Bool := fun k => k == 2 || k == 3
    let s : Solver 2 Tape := (new 2 ⟨coins, fun _ => 0⟩).run
      [.setOption "record-trace" (.bool true), .addClause (.arr [.int 1, .int 2]),
        .addClause (.arr [.int 1, .int (-2)]), .addClause (.arr [.int (-1), .int 2])]
    (1 : Int) ≤ 2 ∧ (2 : Int) ≤ 3 ∧ ∃ u v r,
      solve (s.withFactor 1) = .ok .exhausted u ∧ u.trace.size = 2
        ∧ solve (s.withFactor 2) = .ok .satisfied v ∧ v.trace.size = 4
        ∧ u.trace.toList <+: v.trace.toList
        ∧ solve (s.withFactor 3) = .ok .satisfied { v.withFactor 3 with report := r } := by
  intro coins s
  have hsmall : Leads solve (s.withFactor 1)
      (fun status u => status = .exhausted ∧ u.trace.size = 2) fun _ _ => False := by
    subst s coins
    decide +kernel
  have hlarge : Leads solve (s.withFactor 2)
      (fun status v => status = .satisfied ∧ v.trace.size = 4) fun _ _ => False := by
    subst s coins
    decide +kernel
  obtain ⟨status, u, hu, rfl, husize⟩ := hsmall.exists_ok
  obtain ⟨status, v, hv, rfl, hvsize⟩ := hlarge.exists_ok
  have hmore := ((solve_extends (by decide : (1 : Int) ≤ 2)).2 s .exhausted u hu).2 rfl
  rw [after_solve, hv] at hmore
  obtain ⟨r, hr⟩ :=
    ((solve_extends (by decide : (2 : Int) ≤ 3)).2 s .satisfied v hv).1 (by decide)
  exact ⟨by decide, by decide, u, v, r, hu, husize, hv, hvsize, hmore, hr⟩

end LocalSat.Solver
