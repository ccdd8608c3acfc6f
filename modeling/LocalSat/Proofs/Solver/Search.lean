/-
What a search does to the state of a solver.

* `Solver.base`: what a search leaves as it is; `fixes_base_step`, `fixes_base_search`;
* `Tracked s a`: the current assignment is `a`, and the index tracks the clauses under it;
* `leads_initSearch`, `exists_flipVariable`, `leads_pickNext`, `leads_step`: what setting up
  a search, a flip, a choice and a step lead to;
* `leads_step_moved`: what a step changes, whatever the clauses are; `leads_searchFor_keeps`:
  what every step keeps;
* `leads_searchFor`: what many steps lead to.
-/
import LocalSat.Proofs.Propagation.Derivation
import LocalSat.Proofs.Search.Break
import LocalSat.Proofs.Search.Choice
import LocalSat.Solver.Search

namespace LocalSat.Solver

variable {n : Nat} {γ : Type}

/-! ### What a search leaves as it is -/

/-- The state without what a search changes. -/
def base (s : Solver n γ) : Solver n Unit where
  options := s.options
  verbosity := s.verbosity
  progressInterval := s.progressInterval
  ok := s.ok
  added := s.added
  clauses := s.clauses
  forced := s.forced
  rounds := s.rounds
  forcedCount := s.forcedCount
  values := none
  index := none
  initial := none
  model := s.model
  status := s.status
  counters := .zero
  minUnsat := 0
  trace := #[]
  report := #[]
  source := ()

/-- What the reports depend on: their level and their interval. -/
def reporting (s : Solver n γ) : Option Numeral × Option Numeral :=
  (s.verbosity, s.progressInterval)

/-- What is set by hand: the options, and what the reports depend on. -/
def settings (s : Solver n γ) : Options × Option Numeral × Option Numeral :=
  (s.options, s.reporting)

/-- The faults of a report: a level or an interval that is no number, or an interval of
length zero. -/
def ReportFault (s : Solver n γ) (e : Fault) : Prop :=
  s.verbosity = none ∧ e = .notNumeric ∨ s.progressInterval = none ∧ e = .notNumeric
    ∨ ∃ k, s.progressInterval = some k ∧ k.isZero = true ∧ e = .zeroInterval

/-- The faults of a report depend on its level and its interval. -/
lemma ReportFault.congr {s t : Solver n γ} {e : Fault} (h : t.ReportFault e)
    (hr : t.reporting = s.reporting) : s.ReportFault e := by
  obtain ⟨hv, hk⟩ := Prod.mk.inj hr
  rwa [ReportFault, hv, hk] at h

/-- The faults of a report do not depend on the search. -/
lemma ReportFault.of_base_eq {s t : Solver n γ} {e : Fault} (h : t.ReportFault e)
    (hb : t.base = s.base) : s.ReportFault e :=
  h.congr (congrArg (fun b : Solver n Unit => b.reporting) hb)

/-- Asking for the level of the report fails only with a fault of the report. -/
lemma reportFault_of_reports {s : Solver n γ} {level : Int} {e : Fault}
    (h : s.reports level = .error e) : s.ReportFault e := by
  rw [reports] at h
  split at h
  · cases h
  · next hv =>
    cases h
    exact .inl ⟨hv, rfl⟩

/-- Asking for a row of the report fails only with a fault of the report. -/
lemma reportFault_of_isRowDue {s : Solver n γ} {e : Fault} (h : s.isRowDue = .error e) :
    s.ReportFault e := by
  rw [isRowDue] at h
  split at h
  · next k hk =>
    split at h
    · next hz =>
      cases h
      exact .inr (.inr ⟨k, hk, hz, rfl⟩)
    · cases h
  · next hk =>
    cases h
    exact .inr (.inl ⟨hk, rfl⟩)

/-- A row of the report changes the report only, and fails with its faults. -/
lemma leads_progress (s : Solver n γ) :
    Leads progress s (fun _ t => ∃ r, t = { s with report := r })
      fun e t => t = s ∧ s.ReportFault e := by
  rw [progress, leads_bind, leads_get, leads_bind]
  cases hl : s.reports 1 with
  | error e => exact ⟨rfl, reportFault_of_reports hl⟩
  | ok loud =>
      rw [leads_attempt_ok, leads_ite]
      split
      · rw [leads_bind]
        cases hd : s.isRowDue with
        | error e => exact ⟨rfl, reportFault_of_isRowDue hd⟩
        | ok due =>
            rw [leads_attempt_ok, leads_ite]
            split
            · exact ⟨_, rfl⟩
            · exact ⟨_, rfl⟩
      · exact ⟨_, rfl⟩

/-! ### The index of a search -/

/-- The current assignment of a solver is `a`, and its index tracks its clauses under
it. -/
def Tracked (s : Solver n γ) (a : Assignment n) : Prop :=
  s.values = some a ∧ ∃ (m : Nat) (x : Index n m) (clauses : Table m (Clause n)),
    s.index = some ⟨m, x⟩ ∧ clauses.toArray = s.clauses ∧ x.Tracks clauses a

/-- Whether the index tracks the clauses depends on the assignment, the index and the
clauses. -/
lemma Tracked.congr {s t : Solver n γ} {a : Assignment n} (h : s.Tracked a)
    (hv : t.values = s.values) (hx : t.index = s.index) (hc : t.clauses = s.clauses) :
    t.Tracked a := by
  rwa [Tracked, hv, hx, hc]

/-- The index of a tracked search has no residual clause when its clauses are satisfied. -/
lemma Tracked.isEmpty_iff {s : Solver n γ} {a : Assignment n} (h : s.Tracked a) {m : Nat}
    {x : Index n m} (hx : s.index = some ⟨m, x⟩) :
    x.residual.isEmpty = true ↔ a.Satisfies s.clauses.toList := by
  obtain ⟨-, m', x', clauses, hx', hcl, htr⟩ := h
  rw [hx] at hx'
  cases hx'
  rw [htr.isEmpty_iff, ← hcl]
  rfl

/-- A search starts with an index that tracks its clauses. -/
lemma tracked_started (s : Solver n γ) (a : Assignment n) (g : γ) :
    (s.started a g).Tracked a :=
  ⟨rfl, _, _, s.clauses.toVector, rfl, rfl, Index.tracks_build _ a⟩

/-- A flip succeeds and goes on tracking the clauses. -/
lemma exists_flipVariable {s : Solver n γ} {a : Assignment n} (h : s.Tracked a) (v : Fin n) :
    ∃ x, flipVariable v s = .ok () { s with values := some (a.flip v), index := some x } ∧
      Tracked { s with values := some (a.flip v), index := some x } (a.flip v) := by
  obtain ⟨ha, m, x, clauses, hx, hcl, htr⟩ := h
  obtain ⟨y, hy, htr'⟩ := htr.exists_flip v
  refine ⟨⟨m, y⟩, ?_, rfl, m, y, clauses, rfl, hcl, htr'⟩
  have hcur : s.current = some (a, ⟨m, x⟩) := by
    rw [current, ha, hx]
    rfl
  rw [flipVariable, get_bind_run, hcur]
  show (attempt (x.flip a v) >>= _) s = _
  rw [hy]
  rfl

variable [RandomSource γ]

/-! ### Setting up -/

/-- A variable with a forced value is set to it. -/
lemma complete_cons_some {f : Forced n} {v : Fin n} {b : Bool} (hv : f.get v = some b)
    (vs : List (Fin n)) (a : Assignment n) (g : γ) :
    complete f (v :: vs) (a, g) = complete f vs (a.write v b, g) := by
  simp only [complete, hv]
  rfl

/-- A free variable is set to the side that a coin shows. -/
lemma complete_cons_none {f : Forced n} {v : Fin n} (hv : f.get v = none)
    (vs : List (Fin n)) (a : Assignment n) (g : γ) :
    complete f (v :: vs) (a, g) =
      match RandomSource.coin (0.5 : Float) g with
      | .ok b g' => complete f vs (a.write v b, g')
      | .error e g' => .error e (a, g') := by
  simp only [complete, hv, bind, EStateM.bind]
  cases RandomSource.coin (0.5 : Float) g <;> rfl

/-- Completing the forced values sets the variables that are listed, those with a forced
value to it, and fails as the source does. -/
lemma leads_complete {E : Fault → Prop} (hE : FaultsWithin γ E) (f : Forced n)
    (vs : List (Fin n)) (a : Assignment n) (g : γ) :
    Leads (complete f vs) (a, g)
      (fun _ t => (∀ v ∈ vs, ∀ b, f.get v = some b → t.1.get v = b)
        ∧ ∀ v, v ∉ vs → t.1.get v = a.get v)
      fun e _ => E e := by
  induction vs generalizing a g with
  | nil => exact ⟨by simp, by simp⟩
  | cons v vs ih =>
      have hrest : ∀ (b : Bool) (g : γ), (∀ b', f.get v = some b' → b = b') →
          Leads (complete f vs) (a.write v b, g)
            (fun _ t => (∀ w ∈ v :: vs, ∀ b, f.get w = some b → t.1.get w = b)
              ∧ ∀ w, w ∉ v :: vs → t.1.get w = a.get w)
            fun e _ => E e := by
        intro b g hb
        refine (ih (a.write v b) g).mono (fun _ t ht => ?_) fun _ _ => id
        obtain ⟨hset, hkeep⟩ := ht
        constructor
        · intro w hw b' hb'
          by_cases hwvs : w ∈ vs
          · exact hset w hwvs b' hb'
          · obtain rfl : w = v := (List.mem_cons.1 hw).resolve_right hwvs
            rw [hkeep w hwvs, Table.get_write, if_pos rfl]
            exact hb b' hb'
        · intro w hw
          obtain ⟨hne, hwvs⟩ := not_or.1 (mt List.mem_cons.2 hw)
          rw [hkeep w hwvs, Table.get_write, if_neg (Ne.symm hne)]
      cases hv : f.get v with
      | some b =>
          rw [Leads, complete_cons_some hv]
          exact hrest b g fun b' hb' => by simpa [hv] using hb'
      | none =>
          rw [Leads, complete_cons_none hv]
          cases hc : RandomSource.coin (0.5 : Float) g with
          | ok b g' => exact hrest b g' fun b' hb' => by simp [hv] at hb'
          | error e g' => exact (hE.coin (0.5 : Float) g).error hc

/-- A search starts from an assignment that agrees with the forced values. Setting it up
fails as the source does. -/
lemma leads_initSearch {E : Fault → Prop} (hE : FaultsWithin γ E) (s : Solver n γ) :
    Leads initSearch s (fun _ t => ∃ a g, t = s.started a g ∧ s.forced.Agrees a)
      fun e t => E e ∧ ∃ a g, t = { s with values := some a, source := g } := by
  have h := leads_complete hE s.forced (List.finRange n) (Vector.replicate n false) s.source
  rw [Leads, initSearch]
  cases hc : complete s.forced (List.finRange n) (Vector.replicate n false, s.source) with
  | ok u t =>
      obtain ⟨hset, -⟩ := h.ok hc
      exact ⟨t.1, t.2, rfl, fun v b hb => hset v (List.mem_finRange v) b hb⟩
  | error e t => exact ⟨h.error hc, t.1, t.2, rfl⟩

/-! ### One flip -/

omit [RandomSource γ] in
/-- When the clauses are not satisfied, the first slot holds one without a true literal. -/
lemma Tracked.exists_firstResidual {s : Solver n γ} {a : Assignment n} (h : s.Tracked a)
    (hsat : ¬a.Satisfies s.clauses.toList) :
    ∃ c ∈ s.clauses.toList, s.firstResidual = .ok c ∧ ∀ l ∈ c, a.holds l ≠ true := by
  obtain ⟨-, m, x, clauses, hx, hcl, htr⟩ := h
  have hslot : 0 < x.residual.slots.size := by
    rw [Array.size_pos_iff]
    intro hnil
    refine hsat (hcl ▸ htr.isEmpty_iff.1 ?_)
    simp [ResidualSet.isEmpty, hnil]
  obtain ⟨i, hi⟩ : ∃ i, x.residual.first? = some i := ⟨_, Array.getElem?_eq_getElem hslot⟩
  refine ⟨clauses.get i.index, ?_, ?_, (htr.contains_iff i.index).1 ?_⟩
  · rw [← hcl, Table.get_eq_getElem]
    exact Vector.mem_toList_iff.2 (Vector.getElem_mem _)
  · have hget : s.clauses[i.index.val]? = some (clauses.get i.index) := by
      rw [← hcl, Table.get_eq_getElem]
      simp
    simp only [firstResidual, hx, hi, hget]
  · have hpos := htr.wellFormed.position_slot 0 i hi
    show (x.residual.position.get i.index).isSome = true
    rw [hpos]
    rfl

omit [RandomSource γ] in
/-- Counting what a flip breaks succeeds, and finds no more than there are clauses. -/
lemma Tracked.exists_breakCountUpTo {s : Solver n γ} {a : Assignment n} (h : s.Tracked a)
    (v : Fin n) (bound : Int) :
    ∃ j ≤ s.clauses.size, s.breakCountUpTo v bound = .ok j := by
  obtain ⟨ha, m, x, clauses, hx, hcl, htr⟩ := h
  have hcur : s.current = some (a, ⟨m, x⟩) := by
    rw [current, ha, hx]
    rfl
  refine ⟨x.breakCountUpTo a v bound, ?_, by rw [Solver.breakCountUpTo, hcur]⟩
  rw [← hcl, Vector.size_toArray]
  exact (x.breakCountUpTo_le a v bound).trans (htr.breakCount_le v)

/-- The choice of a flip in a clause is the variable of one of its literals. Choosing fails
as the source does, and changes nothing but the source. -/
lemma leads_pick {E : Fault → Prop} (hE : FaultsWithin γ E) {s : Solver n γ}
    {a : Assignment n} (h : s.Tracked a) {c : Clause n} (hc : c ≠ []) :
    Leads (pick c) s
      (fun chosen t => (∃ g, t = { s with source := g }) ∧ ∃ l ∈ c, l.var = chosen.1)
      fun e _ => E e := by
  show Leads (ask (chooseFlip s.policy (fun v k => s.breakCountUpTo v k) s.clauses.size
    (c.map Literal.var))) s _ _
  rw [leads_ask]
  refine (leads_chooseFlip hE s.policy (by simpa using hc) (fun v k => ?_)
    (fun v => h.exists_breakCountUpTo v _) s.source).mono ?_ fun _ _ => id
  · obtain ⟨j, -, hj⟩ := h.exists_breakCountUpTo v k
    exact ⟨j, hj⟩
  · intro chosen g hchosen
    obtain ⟨l, hl, hvar⟩ := List.mem_map.1 hchosen
    exact ⟨⟨g, rfl⟩, l, hl, hvar⟩

/-- The choice of a flip is the variable of a literal in a clause without a true one.
Choosing fails as the source does, and changes nothing but the source. -/
lemma leads_pickNext {E : Fault → Prop} (hE : FaultsWithin γ E) {s : Solver n γ}
    {a : Assignment n} (h : s.Tracked a) (hne : ∀ c ∈ s.clauses.toList, c ≠ [])
    (hsat : ¬a.Satisfies s.clauses.toList) :
    Leads pickNext s
      (fun chosen t => (∃ g, t = { s with source := g }) ∧ ∃ c ∈ s.clauses.toList,
        (∀ l ∈ c, a.holds l ≠ true) ∧ ∃ l ∈ c, l.var = chosen.1)
      fun e _ => E e := by
  obtain ⟨c, hc, hfirst, hfalse⟩ := h.exists_firstResidual hsat
  rw [pickNext, leads_bind, leads_get, leads_bind, hfirst, leads_attempt_ok]
  refine (leads_pick hE h (hne c hc)).mono ?_ fun _ _ => id
  rintro chosen t ⟨hsource, hvar⟩
  exact ⟨hsource, c, hc, hfalse, hvar⟩

/-- A step flips a variable of a clause without a true literal. It fails as the source
does, or with a fault of the report. -/
lemma leads_step {E : Fault → Prop} (hE : FaultsWithin γ E) {s : Solver n γ}
    {a : Assignment n} (h : s.Tracked a) (hne : ∀ c ∈ s.clauses.toList, c ≠ [])
    (hsat : ¬a.Satisfies s.clauses.toList) :
    Leads step s
      (fun _ t => ∃ v, t.Tracked (a.flip v) ∧ t.base = s.base ∧ ∃ c ∈ s.clauses.toList,
        (∀ l ∈ c, a.holds l ≠ true) ∧ ∃ l ∈ c, l.var = v)
      fun e _ => E e ∨ s.ReportFault e := by
  rw [step, leads_bind]
  refine (leads_pickNext hE h hne hsat).mono ?_ fun _ _ => .inl
  rintro ⟨v, move⟩ _ ⟨⟨g, rfl⟩, hwhy⟩
  obtain ⟨x, hflip, htr⟩ :=
    exists_flipVariable (s := { s with source := g }) (h.congr rfl rfl rfl) v
  rw [leads_bind, Leads, hflip]
  show Leads (do modify fun s => s.recorded v move; progress) _ _ _
  rw [leads_bind, leads_modify]
  refine (leads_progress _).mono ?_ ?_
  · rintro _ _ ⟨r, rfl⟩
    exact ⟨v, htr.congr rfl rfl rfl, rfl, hwhy⟩
  · rintro e t ⟨-, hfault⟩
    exact .inr (hfault.of_base_eq rfl)

/-! ### What no search changes -/

lemma fixes_base_initSearch : Fixes base (initSearch : Action n γ Unit) := by
  intro s
  refine (leads_initSearch (faultsWithin_true γ) s).mono ?_ ?_
  · rintro _ _ ⟨a, g, rfl, -⟩
    rfl
  · rintro _ _ ⟨-, a, g, rfl⟩
    rfl

omit [RandomSource γ] in
/-- A flip changes the assignment and the index only, and nothing if it fails. -/
lemma leads_flipVariable (v : Fin n) (s : Solver n γ) :
    Leads (flipVariable v) s
      (fun _ t => ∃ a x, s.values = some a
        ∧ t = { s with values := some (a.flip v), index := some x })
      fun _ t => t = s := by
  rw [flipVariable, leads_bind, leads_get]
  split
  · rfl
  · next a m x hcur =>
    have hvalues : s.values = some a := by
      simp only [current] at hcur
      cases hv : s.values <;> cases hx : s.index <;> simp_all
    rw [leads_bind]
    cases x.flip a v with
    | ok y => exact ⟨a, ⟨m, y⟩, hvalues, rfl⟩
    | error e => rfl

/-- A choice changes the source only. -/
lemma leads_pickNext_source (s : Solver n γ) :
    Leads pickNext s (fun _ t => ∃ g, t = { s with source := g })
      fun _ t => ∃ g, t = { s with source := g } := by
  rw [pickNext, leads_bind, leads_get, leads_bind]
  cases s.firstResidual with
  | error e => exact ⟨s.source, rfl⟩
  | ok c =>
      rw [leads_attempt_ok]
      show Leads (ask _) s _ _
      rw [leads_ask]
      exact (leads_any _ _).mono (fun _ g _ => ⟨g, rfl⟩) fun _ g _ => ⟨g, rfl⟩

/-- The state after a flip from the assignment `a`: the source has gone on to `g`, the index
is `x`, and the flip is recorded. -/
def moved (s : Solver n γ) (g : γ) (a : Assignment n) (x : Sigma (Index n)) (v : Fin n)
    (move : Move) : Solver n γ :=
  Solver.recorded { s with source := g, values := some (a.flip v), index := some x } v move

/-- What a step changes. If it fails, this is with its choice or its flip, and then only the
source has gone on, or with its row of the report. -/
lemma leads_step_moved (s : Solver n γ) :
    Leads step s
      (fun _ t => ∃ g a x v move r, s.values = some a
        ∧ t = { s.moved g a x v move with report := r })
      fun _ t => (∃ g, t = { s with source := g })
        ∨ ∃ g a x v move, s.values = some a ∧ t = s.moved g a x v move := by
  rw [step, leads_bind]
  refine (leads_pickNext_source s).mono ?_ fun _ _ => .inl
  rintro ⟨v, move⟩ _ ⟨g, rfl⟩
  rw [leads_bind]
  refine (leads_flipVariable v _).mono ?_ ?_
  · rintro _ _ ⟨a, x, ha, rfl⟩
    rw [leads_bind, leads_modify]
    refine (leads_progress _).mono ?_ ?_
    · rintro _ _ ⟨r, rfl⟩
      exact ⟨g, a, x, v, move, r, ha, rfl⟩
    · rintro _ _ ⟨rfl, -⟩
      exact .inr ⟨g, a, x, v, move, ha, rfl⟩
  · rintro _ _ rfl
    exact .inl ⟨g, rfl⟩

section

variable {τ : Type} {f : Solver n γ → τ}

omit [RandomSource γ] in
/-- A flip leaves as it is what depends on neither the assignment nor the index. -/
lemma fixes_flipVariable (hf : ∀ s a x, f { s with values := some a, index := some x } = f s)
    (v : Fin n) : Fixes f (flipVariable v : Action n γ Unit) := by
  refine fun s => (leads_flipVariable v s).mono ?_ fun _ _ => congrArg f
  rintro _ _ ⟨a, x, -, rfl⟩
  exact hf s _ _

omit [RandomSource γ] in
/-- A row of the report leaves as it is what does not depend on the report. -/
lemma fixes_progress (hf : ∀ s r, f { s with report := r } = f s) :
    Fixes f (progress : Action n γ Unit) := by
  refine fun s => (leads_progress s).mono ?_ fun _ _ ht => congrArg f ht.1
  rintro _ _ ⟨r, rfl⟩
  exact hf s r

end

/-- What every step keeps is kept by a search, however it ends. -/
lemma leads_searchFor_keeps {P : Solver n γ → Prop}
    (hstep : ∀ {s}, P s → Leads step s (fun _ t => P t) fun _ t => P t) (left : Nat)
    {s : Solver n γ} (h : P s) :
    Leads (searchFor left) s (fun _ t => P t) fun _ t => P t := by
  induction left generalizing s with
  | zero =>
      rw [searchFor, leads_bind, leads_get]
      split
      · exact h
      · exact h
  | succ left ih =>
      rw [searchFor, leads_bind, leads_get]
      split
      · exact h
      · rw [leads_ite]
        split
        · exact h
        · rw [leads_bind]
          exact (hstep h).mono (fun _ _ => ih) fun _ _ => id

omit [RandomSource γ] in
lemma fixes_base_flipVariable (v : Fin n) : Fixes base (flipVariable v : Action n γ Unit) :=
  fixes_flipVariable (fun _ _ _ => rfl) v

lemma fixes_base_step : Fixes base (step : Action n γ Unit) := by
  refine fun s => (leads_step_moved s).mono ?_ ?_
  · rintro _ _ ⟨g, a, x, v, move, r, -, rfl⟩
    rfl
  · rintro _ _ (⟨g, rfl⟩ | ⟨g, a, x, v, move, -, rfl⟩)
    · rfl
    · rfl

/-- A search changes nothing of the base of a solver, however it ends. -/
lemma fixes_base_searchFor (left : Nat) : Fixes base (searchFor left : Action n γ Status) :=
  fun s => leads_searchFor_keeps (P := fun t => t.base = s.base)
    (fun h => (fixes_base_step _).mono (fun _ _ ht => ht.trans h) fun _ _ ht => ht.trans h)
    left rfl

lemma fixes_base_search (maxFlips : Int) : Fixes base (search maxFlips : Action n γ Status) :=
  .bind .get fun _ => fixes_base_searchFor _

/-! ### Many flips -/

/-- A search finds an assignment or uses up its flips. -/
lemma gives_searchFor (left : Nat) :
    Gives (fun status => status = .satisfied ∨ status = .exhausted)
      (searchFor left : Action n γ Status) := by
  induction left with
  | zero =>
      refine .after fun s => ?_
      split
      · exact .throw _
      · refine .pure ?_
        split
        · exact .inl rfl
        · exact .inr rfl
  | succ left ih =>
      refine .after fun s => ?_
      split
      · exact .throw _
      · exact .ite (.pure (.inl rfl)) (.after fun _ => ih)

/-- However long a search is, it tracks the clauses to its end, and says that it found an
assignment exactly if they are satisfied. What holds of the assignment at the start, and
of every flip of a variable that occurs in the clauses, holds at the end. A search fails
as the source does, or with a fault of the report. -/
lemma leads_searchFor {E : Fault → Prop} (hE : FaultsWithin γ E) {P : Assignment n → Prop}
    (left : Nat) {s : Solver n γ} {a : Assignment n} (h : s.Tracked a)
    (hne : ∀ c ∈ s.clauses.toList, c ≠ [])
    (hP : ∀ b, P b → ∀ c ∈ s.clauses.toList, ∀ l ∈ c, P (b.flip l.var)) (ha : P a) :
    Leads (searchFor left) s
      (fun status t => (status = .satisfied ∨ status = .exhausted) ∧
        ∃ b, t.Tracked b ∧ P b ∧ (status = .satisfied ↔ b.Satisfies s.clauses.toList))
      fun e _ => E e ∨ s.ReportFault e := by
  induction left generalizing s a with
  | zero =>
      obtain ⟨m, x, clauses, hx, -⟩ := h.2
      have hempty := h.isEmpty_iff hx
      rw [searchFor, leads_bind, leads_get, hx]
      show Leads (pure (if x.residual.isEmpty = true then _ else _)) s _ _
      rw [leads_pure]
      split
      · next hsat => exact ⟨.inl rfl, a, h, ha, by simp [← hempty, hsat]⟩
      · next hsat => exact ⟨.inr rfl, a, h, ha, by simp [← hempty, hsat]⟩
  | succ left ih =>
      obtain ⟨m, x, clauses, hx, -⟩ := h.2
      have hempty := h.isEmpty_iff hx
      rw [searchFor, leads_bind, leads_get, hx]
      show Leads (if x.residual.isEmpty = true then _ else _) s _ _
      rw [leads_ite]
      split
      · next hsat => exact ⟨.inl rfl, a, h, ha, by simp [← hempty, hsat]⟩
      · next hsat =>
        rw [leads_bind]
        refine (leads_step hE h hne (mt hempty.2 hsat)).mono ?_ fun _ _ => id
        rintro _ t ⟨v, htr, hb, c, hc, -, l, hl, rfl⟩
        have hcl : t.clauses = s.clauses := congrArg (fun b : Solver n Unit => b.clauses) hb
        rw [← hcl] at hne hP hc ⊢
        exact (ih htr hne hP (hP a ha c hc l hl)).mono (fun _ _ => id)
          fun e _ => Or.imp_right fun hfault => hfault.of_base_eq hb

end LocalSat.Solver
