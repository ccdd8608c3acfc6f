/-
Solvers that are built from values.

* `exists_readClauses`: clauses of the variables that there are can be read;
* `Setup.apply_eq_prepare`: a setup is applied as options are set for an instance;
* `exists_of_build`: what a solver that was built comes from; `Setup.build_of_read`: a solver is
  built for clauses that can be read if the seed is one and the options can be set;
* `exists_solve_of_prepare`: a solver that was built solves at every level of the report.
-/
import LocalSat.Proofs.Except
import LocalSat.Proofs.Session.Soundness
import LocalSat.Proofs.Solver.Increment
import LocalSat.Proofs.Solver.Narrow
import LocalSat.Solver.Setup

namespace LocalSat

open LocalSat.Solver

variable {n : Nat} {γ : Type}

/-! ### Clauses -/

namespace Solver

/-- A number of a variable that there is, or its negative, is that of a literal. -/
lemma exists_readLiteral {i : Int} (hzero : i ≠ 0) (hle : i.natAbs ≤ n) :
    ∃ l : Literal n, readLiteral n (.int i) = .ok l ∧ l.toInt = i := by
  refine ⟨⟨⟨i.natAbs - 1, by omega⟩, 0 < i⟩, ?_, ?_⟩
  · rw [readLiteral, Literal.ofInt?, dif_pos ⟨hzero, hle⟩]
  · rw [Literal.toInt]
    split
    · next h =>
      have : 0 < i := of_decide_eq_true h
      show ((i.natAbs - 1 : Nat) : Int) + 1 = i
      omega
    · next h =>
      have : ¬0 < i := fun hpos => h (decide_eq_true hpos)
      show -(((i.natAbs - 1 : Nat) : Int) + 1) = i
      omega

/-- So a clause of such numbers can be read. -/
lemma exists_readClause {c : List Int} (h : ∀ l ∈ c, l ≠ 0 ∧ l.natAbs ≤ n) :
    ∃ d : Clause n, readClause n (.arr (c.map Json.int)) = .ok d ∧ d.toInts = c :=
  exists_mapM_eq_ok fun l hl => exists_readLiteral (h l hl).1 (h l hl).2

/-- So can clauses of such numbers. -/
lemma exists_readClauses {cs : List (List Int)} (h : ∀ c ∈ cs, ∀ l ∈ c, l ≠ 0 ∧ l.natAbs ≤ n) :
    ∃ ds : List (Clause n), (cs.map fun c => .arr (c.map Json.int)).mapM (readClause n) = .ok ds
      ∧ ds.map Clause.toInts = cs :=
  exists_mapM_eq_ok fun c hc => exists_readClause (h c hc)

end Solver

/-! ### Setups -/

/-- The options of a setup by name, as they are given for an instance. -/
def Setup.options (setup : Setup) : List (String × Json) :=
  [("max_flips_factor", setup.flipsFactor), ("noise", setup.noise),
    ("zero_break_first", setup.zeroBreakFirst), ("record_trace", setup.recordTrace)]

namespace Solver

/-- What comes before the solve of an instance without options. -/
lemma prepare_nil (clauses : Json) :
    (prepare clauses [] : Action n γ Unit) = addClausesOf clauses := rfl

/-- The options are set one by one. -/
lemma prepare_cons (clauses : Json) (o : String × Json) (options : List (String × Json)) :
    (prepare clauses (o :: options) : Action n γ Unit) = (do
      setOption o.1 o.2
      prepare clauses options) :=
  bind_assoc _ _ _

end Solver

/-- A setup is applied as options are set for an instance. -/
lemma Setup.apply_eq_prepare (setup : Setup) (clauses : Json) :
    (setup.apply clauses : Action n γ Unit) = prepare clauses setup.options := by
  rw [Setup.options, prepare_cons, prepare_cons, prepare_cons, prepare_cons, prepare_nil]
  rfl

namespace Solver

/-- Options that can be set one after the other are set before there are clauses. -/
lemma prepare_of_set {options : List (String × Json)} {s : Solver n γ} {o : Options}
    (h : options.foldlM (fun o p => o.set p.1 p.2) s.options = .ok o) :
    prepare (.arr []) options s = .ok () { s with options := o } := by
  induction options generalizing s with
  | nil =>
      cases h
      rfl
  | cons p options ih =>
      rw [List.foldlM_cons] at h
      obtain ⟨o', hset, hrest⟩ := exists_of_bind_eq_ok h
      have hstep : setOption p.1 p.2 s = .ok () { s with options := o' } := by
        show (attempt (s.options.set p.1 p.2) >>= fun options => set { s with options }) s = _
        rw [hset]
        rfl
      rw [prepare_cons]
      exact (bind_run_of_ok hstep).trans (ih hrest)

/-- A solver that can be prepared without clauses can be prepared with clauses that can be read. -/
lemma prepare_of_read {values : List Json} {ds : List (Clause n)}
    (h : values.mapM (readClause n) = .ok ds) {options : List (String × Json)}
    {s t : Solver n γ} (ht : prepare (.arr []) options s = .ok () t) :
    prepare (.arr values) options s = .ok () (t.withClauses ds) := by
  obtain ⟨_, u, hoptions, hempty⟩ := exists_of_bind_run_eq_ok ht
  obtain rfl : u = t := (EStateM.Result.ok.inj hempty).2
  exact (bind_run_of_ok hoptions).trans (addClauses_of_read h u)

/-- What is prepared with clauses that can be read is ready with them. -/
lemma ready_of_prepare {values : List Json} {ds : List (Clause n)}
    (h : values.mapM (readClause n) = .ok ds) {options : List (String × Json)} {g : γ}
    {s : Solver n γ} (hs : prepare (.arr values) options (new n g) = .ok () s) :
    s.Ready ds.toArray := by
  obtain ⟨hbuilt, values', hvalues, hread⟩ :=
    (leads_prepare (.arr values) options (Built.new n g) rfl).ok hs
  cases hvalues
  have hadded : s.added.toList = ds := Except.ok.inj (hread.symm.trans h)
  exact ⟨by rw [← hadded], hbuilt.settled, hbuilt.faithful⟩

/-! ### Solvers that were built -/

/-- There are no more variables than a machine has memory for. -/
lemma le_of_variableCount {value : Json} (h : variableCount value = .ok n) :
    n ≤ memoryLimit := by
  have hsize : ∀ {i : Int}, checkSize i = .ok n → n ≤ memoryLimit := by
    intro i hi
    rw [checkSize] at hi
    split at hi
    · cases hi
    split at hi
    · cases hi
    · cases hi
      omega
  unfold variableCount at h
  split at h
  · cases h
  · obtain ⟨i, -, h⟩ := exists_of_bind_eq_ok h
    split at h
    · cases h
    · exact hsize h

/-- A solver that is built has a seed and a number of variables, and is prepared from a new
one. -/
lemma exists_of_build {setup : Setup} {varCount clauses seed : Json} {s : Solver n Pcg64}
    (h : setup.build varCount clauses seed = .ok ⟨n, s⟩) :
    ∃ value, seedOf .floatSeed seed = .ok value ∧ variableCount varCount = .ok n
      ∧ prepare clauses setup.options (new n (Pcg64.ofSeed value)) = .ok () s := by
  rw [Setup.build] at h
  obtain ⟨value, hseed, h⟩ := exists_of_bind_eq_ok h
  obtain ⟨m, hm, h⟩ := exists_of_bind_eq_ok h
  rw [Setup.apply_eq_prepare] at h
  split at h
  · next t happly =>
    cases h
    exact ⟨value, hseed, hm, happly⟩
  · cases h

/-- Adding clauses leaves as it is what does not depend on the clauses. -/
lemma fixes_addClausesOf {τ : Type} {f : Solver n γ → τ} (hf : ∀ s c, f (s.pushClause c) = f s)
    (clauses : Json) : Fixes f (addClausesOf clauses : Action n γ Unit) := by
  refine .bind (fixes_attempt _) fun values => ?_
  induction values with
  | nil => exact .pure _
  | cons value values ih =>
      exact .bind (.bind (fixes_attempt _) fun c => .modify fun s => hf s c) fun _ => ih

/-- Building a solver does not change how it reports. -/
lemma fixes_reporting_prepare (clauses : Json) (options : List (String × Json)) :
    Fixes reporting (prepare clauses options : Action n γ Unit) := by
  induction options with
  | nil => exact prepare_nil (γ := γ) clauses ▸ fixes_addClausesOf (fun _ _ => rfl) clauses
  | cons o options ih =>
      rw [prepare_cons]
      exact .bind (fixes_setOption (fun _ _ => rfl) o.1 o.2) fun _ => ih

/-- There was no pass while a solver was built. -/
lemma rounds_of_prepare {clauses : Json} {options : List (String × Json)} {g : γ}
    {s : Solver n γ} (h : prepare clauses options (new n g) = .ok () s) : s.rounds = 0 :=
  ((leads_prepare clauses options (Built.new n g) rfl).ok h).1.rounds

/-- A solver that is built solves at every level of the report. -/
lemma exists_solve_of_prepare {clauses : Json} {options : List (String × Json)} {value : Nat}
    {s : Solver n Pcg64} (hn : n ≤ memoryLimit)
    (h : prepare clauses options (new n (Pcg64.ofSeed value)) = .ok () s) (level : Numeral) :
    ∃ status t, solve { s with verbosity := some level } = .ok status t
      ∧ t.Answered status := by
  have hbuilt : s.Built :=
    ((leads_prepare clauses options (Built.new n (Pcg64.ofSeed value)) rfl).ok h).1
  have hstart : Built { s with verbosity := some level } := hbuilt.of_known rfl
  have hwidth : memoryLimit ≤ widest := by decide
  refine exists_solve_pcg64 (hn.trans hwidth) hbuilt.rounds
    (hstart.settled.sound hstart.faithful) (not_reportFault rfl ⟨.int 1000, ?_, rfl⟩)
  exact (Prod.mk.inj ((fixes_reporting_prepare clauses options _).ok h)).2

end Solver

/-! ### Building a solver -/

/-- A positive number of variables is checked as a size. -/
lemma variableCount_int (hn : 1 ≤ n) : variableCount (.int n) = checkSize n := by
  have hpos : ¬((n : Int) < 1) := by omega
  simp [variableCount, Json.toInt, Json.equalsInt, bind, Except.bind, hpos]

/-- A size may be as large as the memory of a machine. -/
lemma checkSize_of_le (h : n ≤ memoryLimit) : checkSize n = .ok n := by
  have haddress : memoryLimit ≤ addressLimit := by decide
  rw [checkSize, if_neg (by omega), if_neg (by omega), Int.toNat_natCast]

/-- A larger size is refused. -/
lemma exists_checkSize_of_lt (h : memoryLimit < n) :
    ∃ e, checkSize n = .error e ∧ (e = .beyondMemory ∨ e = .beyondAddresses) := by
  have hlarge : (memoryLimit : Int) < n := Int.ofNat_lt.2 h
  by_cases haddress : (addressLimit : Int) < n ∨ (n : Int) < -(addressLimit : Int) - 1
  · exact ⟨.beyondAddresses, by rw [checkSize, if_pos haddress], .inr rfl⟩
  · exact ⟨.beyondMemory, by rw [checkSize, if_neg haddress, if_pos hlarge], .inl rfl⟩

/-- A solver for clauses that can be read is built if the seed is one and the options can be
set. -/
lemma Setup.build_of_read (hn : 1 ≤ n) (hlimit : n ≤ memoryLimit) {values : List Json}
    {ds : List (Clause n)} (h : values.mapM (readClause n) = .ok ds) {setup : Setup} {seed : Json}
    {value : Nat} (hseed : seedOf .floatSeed seed = .ok value) {s : Solver n Pcg64}
    (hs : prepare (.arr []) setup.options (new n (Pcg64.ofSeed value)) = .ok () s) :
    setup.build (.int n) (.arr values) seed = .ok ⟨n, s.withClauses ds⟩ := by
  have happly : setup.apply (.arr values) (new n (Pcg64.ofSeed value))
      = .ok () (s.withClauses ds) := by
    rw [Setup.apply_eq_prepare]
    exact prepare_of_read h hs
  rw [Setup.build, hseed]
  simp only [bind, Except.bind, variableCount_int hn, checkSize_of_le hlimit, happly]
  rfl

end LocalSat
