/-
The command that solves a formula file is sound.

* `IsModelText n clauses text`: a text says that there is a model and holds one on its second
  line; `isModelText_resultText`: so does a result with a model that was found;
* `SolveCommand.Admissible`: the seed and the options pass their checks;
  `Admissible.of_ranges`: so do numbers in their ranges;
* `SolveCommand.exists_start`: a solver is started for a formula whose literals are not zero, and
  answers; `start_of_large`: none is if there are too many variables for a machine;
* `SolveCommand.runWith_sound`: the exit code is that of a result with a model exactly if a model
  was written, and otherwise nothing is claimed.
-/
import LocalSat.CommandLine.Solve
import LocalSat.Proofs.Formula.Line
import LocalSat.Proofs.Session.Building

namespace LocalSat

open LocalSat.Solver LocalSat.Text LocalSat.Number

variable {n : Nat} {γ : Type}

/-! ### Results -/

/-- A text says that there is a model, and its second line is read as the literals of all
variables in order, one for each, and a zero, with a literal of every clause among them. -/
def IsModelText (n : Nat) (clauses : List (List Int)) (text : String) : Prop :=
  ∃ (line : List Char) (literals : List Int),
    text.toList = "SAT\n".toList ++ line ++ ['\n']
    ∧ (∀ d ∈ line, isBreak d = false)
    ∧ (words line).mapM readInt = .ok (literals ++ [0])
    ∧ literals.map Int.natAbs = List.range' 1 n
    ∧ ∀ c ∈ clauses, ∃ l ∈ c, l ∈ literals

/-- The text of a failure is no such text. -/
lemma not_isModelText_indet {clauses : List (List Int)} : ¬IsModelText n clauses "INDET\n" := by
  rintro ⟨line, literals, htext, -⟩
  have hfirst : 'I' = 'S' := List.head_eq_of_cons_eq htext
  exact absurd hfirst (by decide)

namespace SolveCommand

/-- The literals of a model are those of the variables in order. -/
lemma map_natAbs_modelLiterals (place : Nat) (model : List Bool) :
    (modelLiterals place model).map Int.natAbs = List.range' (place + 1) model.length := by
  induction model generalizing place with
  | nil => rfl
  | cons b model ih =>
      rw [modelLiterals, List.map_cons, natAbs_numberAt, ih, List.length_cons, List.range'_succ]

/-- The literal of each value is among those of a model. -/
lemma numberAt_mem_modelLiterals {model : List Bool} {v : Nat} {b : Bool}
    (h : model[v]? = some b) (place : Nat) :
    numberAt (place + v : Nat) b ∈ modelLiterals place model := by
  induction model generalizing place v with
  | nil => cases h
  | cons b' model ih =>
      cases v with
      | zero =>
          cases h
          exact List.mem_cons_self
      | succ v =>
          have hrest := ih h (place + 1)
          rw [Nat.add_right_comm, Nat.add_assoc] at hrest
          exact List.mem_cons_of_mem _ hrest

/-- A literal that is true is among those of an assignment. -/
lemma toInt_mem_modelLiterals {a : Assignment n} {l : Literal n} (h : a.holds l = true) :
    l.toInt ∈ modelLiterals 0 a.toList := by
  have hvalue : a.toList[l.var.val]? = some l.positive := by
    rw [← beq_iff_eq.1 h, Table.get_eq_getElem]
    simp
  have hmem := numberAt_mem_modelLiterals hvalue 0
  rwa [Nat.zero_add] at hmem

/-- The literals of a model can be written on a line and read back. -/
lemma isWritable_modelLiterals {model : List Bool} (hne : model ≠ [])
    (hlimit : model.length ≤ memoryLimit) : IsWritable (modelLiterals 0 model) := by
  have hrange : ∀ l ∈ modelLiterals 0 model, 1 ≤ l.natAbs ∧ l.natAbs < 1 + model.length := by
    intro l hl
    have hmem : l.natAbs ∈ (modelLiterals 0 model).map Int.natAbs := List.mem_map_of_mem hl
    rwa [map_natAbs_modelLiterals, Nat.zero_add, List.mem_range'_1] at hmem
  refine ⟨?_, fun l hl => ?_, fun l hl => length_natText_le_digitLimit ?_⟩
  · rwa [← List.length_pos_iff, length_modelLiterals, List.length_pos_iff]
  · have := hrange l hl
    omega
  · have := hrange l hl
    omega

/-- The text of a result with a model. -/
lemma toList_resultText_some (model : List Bool) :
    (resultText (some model)).toList
      = "SAT\n".toList ++ lineChars [modelLiterals 0 model] ++ ['\n'] := by
  simp [resultText, resultLines, modelLine, lineChars, String.join]

/-- A result with an assignment that satisfies clauses holds a model of them. -/
lemma isModelText_resultText {a : Assignment n} {ds : List (Clause n)} (ha : a.Satisfies ds)
    (hpos : 1 ≤ n) (hlimit : n ≤ memoryLimit) :
    IsModelText n (ds.map Clause.toInts) (resultText (some a.toList)) := by
  have hlength : a.toList.length = n := a.length_toList
  have hne : a.toList ≠ [] := List.ne_nil_of_length_pos (by omega)
  have hwritable : ∀ c ∈ [modelLiterals 0 a.toList], IsWritable c :=
    List.forall_mem_singleton.2 (isWritable_modelLiterals hne (by omega))
  refine ⟨lineChars [modelLiterals 0 a.toList], modelLiterals 0 a.toList,
    toList_resultText_some _, isBreak_of_mem_lineChars hwritable, ?_, ?_, fun c hc => ?_⟩
  · exact mapM_readInt_lineChars (hwritable _ (List.mem_singleton_self _))
  · rw [map_natAbs_modelLiterals, hlength, Nat.zero_add]
  · obtain ⟨d, hd, rfl⟩ := List.mem_map.1 hc
    obtain ⟨l, hl, hholds⟩ := ha d hd
    exact ⟨l.toInt, List.mem_map_of_mem hl, toInt_mem_modelLiterals hholds⟩

/-! ### Starting a solver -/

/-- The seed and the options pass the checks that are made of them, and the level of the report is
a number. -/
structure Admissible (c : SolveCommand) : Prop where
  /-- The seed is one. -/
  seed : ∃ value, seedOf .floatSeed c.seed = .ok value
  /-- The number of flips for each variable is one. -/
  flipsFactor : ∃ i, checkInt OptionName.flipsFactor.text (.int 1) (.int (twoPow 31))
    c.flipsFactor = .ok i
  /-- The chance of a random flip is one. -/
  noise : ∃ x, checkFloat OptionName.noise.text (.int 0) (.int 1) c.noise = .ok x
  /-- The level is a number. -/
  verbosity : ∃ level, c.verbosity.numeral? = some level

/-- Numbers in their ranges pass the checks. -/
lemma Admissible.of_ranges {c : SolveCommand} {seed factor level : Int} {x : Float}
    (hseed : c.seed = .int seed) (hlow : 0 ≤ seed) (hhigh : seed < twoPow 64)
    (hfactor : c.flipsFactor = .int factor) (hone : 1 ≤ factor) (hle : factor ≤ twoPow 31)
    (hnoise : c.noise = .float x) (hzero : intLeFloat 0 x = true) (hx : floatLeInt x 1 = true)
    (hlevel : c.verbosity = .int level) : c.Admissible where
  seed := ⟨seed.toNat, by rw [hseed, seedOf, checkSeed, if_pos ⟨hlow, hhigh⟩]⟩
  flipsFactor := by
    refine ⟨factor, ?_⟩
    rw [hfactor]
    simp [checkInt, Json.toInt, Json.equalsInt, isWithin, Json.numeral?, Numeral.le, hone, hle,
      bind, Except.bind, pure, Except.pure]
  noise := by
    refine ⟨x, ?_⟩
    rw [hnoise]
    simp [checkFloat, Json.toFloat, isWithin, Json.numeral?, Numeral.le, hzero, hx,
      bind, Except.bind, pure, Except.pure]
  verbosity := ⟨.int level, by rw [hlevel, Json.numeral?]⟩

/-- Options that pass their checks can be set. -/
lemma Admissible.exists_prepare {c : SolveCommand} (h : c.Admissible) (g : γ) :
    ∃ s : Solver n γ, prepare (.arr []) c.setup.options (new n g) = .ok () s := by
  obtain ⟨i, hi⟩ := h.flipsFactor
  obtain ⟨x, hx⟩ := h.noise
  let o : Options := { flipsFactor := i, noise := x, zeroBreakFirst := c.zeroBreakFirst }
  refine ⟨_, prepare_of_set (o := o) ?_⟩
  simp [o, Setup.options, setup, Options.set, OptionName.ofText?, Options.put, hi, hx,
    Json.isTruthy, new, bind, Except.bind, pure, Except.pure]

/-- A solver is started for a formula whose literals are not zero, and answers. -/
lemma exists_start {c : SolveCommand} (h : c.Admissible) {f : Formula}
    (hzero : ∀ d ∈ f.clauses, ∀ l ∈ d, l ≠ 0) (hlarge : largestVariable f.clauses ≤ f.varCount)
    (hpos : 1 ≤ f.varCount) (hlimit : f.varCount ≤ memoryLimit) :
    ∃ s : Solver f.varCount Pcg64, c.start f = .ok ⟨f.varCount, s⟩
      ∧ ∃ status t, solve s = .ok status t ∧ t.status = status ∧ t.Answered status
        ∧ t.added.toList.map Clause.toInts = f.clauses := by
  obtain ⟨value, hseed⟩ := h.seed
  obtain ⟨level, hlevel⟩ := h.verbosity
  obtain ⟨s, hs⟩ := h.exists_prepare (n := f.varCount) (Pcg64.ofSeed value)
  obtain ⟨ds, hds, hints⟩ := exists_readClauses fun d hd l hl =>
    ⟨hzero d hd l hl, largestVariable_le.1 hlarge d hd l hl⟩
  have hbuild := Setup.build_of_read hpos hlimit hds hseed hs
  have hprepare := prepare_of_read hds hs
  obtain ⟨status, t, ht, hanswer⟩ := exists_solve_of_prepare hlimit hprepare level
  refine ⟨{ s.withClauses ds with verbosity := some level }, ?_, status, t, ht,
    (leads_solve_status _).ok ht, hanswer, ?_⟩
  · rw [start, clausesJson, hbuild, hlevel]
    rfl
  · have hadded : t.added = ds.toArray :=
      ((propagates_solve _).ok ht).added.trans (ready_of_prepare hds hprepare).added
    rw [hadded, hints]

/-- No solver is started for more variables than a machine has memory for. -/
lemma start_of_large {c : SolveCommand} (h : c.Admissible) {f : Formula}
    (hlarge : memoryLimit < f.varCount) :
    ∃ e, c.start f = .error e ∧ (e = .beyondMemory ∨ e = .beyondAddresses) := by
  obtain ⟨value, hseed⟩ := h.seed
  obtain ⟨e, he, hkind⟩ := exists_checkSize_of_lt hlarge
  refine ⟨e, ?_, hkind⟩
  rw [start, Setup.build, hseed]
  simp only [bind, Except.bind, variableCount_int (Nat.one_le_of_lt hlarge), he]
  rfl

/-! ### The run -/

/-- What was found is an assignment that satisfies the clauses, or nothing after the other
outcomes of a solve. -/
lemma found_of_answered {status : Status} {t : Solver n γ} (h : t.Answered status) :
    (status = .satisfied
        ∧ ∃ a : Assignment n, found status t = some a.toList ∧ a.Satisfies t.added.toList)
      ∨ (status = .contradiction ∨ status = .exhausted) ∧ found status t = none := by
  cases status with
  | satisfied =>
      obtain ⟨a, hmodel, ha⟩ := h
      refine .inl ⟨rfl, a, ?_, ha⟩
      rw [found, if_pos rfl, hmodel]
      rfl
  | contradiction => exact .inr ⟨.inl rfl, rfl⟩
  | exhausted => exact .inr ⟨.inr rfl, rfl⟩
  | undefined => exact h.elim

/-- The result is written to a file if there is a path, and the word for it is the last line. -/
lemma finish_of_path {c : SolveCommand} {path : String} (hpath : c.output = some path)
    (hempty : path ≠ "") (hdash : path ≠ "-") (s : Solved) (rate : String) :
    c.finish s rate = ⟨(if c.isLoud then statLines s.stats rate else []) ++ [verdict s.model],
      some (path, resultText s.model), exitCode s.model⟩ := by
  rw [finish, hpath]
  split
  next printed file heq =>
    split at heq
    · next h => cases h
    · next h => exact absurd (Option.some.inj h) hempty
    · next h => exact absurd (Option.some.inj h) hdash
    · next h =>
      cases h
      cases heq
      rw [List.append_nil]

/-- A run starts a solver for the formula with at least the variables that its clauses name. -/
lemma runWith_of_read {reader : List Char → Except Fault Formula} {text : String} {f : Formula}
    (h : reader text.toList = .ok f) (c : SolveCommand) :
    c.runWith reader text = match c.start f.widened with
      | .error e => ([], .error e)
      | .ok ⟨_, s⟩ =>
          match solve s with
          | .error e t => (t.report.toList, .error e)
          | .ok outcome t => (t.report.toList, .ok ⟨t.stats, found outcome t⟩) := by
  rw [runWith, loadWith, h]
  rfl

/-- **The command claims a model only if it has written one.** Let a reader of formula files find
a formula in a text, with literals other than zero and at least one variable, and let the command
be admissible and have a path for its result. Each clause of the formula is then accepted by every
solver for the larger of the number of variables that was read and the largest variable of a
clause. If a machine has memory for that many, the solve comes to an end and a result is written to
the path. The exit code is 10 exactly if this result is a model of all clauses, with one literal for
each variable; then an assignment was found, and the last line that is printed says so. Otherwise
the exit code is 0, since the clauses were refuted or the flips used up, the last line says that
nothing was determined, and so does the result: that the clauses have no model is never claimed.
If there are more variables than a machine has memory for, nothing is printed or written. -/
theorem runWith_sound (reader : List Char → Except Fault Formula) {c : SolveCommand}
    (hc : c.Admissible) {path text : String} (hpath : c.output = some path) (hempty : path ≠ "")
    (hdash : path ≠ "-") {f : Formula} (hread : reader text.toList = .ok f)
    (hzero : ∀ d ∈ f.clauses, ∀ l ∈ d, l ≠ 0)
    (hpos : 1 ≤ max f.varCount (largestVariable f.clauses)) :
    let n := max f.varCount (largestVariable f.clauses)
    (∀ (γ : Type) (s : Solver n γ), ∀ d ∈ f.clauses, ∃ e : Clause n, e.toInts = d
        ∧ addClause (.arr (d.map Json.int)) s = .ok () (s.pushClause e))
      ∧ (n ≤ memoryLimit → ∃ lines solved, c.runWith reader text = (lines, .ok solved)
        ∧ ∀ rate, let fin := c.finish solved rate
          ∃ content, fin.file = some (path, content)
            ∧ (fin.exitCode = 10 ↔ IsModelText n f.clauses content)
            ∧ (fin.exitCode = 10 ∧ solved.stats.status = .satisfied
                ∧ fin.lines.getLast? = some "SATISFIABLE"
              ∨ fin.exitCode = 0
                ∧ (solved.stats.status = .contradiction ∨ solved.stats.status = .exhausted)
                ∧ fin.lines.getLast? = some "INDETERMINATE" ∧ content = "INDET\n"))
      ∧ (memoryLimit < n → ∃ e, c.runWith reader text = ([], .error e)
        ∧ (e = .beyondMemory ∨ e = .beyondAddresses)) := by
  intro n
  have hlarge : largestVariable f.widened.clauses ≤ n := le_max_right _ _
  refine ⟨fun γ s d hd => ?_, fun hlimit => ?_, fun hlimit => ?_⟩
  · obtain ⟨e, he, hints⟩ := exists_readClause fun l hl =>
      ⟨hzero d hd l hl, largestVariable_le.1 hlarge d hd l hl⟩
    refine ⟨e, hints, ?_⟩
    rw [addClause, he]
    rfl
  · obtain ⟨s, hstart, _, t, ht, rfl, hanswer, hints⟩ :=
      exists_start (f := f.widened) hc hzero hlarge hpos hlimit
    refine ⟨t.report.toList, ⟨t.stats, found t.status t⟩, ?_, fun rate => ?_⟩
    · rw [runWith_of_read hread, hstart]
      simp only [ht]
    rw [finish_of_path hpath hempty hdash]
    rcases found_of_answered hanswer with ⟨hsat, a, hfound, ha⟩ | ⟨hunsat, hfound⟩
    · rw [hfound]
      have hmodel := isModelText_resultText ha hpos hlimit
      rw [hints] at hmodel
      exact ⟨_, rfl, iff_of_true rfl hmodel,
        .inl ⟨rfl, hsat, List.getLast?_concat⟩⟩
    · rw [hfound]
      have hcode : exitCode none ≠ 10 := by decide
      exact ⟨_, rfl, iff_of_false hcode not_isModelText_indet,
        .inr ⟨rfl, hunsat, List.getLast?_concat, rfl⟩⟩
  · obtain ⟨e, hstart, he⟩ := start_of_large hc hlimit (f := f.widened)
    exact ⟨e, by rw [runWith_of_read hread, hstart], he⟩

/-- Two clauses in a text, of which one forces a value and so the other one forces another, are
solved, and the result is a model. Two clauses that refute each other are not reported as
refuted. -/
theorem runWith_sound_of_forced :
    let c : SolveCommand := { input := "in.cnf", output := some "out.txt", verbosity := .int 0 }
    let text := "p cnf 2 2\n1 0\n-1 2 0\n"
    let text' := "c refuted\np cnf 1 2\n1 0\n-1 0\n"
    c.Admissible ∧ readDimacs text.toList = .ok ⟨2, [[1], [-1, 2]]⟩
      ∧ readDimacs text'.toList = .ok ⟨1, [[1], [-1]]⟩
      ∧ (∃ lines solved, c.run text = (lines, .ok solved)
        ∧ c.finish solved "0" = ⟨["SATISFIABLE"], some ("out.txt", "SAT\n1 2 0\n"), 10⟩
        ∧ IsModelText 2 [[1], [-1, 2]] "SAT\n1 2 0\n")
      ∧ ∃ lines solved, c.run text' = (lines, .ok solved)
        ∧ c.finish solved "0" = ⟨["INDETERMINATE"], some ("out.txt", "INDET\n"), 0⟩ := by
  intro c text text'
  have hc : c.Admissible := .of_ranges (show c.seed = .int 42 from rfl) (by decide) (by decide)
    (show c.flipsFactor = .int 35 from rfl) (by decide) (by decide)
    (show c.noise = .float 0.5 from rfl) (by decide +kernel) (by decide +kernel)
    (show c.verbosity = .int 0 from rfl)
  have hpath : c.output = some "out.txt" := rfl
  have hread : readDimacs text.toList = .ok ⟨2, [[1], [-1, 2]]⟩ :=
    eq_ok_of_toOption (by decide +kernel)
  have hread' : readDimacs text'.toList = .ok ⟨1, [[1], [-1]]⟩ :=
    eq_ok_of_toOption (by decide +kernel)
  have hfinish : ∀ s : Solved, c.finish s "0"
      = ⟨[verdict s.model], some ("out.txt", resultText s.model), exitCode s.model⟩ := by
    intro s
    have hquiet : c.isLoud = false := by decide
    rw [finish_of_path hpath (by decide) (by decide), hquiet]
    rfl
  obtain ⟨-, hsolve, -⟩ := runWith_sound readDimacs hc hpath (by decide) (by decide) hread
    (by decide) (by decide)
  obtain ⟨-, hsolve', -⟩ := runWith_sound readDimacs hc hpath (by decide) (by decide) hread'
    (by decide) (by decide)
  obtain ⟨lines, solved, hrun, hfin⟩ := hsolve (by decide)
  obtain ⟨lines', solved', hrun', hfin'⟩ := hsolve' (by decide)
  have hmodel : solved.model = some [true, true] := by
    have hfound : (c.run text).2.toOption.map Solved.model = some (some [true, true]) := by
      decide +kernel
    rw [run, hrun] at hfound
    exact Option.some.inj hfound
  have hmodel' : solved'.model = none := by
    have hfound : (c.run text').2.toOption.map Solved.model = some none := by
      decide +kernel
    rw [run, hrun'] at hfound
    exact Option.some.inj hfound
  have htext : resultText (some [true, true]) = "SAT\n1 2 0\n" := by decide +kernel
  obtain ⟨content, hcontent, hiff, -⟩ := hfin "0"
  rw [hfinish, hmodel, htext] at hcontent hiff
  cases hcontent
  refine ⟨hc, hread, hread', ⟨lines, solved, hrun, ?_, hiff.1 rfl⟩, lines', solved', hrun', ?_⟩
  · rw [hfinish, hmodel, htext]
    rfl
  · rw [hfinish, hmodel']
    rfl

end SolveCommand

end LocalSat
