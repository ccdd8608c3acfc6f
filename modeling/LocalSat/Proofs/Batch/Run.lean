/-
The runs of a batch and solves of instances.

* `agree_prepare`: a solver is built alike at every level of the report;
* `Job.work_eq`: the work of a job is a solve after a simplification;
* `readTrace_of_events`: the record of the flips is read back from its text;
* `Job.run_eq_ofRun`, `Job.found_eq`: the run of a job and the answer for its instance, by the
  solve alone; `Record.Describes` is what the record says about it;
* `Job.run_agrees`: a run of a batch gives what a solve of its instance gives.
-/
import LocalSat.Batch.Run
import LocalSat.Proofs.Random.Tape
import LocalSat.Proofs.Random.Seed
import LocalSat.Proofs.Session.Again
import LocalSat.Proofs.Session.Building
import LocalSat.Proofs.Trace.Text

namespace LocalSat

open LocalSat.Solver

variable {n : Nat} {γ : Type}

/-! ### Building -/

namespace Solver

/-- The second of two solvers has another level of the report. -/
def Releveled (level : Option Numeral) (s t : Solver n γ) : Prop :=
  t = { s with verbosity := level }

section

variable {level : Option Numeral} {s t : Solver n γ}

/-- Setting an option does not depend on the level of the report. -/
lemma agree_setOption (h : Releveled level s t) (name : String) (value : Json) :
    Agree (Releveled level) (setOption name value) (setOption name value) s t := by
  have hoptions : t.options = s.options := by
    rw [h]
  rw [setOption, agree_get_bind, hoptions]
  cases s.options.set name value with
  | ok o => exact ⟨_, rfl, by rw [h]; rfl⟩
  | error e => exact ⟨_, rfl, h⟩

/-- Neither does adding clauses. -/
lemma agree_addClauses (values : List Json) (h : Releveled level s t) :
    Agree (Releveled level) (addClauses values) (addClauses values) s t := by
  induction values generalizing s t with
  | nil => exact agree_pure h ()
  | cons value values ih =>
      have hclause : Agree (Releveled level) (addClause value) (addClause value) s t := by
        refine (agree_attempt h _).bind fun c u v huv => agree_modify ?_
        rw [huv]
        rfl
      exact hclause.bind fun _ u v huv => ih huv

/-- A solver is built alike at every level of the report. -/
lemma agree_prepare (clauses : Json) (options : List (String × Json))
    (h : Releveled level s t) :
    Agree (Releveled level) (prepare clauses options) (prepare clauses options) s t := by
  induction options generalizing s t with
  | nil =>
      rw [prepare_nil]
      exact (agree_attempt h _).bind fun values u v huv => agree_addClauses values huv
  | cons o options ih =>
      rw [prepare_cons]
      exact (agree_setOption h o.1 o.2).bind fun _ u v huv => ih huv

end

/-- The flips of a run are read back from their text, since there are not too many variables
for a machine. -/
lemma readTrace_of_events (hn : n ≤ memoryLimit) (events : List (Event n)) :
    readTrace (traceText (events.map Event.toFlip)).toList
      = .ok (events.map Event.toFlip) := by
  refine readTrace_traceText fun f hf => ?_
  obtain ⟨e, -, rfl⟩ := List.mem_map.1 hf
  have hvar : e.literal.toInt.natAbs ≤ n := by
    rw [natAbs_toInt]
    exact e.literal.var.isLt
  exact Number.length_natText_le_digitLimit (hvar.trans hn)

end Solver

/-! ### The run of a job -/

open Solver

/-- The work of a job is a solve after a simplification. -/
lemma Job.work_eq [RandomSource γ] {s : Solver n γ} (h : s.verbosity.isSome = true) :
    Job.work s = solve (s.after .simplify) := by
  have hsimplify : ∃ b t, simplify s = .ok b t := by
    cases hok : s.ok with
    | false => exact ⟨false, s, simplify_of_refuted hok⟩
    | true =>
        obtain ⟨loud, hloud⟩ := exists_reports h 2
        exact ⟨_, s.simplified loud, by rw [simplify_of_ok hok, hloud]⟩
  obtain ⟨b, t, ht⟩ := hsimplify
  calc Job.work s = solve t := bind_run_of_ok ht
    _ = solve (s.after .simplify) := by
      rw [after_simplify, ht]
      rfl

/-- The answer for an instance with the seed, the clauses and the options of a job. -/
def Job.found (j : Job) (setup : Setup) (bytes : List Nat) : Except Fault (Option (List Bool)) :=
  (solveInstance j.problem.varCount j.problem.clauses (.bytes (bytes.map UInt8.ofNat)) (.int 0)
    setup.options).1

/-- A run fails if its solver cannot be built. -/
lemma Job.run_of_error {j : Job} {setup : Setup} {e : Fault}
    (h : setup.build j.problem.varCount j.problem.clauses j.seed = .error e) :
    j.run setup = .error e := by
  rw [Job.run, Job.build, h]
  rfl

/-- The run of a job records a solve of the solver that was built. -/
lemma Job.run_eq_ofRun {j : Job} {setup : Setup} {s : Solver n Pcg64}
    (hbuild : setup.build j.problem.varCount j.problem.clauses j.seed = .ok ⟨n, s⟩)
    (hrounds : s.rounds = 0) {status : Status} {t : Solver n Pcg64}
    (ht : solve { s with verbosity := some (.int 0) } = .ok status t) :
    ∃ u, Repassed 0 t u ∧ j.run setup = .ok (.ofRun j.problem j.seed setup status u) := by
  let u₀ : Solver n Pcg64 := { s with verbosity := some (.int 0) }
  have hrepeats : Repeats 0 (solve u₀) (solve (u₀.after .simplify)) :=
    solve_repeats (s := u₀) hrounds rfl 0
  have hwork : work u₀ = solve (u₀.after .simplify) := Job.work_eq rfl
  have hj : j.build setup = .ok ⟨n, u₀⟩ := by
    rw [Job.build, hbuild]
    rfl
  rw [show solve u₀ = .ok status t from ht] at hrepeats
  obtain ⟨u, hu, htu⟩ := hrepeats.exists_ok
  refine ⟨u, by simpa using htu, ?_⟩
  rw [Job.run, hj]
  simp only [bind, Except.bind, hwork, hu]
  rfl

/-- The answer for the instance is that of the solver that was built. -/
lemma Job.found_eq {j : Job} {setup : Setup} {value : Nat} {s : Solver n Pcg64}
    (hseed : seedOf .floatSeed j.seed = .ok value)
    (hn : variableCount j.problem.varCount = .ok n)
    (hs : prepare j.problem.clauses setup.options (new n (Pcg64.ofSeed value)) = .ok () s)
    {status : Status} {t : Solver n Pcg64}
    (ht : solve { s with verbosity := some (.int 0) } = .ok status t) :
    j.found setup (lowBytes 8 value)
      = .ok (if status = .satisfied then t.model.map Vector.toList else none) := by
  have hblank : Releveled (some (.int 0)) (new n (Pcg64.ofSeed value))
      (blank n value (.int 0)) := rfl
  obtain ⟨i, hi, hsi⟩ := (agree_prepare j.problem.clauses setup.options hblank).ok hs
  obtain rfl : i = { s with verbosity := some (.int 0) } := hsi
  rw [Job.found, solveInstance_eq (seedOfBytes_lowBytes (lt_of_seedOf hseed)) hn hi, ht]

/-- What the record of a run says, where the solve alone reaches the state `t` with an answer:
its statistics are those of the solve, an assignment that was found was verified, and the
flips of the solve are recorded as the setup says. -/
structure Record.Describes (r : Record) (setup : Setup) (status : Status) (t : Solver n γ) :
    Prop where
  /-- The statistics. -/
  stats : r.stats = t.stats
  /-- Whether an assignment was found. -/
  solved : r.solved = true ↔ status = .satisfied
  /-- Assignments that were found satisfy the clauses. -/
  verified : r.verified = if r.solved = true then some true else none
  /-- The flips, if they are to be recorded. -/
  flips : r.flips = if setup.recordTrace.isTruthy = true then
    some (t.trace.toList.map Event.toFlip) else none

/-- The record of a run describes the solve alone. -/
lemma Record.describes_ofRun {p : Problem} {seed : Json} {setup : Setup} {status : Status}
    {t u : Solver n γ} (hanswer : t.Answered status) (h : Repassed 0 t u) :
    (Record.ofRun p seed setup status u).Describes setup status t := by
  obtain ⟨r, rfl⟩ := h
  refine ⟨rfl, decide_eq_true_iff, ?_, rfl⟩
  cases status with
  | satisfied =>
      obtain ⟨a, hmodel, hsat⟩ := hanswer
      have hconfirms : t.confirms a = true := (isSatisfied_toInts a t.added.toList).2 hsat
      show t.model.map t.confirms = some true
      rw [hmodel, Option.map_some, hconfirms]
  | contradiction | exhausted | undefined => rfl

/-- A model is given exactly when an assignment was found. -/
lemma Solver.Answered.exists_model_iff {status : Status} {t : Solver n γ}
    (h : t.Answered status) :
    (∃ values : List Bool, (if status = .satisfied then t.model.map Vector.toList else none)
      = some values) ↔ status = .satisfied := by
  cases status with
  | satisfied =>
      obtain ⟨a, hmodel, -⟩ := h
      rw [if_pos rfl, hmodel]
      exact iff_of_true ⟨_, rfl⟩ rfl
  | contradiction | exhausted | undefined =>
      rw [if_neg Status.noConfusion]
      exact iff_of_false (fun ⟨_, h⟩ => by cases h) Status.noConfusion

/-- **The runs of a batch give what solves of their instances give.** A solve before which
there was no pass goes alike after any number of simplifications, with every source: the
answer or the fault and all else that is reached are the same, the source with the log of its
questions included, but for the report and the number of passes. Each simplification after the
first adds one pass, unless the clauses are refuted. Let a solver be built for a problem, with
a seed and a setup; if that fails, so does the run of the job. There was no pass yet, and a
solve succeeds at every level of the report. So does the run of the job, in which one
simplification comes first: its record has the statistics of the solve alone, an assignment
that was found was verified, and the flips are recorded as the setup says and read back from
their text. The problem is said to be solved exactly if the answer for the instance, with the
bytes of the seed and the same options, is an assignment. -/
theorem Job.run_agrees (j : Job) (setup : Setup) :
    (∀ {n : Nat} {γ : Type} [RandomSource γ] (s : Solver n γ) (k : Nat),
        s.rounds = 0 → s.verbosity.isSome = true →
        Repeats k (solve s) (solve (s.run (List.replicate (k + 1) .simplify))))
      ∧ match setup.build j.problem.varCount j.problem.clauses j.seed with
        | .error e => j.run setup = .error e
        | .ok ⟨_, s⟩ => s.rounds = 0 ∧ s.verbosity.isSome = true
          ∧ (∀ level : Numeral, ∃ status t,
            solve { s with verbosity := some level } = .ok status t)
          ∧ ∃ bytes record status t, seedBytes j.seed = .ok bytes
            ∧ j.run setup = .ok record
            ∧ solve { s with verbosity := some (.int 0) } = .ok status t
            ∧ record.Describes setup status t
            ∧ (record.solved = true ↔ ∃ values, j.found setup bytes = .ok (some values))
            ∧ ∀ flips ∈ record.flips, readTrace (traceText flips).toList = .ok flips := by
  refine ⟨fun s k hrounds hlevel => solve_repeats hrounds hlevel k, ?_⟩
  split
  · next e hbuild => exact Job.run_of_error hbuild
  · next n s hbuild =>
    obtain ⟨value, hseed, hvars, hs⟩ := exists_of_build hbuild
    have hn : n ≤ memoryLimit := le_of_variableCount hvars
    have hrounds : s.rounds = 0 := rounds_of_prepare hs
    have hreporting : s.reporting = (new n (Pcg64.ofSeed value)).reporting :=
      (fixes_reporting_prepare _ _ _).ok hs
    have hlevel : s.verbosity = some (.int 1) := (Prod.mk.inj hreporting).1
    obtain ⟨status, t, ht, hanswer⟩ := exists_solve_of_prepare hn hs (.int 0)
    obtain ⟨u, htu, hrun⟩ := Job.run_eq_ofRun hbuild hrounds ht
    have hbytes : seedBytes j.seed = .ok (lowBytes 8 value) := by
      rw [seedBytes, hseed]
      rfl
    have hdescribes : (Record.ofRun j.problem j.seed setup status u).Describes setup status t :=
      Record.describes_ofRun hanswer htu
    refine ⟨hrounds, by rw [hlevel]; rfl, fun level => ?_, _, _, status, t, hbytes, hrun, ht,
      hdescribes, ?_, fun flips hflips => ?_⟩
    · obtain ⟨status, t, ht, -⟩ := exists_solve_of_prepare hn hs level
      exact ⟨status, t, ht⟩
    · rw [hdescribes.solved, Job.found_eq hseed hvars hs ht]
      simp only [Except.ok.injEq]
      exact hanswer.exists_model_iff.symm
    · rw [hdescribes.flips] at hflips
      split at hflips
      · obtain rfl := Option.some.inj hflips
        exact readTrace_of_events hn t.trace.toList
      · cases hflips

/-- Three simplifications before a solve add two passes, and change nothing else in a search
that flips once. Where two clauses refute each other they add none. The run of a job without
variables fails as its solver cannot be built. -/
theorem Job.run_agrees_after_three_simplifications :
    let s : Solver 2 Tape := (new 2 Tape.zero).run
      [.setOption "record-trace" (.bool true), .addClause (.arr [.int 1, .int 2])]
    let u : Solver 1 Tape := (new 1 Tape.zero).run
      [.addClause (.arr [.int 1]), .addClause (.arr [.int (-1)])]
    let j : Job := ⟨⟨.str "empty", .int 0, .arr []⟩, .int 7⟩
    (s.rounds = 0 ∧ s.verbosity.isSome = true ∧ ∃ t v, solve s = .ok .satisfied t
        ∧ solve (s.run [.simplify, .simplify, .simplify]) = .ok .satisfied v
        ∧ t.rounds = 1 ∧ v.rounds = 3 ∧ t.counters = ⟨1, 0, 1, 0⟩ ∧ v.counters = t.counters
        ∧ v.trace = t.trace ∧ v.model = t.model ∧ v.source = t.source)
      ∧ (u.rounds = 0 ∧ u.verbosity.isSome = true ∧ ∃ t v, solve u = .ok .contradiction t
        ∧ solve (u.run [.simplify, .simplify, .simplify]) = .ok .contradiction v
        ∧ v.rounds = t.rounds)
      ∧ ∃ e, j.run {} = .error e := by
  intro s u j
  have hs : s.rounds = 0 ∧ s.verbosity.isSome = true := by
    subst s
    decide +kernel
  have hu : u.rounds = 0 ∧ u.verbosity.isSome = true := by
    subst u
    decide +kernel
  have hrun : Leads solve s (fun status t => status = .satisfied ∧ t.rounds = 1
      ∧ t.counters = ⟨1, 0, 1, 0⟩) fun _ _ => False := by
    subst s
    decide +kernel
  have hrefuted : Leads solve u (fun status _ => status = .contradiction)
      fun _ _ => False := by
    subst u
    decide +kernel
  obtain ⟨hrepeats, hjob⟩ := Job.run_agrees j {}
  obtain ⟨status, t, ht, rfl, hrounds, hcounters⟩ := hrun.exists_ok
  obtain ⟨status', t', ht', rfl⟩ := hrefuted.exists_ok
  have hmany := hrepeats s 2 hs.1 hs.2
  have hmany' := hrepeats u 2 hu.1 hu.2
  rw [ht] at hmany
  rw [ht'] at hmany'
  obtain ⟨v, hv, r, rfl⟩ := hmany.exists_ok
  obtain ⟨v', hv', r', rfl⟩ := hmany'.exists_ok
  have hbuild : Setup.build {} j.problem.varCount j.problem.clauses j.seed
      = .error (.variableCount (.int 0)) := rfl
  rw [hbuild] at hjob
  have hthree : t.rounds + 2 = 3 := by rw [hrounds]
  exact ⟨⟨hs.1, hs.2, t, _, ht, hv, hrounds, hthree, hcounters, rfl, rfl, rfl, rfl⟩,
    ⟨hu.1, hu.2, t', _, ht', hv', rfl⟩, _, hjob⟩

end LocalSat
