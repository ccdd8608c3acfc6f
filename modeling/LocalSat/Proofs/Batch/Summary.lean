/-
The records of a batch and their summary.

* `getElem?_jobs`, `length_jobs`: where the job of a problem and a seed stands;
* `Job.runOf`: the run of a job with settings; `runBatch_eq`: a batch makes the runs of its jobs
  in order;
* `Record.Conclusive`: the outcome in the statistics of a record is that of a solve, and the flips
  of a solved run are not too many for a float; `Job.conclusive_of_run`: so it is with the record
  of a run;
* `Record.items`: records as values, each with its times;
* `exists_summarize`: the summary of such values counts the records by their outcome;
* `runBatch_summarized`: what is counted of a batch, whole or in parts.
-/
import LocalSat.CommandLine.Batch
import LocalSat.Proofs.Analysis.Summary
import LocalSat.Proofs.Batch.Run
import LocalSat.Proofs.Options
import LocalSat.Proofs.Session.Safety

namespace LocalSat

open LocalSat.Solver LocalSat.Analysis

/-! ### Jobs -/

/-- There is one job for every problem and every seed. -/
lemma length_jobs (problems : List Problem) (seeds : List Json) :
    (jobs problems seeds).length = problems.length * seeds.length := by
  induction problems with
  | nil => simp [jobs]
  | cons p problems ih =>
      rw [jobs, List.flatMap_cons, List.length_append, ← jobs, ih]
      simp only [List.length_map, List.length_cons]
      ring

/-- The job of a problem and a seed stands after those of the problems before it and of the seeds
before it. -/
lemma getElem?_jobs {problems : List Problem} {seeds : List Json} {i k : Nat} {p : Problem}
    {seed : Json} (hp : problems[i]? = some p) (hseed : seeds[k]? = some seed) :
    (jobs problems seeds)[i * seeds.length + k]? = some ⟨p, seed⟩ := by
  induction problems generalizing i with
  | nil => simp at hp
  | cons q problems ih =>
      rw [jobs, List.flatMap_cons, ← jobs]
      cases i with
      | zero =>
          obtain rfl : q = p := by simpa using hp
          obtain ⟨hlt, -⟩ := List.getElem?_eq_some_iff.1 hseed
          rw [Nat.zero_mul, Nat.zero_add, List.getElem?_append_left (by simpa using hlt),
            List.getElem?_map, hseed]
          rfl
      | succ i =>
          have hplace : (i + 1) * seeds.length + k
              = (seeds.map fun seed => (⟨q, seed⟩ : Job)).length + (i * seeds.length + k) := by
            rw [List.length_map]
            ring
          rw [hplace, List.getElem?_append_right (Nat.le_add_right ..), Nat.add_sub_cancel_left]
          exact ih (by simpa using hp)

/-- The record of a job with settings that are yet to be checked. -/
def Job.runOf (settings : Json) (j : Job) : Except Fault Record := do
  let setup ← Setup.ofJson settings
  j.run setup

/-- A batch makes the runs of its jobs in order, if none of them fails. -/
lemma runBatch_eq {problems : List Problem} {seeds : List Json} {settings workers : Json}
    (hworkers : checkWorkers workers = .ok ())
    (hjobs : ∀ j ∈ jobs problems seeds, ∃ r, j.runOf settings = .ok r) :
    runBatch problems (.arr seeds) settings workers
      = (jobs problems seeds).mapM (Job.runOf settings) := by
  have hlist : jobsOf problems (.arr seeds) = .ok (jobs problems seeds) := by
    cases problems <;> rfl
  rw [runBatch, hlist]
  show (checkWorkers workers >>= fun _ => _) = _
  rw [hworkers]
  show (if (jobs problems seeds).isEmpty = true then _ else _) = _
  cases hj : jobs problems seeds with
  | nil => rfl
  | cons j js =>
      -- the settings are those of every run, so they can be read
      rw [hj, List.forall_mem_cons] at hjobs
      obtain ⟨r, hr⟩ := hjobs.1
      obtain ⟨setup, hsetup, -⟩ := exists_of_bind_eq_ok hr
      have hrun : Job.runOf settings = fun j => j.run setup := by
        funext j
        rw [Job.runOf, hsetup]
        rfl
      rw [hrun, hsetup]
      rfl

/-! ### What the record of a run says -/

/-- A solver that is prepared may make from one flip to the 31st power of two for each variable. -/
lemma Solver.factor_of_prepare {n : Nat} {γ : Type} {clauses : Json}
    {options : List (String × Json)} {s t : Solver n γ}
    (hs : 1 ≤ s.options.flipsFactor ∧ s.options.flipsFactor ≤ Number.twoPow 31)
    (h : prepare clauses options s = .ok () t) :
    1 ≤ t.options.flipsFactor ∧ t.options.flipsFactor ≤ Number.twoPow 31 := by
  induction options generalizing s with
  | nil =>
      rw [prepare_nil] at h
      rwa [(fixes_addClausesOf (f := Solver.options) (fun _ _ => rfl) clauses s).ok h]
  | cons o options ih =>
      rw [prepare_cons] at h
      obtain ⟨_, u, hset, hrest⟩ := exists_of_bind_run_eq_ok h
      refine ih ?_ hrest
      have hgiven := Declaration.flipsFactor.given_eq s.options o.1 o.2
      have hmem := Declaration.flipsFactor.given_mem (fun _ _ => checkInt_mem) hs o.1 o.2
      rw [setOption_eq] at hset
      cases hput : s.options.set o.1 o.2 with
      | error e =>
          rw [hput] at hset
          cases hset
      | ok p =>
          rw [hput] at hset hgiven
          cases hset
          rwa [show Declaration.flipsFactor.given s.options.flipsFactor o.1 o.2 = p.flipsFactor
            from hgiven] at hmem

/-- So it may not make more flips than the 63rd power of two. -/
lemma Solver.maxFlips_mem {n : Nat} {γ : Type} {s : Solver n γ} (hn : n ≤ memoryLimit)
    (hfactor : 1 ≤ s.options.flipsFactor ∧ s.options.flipsFactor ≤ Number.twoPow 31) :
    0 ≤ s.maxFlips ∧ s.maxFlips ≤ Number.twoPow 63 := by
  refine ⟨Int.mul_nonneg (Int.natCast_nonneg n) (by omega), ?_⟩
  calc s.maxFlips
      ≤ (Number.twoPow 32 : Int) * Number.twoPow 31 :=
        Int.mul_le_mul (Int.ofNat_le.2 hn) hfactor.2 (by omega) (Int.natCast_nonneg _)
    _ = Number.twoPow 63 := rfl

/-- What a record says fits together: a run is solved when its solve has found an assignment, its
solve has come to an outcome, and when it is solved, there were no more flips than there can be. -/
structure Record.Conclusive (r : Record) : Prop where
  /-- Solved runs. -/
  solved : r.solved = decide (r.stats.status = .satisfied)
  /-- The outcome. -/
  decided : r.stats.status ≠ .undefined
  /-- The flips of a solved run. -/
  flips_le : r.stats.status = .satisfied → r.stats.counters.flips ≤ Number.twoPow 63

/-- The record of a run is that of its job, and what it says fits together. -/
lemma Job.conclusive_of_run {j : Job} {setup : Setup} {r : Record} (h : j.run setup = .ok r) :
    r.Conclusive ∧ r.name = j.problem.name ∧ r.seed = j.seed := by
  rw [Job.run] at h
  obtain ⟨⟨n, s⟩, hj, h⟩ := exists_of_bind_eq_ok h
  obtain ⟨⟨m, s₀⟩, hbuild, heq⟩ := exists_of_map_eq_ok hj
  cases heq
  obtain ⟨value, -, hm, hprepare⟩ := exists_of_build hbuild
  cases hwork : work { s₀ with verbosity := some (.int 0) } with
  | error e t =>
      simp only [hwork] at h
      cases h
  | ok outcome t =>
      simp only [hwork] at h
      cases h
      obtain ⟨_, t₀, hsimplify, hsolve⟩ := exists_of_bind_run_eq_ok hwork
      have hstatus : t.status = outcome := (leads_solve_status t₀).ok hsolve
      have hfactor : 1 ≤ s₀.options.flipsFactor ∧ s₀.options.flipsFactor ≤ Number.twoPow 31 := by
        refine factor_of_prepare ?_ hprepare
        show (1 : Int) ≤ 35 ∧ (35 : Int) ≤ Number.twoPow 31
        decide
      have hoptions : t₀.options = s₀.options :=
        congrArg Prod.fst ((fixes_settings_simplify _).ok hsimplify)
      rw [← hoptions] at hfactor
      obtain ⟨hpositive, hlimit⟩ := maxFlips_mem (le_of_variableCount hm) hfactor
      have hended := (leads_solve_endedWithin hpositive).ok hsolve
      refine ⟨⟨?_, ?_, ?_⟩, rfl, rfl⟩
      · show decide (outcome = .satisfied) = decide (t.status = .satisfied)
        rw [hstatus]
      · show t.status ≠ .undefined
        rw [hstatus]
        rintro rfl
        exact hended.elim (by decide) id
      · show t.status = .satisfied → t.counters.flips ≤ Number.twoPow 63
        rw [hstatus]
        rintro rfl
        obtain ⟨-, -, hle⟩ := hended.resolve_left (by decide)
        exact Int.ofNat_le.1 (hle.trans hlimit)

/-! ### Records as values -/

namespace Record

/-- Records as values, each with its times. -/
def items (timed : List (Record × Json)) : List Json :=
  timed.map fun (r, times) => r.toJson times

variable {r : Record} {records : List Record} {timed : List (Record × Json)}

/-- The statistics of a record are found in its value. -/
lemma statsOf_toJson (r : Record) (times : Json) : statsOf (r.toJson times) = r.stats.toJson := rfl

/-- So its value is that of a record. -/
lemma isRecord_toJson (r : Record) (times : Json) : IsRecord (r.toJson times) :=
  ⟨r.fields times, rfl, fun _ hvalue _ => ⟨_, (Option.some.inj hvalue).symm⟩⟩

/-- The outcome in the value of a record is the one in its statistics. -/
lemma isOutcome_toJson (r : Record) (times : Json) (status : Status) :
    isOutcome status (r.toJson times) = decide (r.stats.status = status) := by
  rw [isOutcome, statsOf_toJson, Stats.toJson]
  cases r.stats.status <;> cases status <;> rfl

/-- The flips of a solved run are not beyond the floats. -/
lemma Conclusive.overflows_toJson (h : r.Conclusive) (times : Json) :
    overflows (r.toJson times) = false := by
  rw [overflows, isOutcome_toJson, statsOf_toJson]
  by_cases hsolved : r.stats.status = .satisfied
  · have hfloats : Number.twoPow 63 < Number.twoPow 1024 - Number.twoPow 970 := by decide +kernel
    have hflips := h.flips_le hsolved
    have hvalue : r.stats.toJson.get? "flips" = some (.int r.stats.counters.flips) := rfl
    rw [hvalue, Option.any_some, isBeyondFloats, Int.natAbs_natCast, Bool.and_eq_false_iff,
      decide_eq_false_iff_not (p := _ ≤ _)]
    generalize Number.twoPow 1024 - Number.twoPow 970 = beyond at hfloats ⊢
    exact .inr (by omega)
  · rw [decide_eq_false hsolved, Bool.false_and]

/-- The records with an outcome are counted among the values. -/
lemma countP_items (timed : List (Record × Json)) (status : Status) :
    (items timed).countP (isOutcome status)
      = (timed.map Prod.fst).countP fun r => r.stats.status = status := by
  simp only [items, List.countP_map, Function.comp_def, isOutcome_toJson]

/-- The solved runs are those with an assignment. -/
lemma countP_solved (h : ∀ r ∈ records, r.Conclusive) :
    records.countP Record.solved = records.countP fun r => r.stats.status = .satisfied :=
  List.countP_congr fun r hr => by rw [(h r hr).solved]

/-- Every run has one of three outcomes. -/
lemma countP_outcomes (h : ∀ r ∈ records, r.Conclusive) :
    (records.countP fun r => r.stats.status = .satisfied)
      + (records.countP fun r => r.stats.status = .contradiction)
      + (records.countP fun r => r.stats.status = .exhausted) = records.length := by
  induction records with
  | nil => rfl
  | cons r records ih =>
      rw [List.forall_mem_cons] at h
      have hrest := ih h.2
      have hdecided := h.1.decided
      simp only [List.countP_cons, List.length_cons, decide_eq_true_eq]
      cases hstatus : r.stats.status with
      | undefined => exact absurd hstatus hdecided
      | satisfied | contradiction | exhausted =>
          simp only [reduceCtorEq, if_true, if_false]
          omega

end Record

/-! ### Counts -/

namespace Analysis

/-- What a summary counts: runs, solved ones, refuted ones and exhausted ones. -/
def Summary.counts (s : Summary) : Nat × Nat × Nat × Nat :=
  (s.runs, s.solved, s.contradictions, s.exhausted)

/-- What there is to be counted of values. -/
def countsOf (records : List Json) : Nat × Nat × Nat × Nat :=
  (records.length, records.countP (isOutcome .satisfied),
    records.countP (isOutcome .contradiction), records.countP (isOutcome .exhausted))

/-- Values of records whose flips are not beyond the floats are counted. -/
lemma exists_summarize {records : List Json}
    (h : ∀ record ∈ records, IsRecord record ∧ overflows record = false) :
    ∃ s, summarize records = .ok s ∧ s.counts = countsOf records := by
  obtain ⟨r, hr, ht⟩ := tallies_ofRecords (fun record hmem => (h record hmem).1)
    fun record hmem => (h record hmem).2
  refine ⟨r.summary records.length, by rw [summarize, hr]; rfl, ?_⟩
  rw [countsOf, ← ht.solved, ← ht.contradictions, ← ht.exhausted]
  rfl

/-- So they are in any parts, and the counts of the whole are the sums of those of the parts. -/
lemma exists_summarize_flatten {files : List (List Json)}
    (h : ∀ record ∈ files.flatten, IsRecord record ∧ overflows record = false) :
    ∃ whole parts, summarize files.flatten = .ok whole ∧ files.mapM summarize = .ok parts
      ∧ whole.runs = (parts.map Summary.runs).sum
      ∧ whole.solved = (parts.map Summary.solved).sum
      ∧ whole.contradictions = (parts.map Summary.contradictions).sum
      ∧ whole.exhausted = (parts.map Summary.exhausted).sum := by
  obtain ⟨whole, hwhole, hcounts⟩ := exists_summarize h
  obtain ⟨parts, hparts, hshown⟩ := exists_mapM_shown summarize Summary.counts countsOf
    fun file hfile => exists_summarize fun record hmem =>
      h record (List.mem_flatten_of_mem hfile hmem)
  have hsum : ∀ part : Nat × Nat × Nat × Nat → Nat,
      (parts.map fun s => part s.counts).sum
        = (files.map fun file => part (countsOf file)).sum := by
    intro part
    have hmap := congrArg (List.map part) hshown
    rw [List.map_map, List.map_map] at hmap
    exact congrArg List.sum hmap
  obtain ⟨hruns, hsolved, hcontradictions, hexhausted⟩ :
      whole.runs = files.flatten.length
        ∧ whole.solved = files.flatten.countP (isOutcome .satisfied)
        ∧ whole.contradictions = files.flatten.countP (isOutcome .contradiction)
        ∧ whole.exhausted = files.flatten.countP (isOutcome .exhausted) := by
    simpa [Summary.counts, countsOf] using hcounts
  refine ⟨whole, parts, hwhole, hparts, ?_, ?_, ?_, ?_⟩
  · rw [hruns, List.length_flatten]
    exact (hsum fun c => c.1).symm
  · rw [hsolved, List.countP_flatten]
    exact (hsum fun c => c.2.1).symm
  · rw [hcontradictions, List.countP_flatten]
    exact (hsum fun c => c.2.2.1).symm
  · rw [hexhausted, List.countP_flatten]
    exact (hsum fun c => c.2.2.2).symm

end Analysis

/-! ### Batches -/

/-- **The report of a batch and its analysis agree.** When no run of a job fails, there is one
record for every problem and every seed: that of problem `i` and seed `k` stands at place `i *
seeds.length + k`, and bears their names. Whatever times are written beside them, the analysis of
the records counts as many runs as there are, as many solved ones as the report of the batch, and
every run as one of solved, refuted or exhausted. If the records are split into files in any way,
the files and all of them together can be analysed, and what is counted of the whole are the sums
over the files. -/
theorem runBatch_summarized {problems : List Problem} {seeds : List Json} {settings workers : Json}
    (hworkers : checkWorkers workers = .ok ())
    (hjobs : ∀ j ∈ jobs problems seeds, ∃ r, j.runOf settings = .ok r) :
    ∃ records, runBatch problems (.arr seeds) settings workers = .ok records
      ∧ records.length = problems.length * seeds.length
      ∧ (∀ i p, problems[i]? = some p → ∀ k seed, seeds[k]? = some seed →
          ∃ r, records[i * seeds.length + k]? = some r ∧ Job.runOf settings ⟨p, seed⟩ = .ok r
            ∧ r.name = p.name ∧ r.seed = seed)
      ∧ ∀ timed : List (Record × Json), timed.map Prod.fst = records →
          ∃ total, summarize (Record.items timed) = .ok total
            ∧ total.runs = records.length
            ∧ total.solved = records.countP Record.solved
            ∧ BatchCommand.solvedLine records
              = "Solved " ++ toString total.solved ++ " / " ++ toString total.runs ++ " runs."
            ∧ total.solved + total.contradictions + total.exhausted = total.runs
            ∧ ∀ files : List (List Json), files.flatten.Perm (Record.items timed) →
                ∃ whole parts, summarize files.flatten = .ok whole
                  ∧ files.mapM summarize = .ok parts
                  ∧ whole.runs = (parts.map Summary.runs).sum
                  ∧ whole.solved = (parts.map Summary.solved).sum
                  ∧ whole.contradictions = (parts.map Summary.contradictions).sum
                  ∧ whole.exhausted = (parts.map Summary.exhausted).sum := by
  obtain ⟨records, hrecords, -⟩ := exists_mapM_shown (Job.runOf settings) (fun _ => ()) (fun _ => ())
    fun j hj => (hjobs j hj).imp fun _ hr => ⟨hr, rfl⟩
  have hrun : ∀ {j r}, Job.runOf settings j = .ok r →
      r.Conclusive ∧ r.name = j.problem.name ∧ r.seed = j.seed := by
    intro j r hr
    obtain ⟨setup, -, hr⟩ := exists_of_bind_eq_ok hr
    exact Job.conclusive_of_run hr
  have hconclusive : ∀ r ∈ records, r.Conclusive :=
    forall_mem_of_mapM_eq_ok (fun hr => (hrun hr).1) hrecords
  refine ⟨records, (runBatch_eq hworkers hjobs).trans hrecords, ?_, ?_, ?_⟩
  · rw [← (forall₂_of_mapM_eq_ok hrecords).length_eq, length_jobs]
  · intro i p hp k seed hseed
    obtain ⟨r, hplace, hr⟩ := exists_getElem?_of_mapM_eq_ok hrecords (getElem?_jobs hp hseed)
    exact ⟨r, hplace, hr, (hrun hr).2⟩
  · rintro timed rfl
    have hitems : ∀ record ∈ Record.items timed, IsRecord record ∧ overflows record = false := by
      intro record hmem
      obtain ⟨⟨r, times⟩, hr, rfl⟩ := List.mem_map.1 hmem
      exact ⟨r.isRecord_toJson times,
        (hconclusive r (List.mem_map_of_mem hr)).overflows_toJson times⟩
    obtain ⟨total, htotal, hcounts⟩ := exists_summarize hitems
    have houtcomes := Record.countP_outcomes hconclusive
    simp only [Summary.counts, countsOf, Record.countP_items, Prod.mk.injEq] at hcounts
    obtain ⟨hruns, hsolved, hcontradictions, hexhausted⟩ := hcounts
    have hlength : total.runs = (timed.map Prod.fst).length := by
      rw [hruns, Record.items, List.length_map, List.length_map]
    rw [← Record.countP_solved hconclusive] at hsolved
    refine ⟨total, htotal, hlength, hsolved, ?_, ?_, fun files hfiles => ?_⟩
    · rw [BatchCommand.solvedLine, hsolved, hlength]
    · rw [hsolved, hcontradictions, hexhausted, hlength, Record.countP_solved hconclusive]
      exact houtcomes
    · exact exists_summarize_flatten fun record hmem => hitems record (hfiles.mem_iff.1 hmem)

/-- Two problems are run with two seeds each. The first one is solved with both of them, once with a
flip, and the clauses of the second one refute each other. -/
theorem runBatch_summarized_of_four :
    let problems : List Problem := [⟨.str "wide", .int 2, .arr [.arr [.int 1, .int 2]]⟩,
      ⟨.str "refuted", .int 1, .arr [.arr [.int 1], .arr [.int (-1)]]⟩]
    let seeds : List Json := [.int 7, .int 8]
    let settings : Json := .obj [("noise", .int 1), ("record_trace", .bool true)]
    checkWorkers (.int 4) = .ok () ∧ (∀ j ∈ jobs problems seeds, ∃ r, j.runOf settings = .ok r)
      ∧ ∃ records total, runBatch problems (.arr seeds) settings (.int 4) = .ok records
        ∧ summarize (Record.items (records.map fun r => (r, .null))) = .ok total
        ∧ records.map (fun r => r.stats.counters.flips) = [1, 0, 0, 0]
        ∧ (∃ r, records[1 * 2 + 1]? = some r ∧ r.name = .str "refuted" ∧ r.seed = .int 8)
        ∧ total.runs = 4 ∧ total.solved = 2 ∧ total.contradictions + total.exhausted = 2 := by
  intro problems seeds settings
  have hjobs : ∀ j ∈ jobs problems seeds, ∃ r, j.runOf settings = .ok r := by
    have hall : ((jobs problems seeds).all fun j => (j.runOf settings).toOption.isSome) = true := by
      subst settings seeds problems
      decide +kernel
    intro j hj
    obtain ⟨r, hr⟩ := Option.isSome_iff_exists.1 (List.all_eq_true.1 hall j hj)
    exact ⟨r, eq_ok_of_toOption hr⟩
  have hworkers : checkWorkers (.int 4) = .ok () := rfl
  obtain ⟨records, hrecords, hlength, hplaces, hsummary⟩ :=
    runBatch_summarized hworkers hjobs
  obtain ⟨total, htotal, hruns, hsolved, -, hsum, -⟩ :=
    hsummary (records.map fun r => (r, .null)) (by rw [List.map_map]; exact List.map_id records)
  have hran : (runBatch problems (.arr seeds) settings (.int 4)).toOption.map
      (fun records => records.map fun r => (r.solved, r.stats.counters.flips))
      = some [(true, 1), (true, 0), (false, 0), (false, 0)] := by
    subst settings seeds problems
    decide +kernel
  rw [hrecords] at hran
  have hran : records.map (fun r => (r.solved, r.stats.counters.flips))
      = [(true, 1), (true, 0), (false, 0), (false, 0)] := Option.some.inj hran
  have hfour : total.runs = 4 := hruns.trans hlength
  have htwo : total.solved = 2 := by
    have hcount := congrArg (List.countP Prod.fst) hran
    rw [List.countP_map] at hcount
    exact hsolved.trans hcount
  have hflips := congrArg (List.map Prod.snd) hran
  rw [List.map_map] at hflips
  obtain ⟨r, hr, -, hname, hseed⟩ := hplaces 1 _ rfl 1 _ rfl
  exact ⟨hworkers, hjobs, records, total, hrecords, htotal, hflips, ⟨r, hr, hname, hseed⟩, hfour, htwo,
    by omega⟩

end LocalSat
