/-
On planted formulas only the search can fail.

* `Ready.answer`: clauses that have a model are not refuted; `Planted.Fits.exists_model`: planted
  clauses have one;
* `IsPlanted.isWritable`, `Planted.Fits.ofClauses_eq`: planted clauses are read back from
  their line, with all variables;
* `plantWithin_searched`: a planted formula is read back from its line, a solver can be built for
  it, and every solve gives an assignment or gives up.
-/
import LocalSat.Proofs.Formula.Line
import LocalSat.Proofs.Planted.Formula
import LocalSat.Proofs.Session.Building
import LocalSat.Proofs.Session.Observers

namespace LocalSat

open LocalSat.Text LocalSat.Number

variable {n : Nat} {γ : Type}

/-! ### Solves -/

namespace Solver

/-- What is prepared can report, and so it can after requests that set the reports as they can be
made. -/
lemma not_reportFault_run_of_prepare [RandomSource γ] {clauses : Json}
    {options : List (String × Json)} {g : γ} {s : Solver n γ}
    (hs : prepare clauses options (new n g) = .ok () s) {rs : List (Request n)}
    (hrs : ∀ r ∈ rs, r.isReportable = true) : ∀ e, ¬(s.run rs).ReportFault e := by
  have hstart : ∀ e, ¬s.ReportFault e := fun e he =>
    not_reportFault_new n g e (he.congr ((fixes_reporting_prepare clauses options _).ok hs))
  exact run_induction (P := fun t => ∀ e, ¬t.ReportFault e)
    (fun r hr _ ht => not_reportFault_after (hrs r hr) ht) hstart

/-- Clauses that have a model are not refuted. -/
lemma Ready.answer [RandomSource γ] {s t : Solver n γ} {cs : Array (Clause n)} (h : s.Ready cs)
    {a : Assignment n} (ha : a.Satisfies cs.toList) {status : Status}
    (ht : solve s = .ok status t) : status = .satisfied ∨ status = .exhausted := by
  have hanswered : t.Answered status :=
    (leads_solve (faultsWithin_true γ) h.settled h.faithful).ok ht
  cases status with
  | satisfied => exact .inl rfl
  | exhausted => exact .inr rfl
  | undefined => exact hanswered.elim
  | contradiction =>
      have hp : s.Propagates t := (propagates_solve s).ok ht
      have hok : t.ok = false := (leads_solve_contradiction s).ok ht rfl
      refine absurd ⟨?_, by simp⟩ ((h.faithful.propagates hp).unsatisfiable hok a)
      rwa [hp.added, h.added]

end Solver

open Solver

/-! ### Planted formulas -/

/-- A planted clause can be written on a line and read back. -/
lemma IsPlanted.isWritable {hidden : Array Bool} {size : Nat} {c : List Int}
    (h : IsPlanted hidden size c) (hsize : 1 ≤ size) (hhidden : hidden.size ≤ memoryLimit) :
    IsWritable c where
  ne_nil := by
    rintro rfl
    have hlength : 0 = size := h.length
    omega
  ne_zero l hl := by
    have hrange := h.range l hl
    omega
  digits l hl := by
    have hrange := h.range l hl
    exact length_natText_le_digitLimit (by omega)

/-- The variables that a planted formula names are all that there are. -/
lemma Planted.Fits.ofClauses_eq {p : Planted} {varCount count size : Nat}
    (h : p.Fits varCount count size) (hvars : 1 ≤ varCount) :
    Formula.ofClauses p.clauses = ⟨varCount, p.clauses⟩ := by
  rw [Formula.ofClauses, largestVariable_eq (fun c hc l hl => ?_)
    (h.covers varCount hvars (Nat.le_refl _))]
  have hhidden : p.hidden.toArray.size = varCount := h.hidden
  exact hhidden ▸ ((h.planted c hc).range l hl).2

/-- A planted formula can be added to a solver, and its hidden assignment is one of the variables
of this solver. -/
lemma Planted.Fits.exists_model {p : Planted} {varCount count size : Nat}
    (h : p.Fits varCount count size) :
    ∃ (ds : List (Clause varCount)) (a : Assignment varCount),
      (p.clauses.map fun c => .arr (c.map Json.int)).mapM (readClause varCount) = .ok ds
        ∧ ds.map Clause.toInts = p.clauses ∧ a.Satisfies ds := by
  have hhidden : p.hidden.toArray.size = varCount := h.hidden
  have hliterals : ∀ c ∈ p.clauses, ∀ l ∈ c, l ≠ 0 ∧ l.natAbs ≤ varCount := by
    intro c hc l hl
    have hrange := (h.planted c hc).range l hl
    omega
  obtain ⟨ds, hds, hints⟩ := exists_readClauses hliterals
  refine ⟨ds, ⟨p.hidden.toArray, hhidden⟩, hds, hints, (isSatisfied_toInts _ ds).1 ?_⟩
  rw [hints]
  exact List.all_eq_true.2 fun c hc => (h.planted c hc).holds

/-- A formula that is made within the limits of a machine is one without these limits. -/
lemma plant_of_plantWithin [Sampler γ] {varCount : Nat} {clauses size : Int} {g g' : γ}
    {p : Planted} (h : plantWithin varCount clauses size g = .ok p g') :
    plant varCount clauses size g = .ok p g' ∧ varCount ≤ memoryLimit := by
  rw [plantWithin] at h
  cases hplan : checkPlan varCount size with
  | error e =>
      rw [hplan] at h
      cases h
  | ok u =>
      rw [hplan] at h
      refine ⟨h, ?_⟩
      rw [checkPlan, checkWords] at hplan
      split_ifs at hplan
      all_goals cases hplan
      omega

/-- **On a planted formula only the search can fail.** Let a formula be made within the limits of
a machine, for at least as many variables as there are literals in a clause, and at least one. Then
it is read back from its line: with exactly its clauses, and with all variables, since each of them
occurs. The line is not blank, so that as the line of a text it is read as well. A solver can be
built for the formula with every seed and with all options that can be set, and there may be no
options. Whatever the source, the options, and what was asked before, except for literals made true
by hand or more clauses, a solve then does not find that the clauses are refuted: its answer is that
an assignment was found or that the flips were used up. With a lawful source that is what every
solve answers, if reports can be made, and with the generator the first one. -/
theorem plantWithin_searched [Sampler γ] {E : Fault → Prop} (hE : SamplesWithin γ E)
    {varCount size : Nat} (clauses : Int) (hsize : 1 ≤ size) (hvars : size ≤ varCount) (g : γ) :
    ∀ p g', plantWithin varCount clauses size g = .ok p g' →
      readLine (lineChars p.clauses) = .ok ⟨varCount, p.clauses⟩
      ∧ strip (lineChars p.clauses) ≠ []
      ∧ Problem.readLines (lineText p.clauses ++ "\n")
        = .ok [(Problem.lineName 0, ⟨varCount, p.clauses⟩)]
      ∧ (∀ (setup : Setup) (seed : Json) (value : Nat) (s : Solver varCount Pcg64),
          seedOf .floatSeed seed = .ok value →
          prepare (.arr []) setup.options (new varCount (Pcg64.ofSeed value)) = .ok () s →
          ∃ t : Solver varCount Pcg64,
            setup.build (.int varCount) (clausesJson p.clauses) seed = .ok ⟨varCount, t⟩
            ∧ ∀ level : Numeral, ∃ status u,
              solve { t with verbosity := some level } = .ok status u
              ∧ (status = .satisfied ∨ status = .exhausted))
      ∧ ∀ (δ : Type) [RandomSource δ] (h : δ) (options : List (String × Json))
          (s : Solver varCount δ), prepare (.arr []) options (new varCount h) = .ok () s →
          ∃ t : Solver varCount δ,
            prepare (clausesJson p.clauses) options (new varCount h) = .ok () t
            ∧ t.added.toList.map Clause.toInts = p.clauses
            ∧ ∀ later : List (Request varCount), (∀ r ∈ later, r.isRunning = true) →
              (∀ status u, solve (t.run later) = .ok status u →
                status = .satisfied ∨ status = .exhausted)
              ∧ (LawfulSource δ → (∀ r ∈ later, r.isReportable = true) →
                ∃ status u, solve (t.run later) = .ok status u) := by
  intro p g' hp
  obtain ⟨hplant, hlimit⟩ := plant_of_plantWithin hp
  have hfits : p.Fits varCount clauses.toNat size :=
    ((leads_plant hE clauses hsize hvars g).ok hplant).2
  have hhidden : p.hidden.toArray.size = varCount := hfits.hidden
  have hwritable : ∀ c ∈ p.clauses, IsWritable c := fun c hc =>
    (hfits.planted c hc).isWritable hsize (hhidden.trans_le hlimit)
  have hofClauses := hfits.ofClauses_eq (by omega)
  have hne : p.clauses ≠ [] := by
    obtain ⟨c, hc, -⟩ := hfits.covers 1 (Nat.le_refl 1) (by omega)
    exact List.ne_nil_of_mem hc
  obtain ⟨ds, a, hds, hints, ha⟩ := hfits.exists_model
  refine ⟨?_, ?_, ?_, fun setup seed value s hseed hs => ?_, fun δ _ h options s hs => ?_⟩
  · rw [readLine_lineChars hwritable, hofClauses]
  · rw [strip_lineChars hwritable]
    exact lineChars_ne_nil hwritable hne
  · have hall : ∀ cs ∈ [p.clauses], cs ≠ [] ∧ ∀ c ∈ cs, IsWritable c := by
      simpa using ⟨hne, hwritable⟩
    simpa [hofClauses, String.join] using readLines_lineTexts hall
  · have ht := Setup.build_of_read (by omega) hlimit hds hseed hs
    have hprepare := prepare_of_read hds hs
    have hready := ready_of_prepare hds hprepare
    refine ⟨s.withClauses ds, ht, fun level => ?_⟩
    obtain ⟨status, u, hu, -⟩ := exists_solve_of_prepare hlimit hprepare level
    have hready' : Ready { s.withClauses ds with verbosity := some level } ds.toArray :=
      hready.propagates (.of_known rfl) (hready.settled.of_known rfl)
    exact ⟨status, u, hu, hready'.answer ha hu⟩
  · have ht := prepare_of_read hds hs
    have hready := ready_of_prepare hds ht
    refine ⟨s.withClauses ds, ht, ?_, fun later hlater => ?_⟩
    · rw [hready.added]
      exact hints
    have hrun : ((s.withClauses ds).run later).Ready ds.toArray :=
      run_induction (P := fun t => t.Ready ds.toArray)
        (fun r hr _ ht => ready_after ht (hlater r hr)) hready
    refine ⟨fun status u hu => hrun.answer ha hu, fun hlawful hreport => ?_⟩
    obtain ⟨status, u, hu, -⟩ := exists_solve_of_sound (hrun.settled.sound hrun.faithful)
      (not_reportFault_run_of_prepare ht hreport)
    exact ⟨status, u, hu⟩

/-- Three clauses of two literals that a tape has made out of three variables are read back from
their line, and after a simplification and a solve, a second solve does not refute them. -/
theorem plantWithin_searched_of_three :
    let later : List (Request 3) := [.simplify, .setReport (some (.int 2)) (some (.int 1)), .solve]
    SamplesWithin Tape (fun _ => False) ∧ 1 ≤ 2 ∧ 2 ≤ 3 ∧ (∀ r ∈ later, r.isRunning = true)
      ∧ (∀ r ∈ later, r.isReportable = true)
      ∧ ∃ p g', plantWithin 3 3 2 Tape.zero = .ok p g'
        ∧ readLine (lineChars p.clauses) = .ok ⟨3, p.clauses⟩
        ∧ ∃ t : Solver 3 Tape, prepare (clausesJson p.clauses) [("zero-break-first", .bool true)]
            (new 3 Tape.zero) = .ok () t
          ∧ ∃ status u, solve (t.run later) = .ok status u
            ∧ (status = .satisfied ∨ status = .exhausted) := by
  intro later
  have hE := samplesWithin_of_lawful Tape
  have hlater : ∀ r ∈ later, r.isRunning = true := by
    simp [later, Request.isRunning, Request.isQuiet]
  have hreport : ∀ r ∈ later, r.isReportable = true := by decide +kernel
  refine ⟨hE, by decide, by decide, hlater, hreport, ?_⟩
  have hplan : checkPlan 3 2 = .ok () := rfl
  have hplant := leads_plant hE 3 (by decide : 1 ≤ 2) (by decide : 2 ≤ 3) Tape.zero
  obtain ⟨p, g', hp⟩ : ∃ p g', plantWithin 3 3 2 Tape.zero = .ok p g' := by
    rw [plantWithin, hplan]
    cases hrun : plant 3 3 2 Tape.zero with
    | ok p g' => exact ⟨p, g', hrun⟩
    | error e g' => exact absurd ((hplant.error hrun).resolve_left id).2 (by decide)
  obtain ⟨hread, -, -, -, hsolve⟩ :=
    plantWithin_searched hE 3 (by decide : 1 ≤ 2) (by decide : 2 ≤ 3) Tape.zero p g' hp
  obtain ⟨t, ht, -, hanswers⟩ :=
    hsolve Tape Tape.zero [("zero-break-first", .bool true)] _ rfl
  obtain ⟨hanswer, hends⟩ := hanswers later hlater
  obtain ⟨status, u, hu⟩ := hends inferInstance hreport
  exact ⟨p, g', hp, hread, t, ht, status, u, hu, hanswer status u hu⟩

end LocalSat
