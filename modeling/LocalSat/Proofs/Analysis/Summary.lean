/-
Summaries of records.

* `IsRecord`: an object whose statistics may be missing; `statsOf`: its statistics, which are empty
  then; `isOutcome`: whether its run had a given outcome;
* `finite?`: the finite number that a value is read as; `isBeyondFloats`: whether it is an integer
  beyond all floats, which is read as none; `readMetric_eq_ok`, `readMetric_eq_error`: how the
  number under a name is read;
* `overflows`: whether a run was solved with a number of flips beyond all floats;
* `add_eq`: what a record adds to runs; `Tallies`: what runs count of records, and `Tallies.add`:
  what they count of one more; `tallies_ofRecords`, `ofRecords_eq_error`: all records are counted,
  unless one of them overflows;
* `summarize_records`: the summary of records, and when there is none.
-/
import LocalSat.Analysis.Summary
import LocalSat.Proofs.Except
import LocalSat.Proofs.Number.Dyadic
import LocalSat.Solver.State
import Mathlib.Data.List.Induction

namespace LocalSat.Analysis

open LocalSat.Number

/-! ### Records -/

/-- An object whose statistics are missing, count as false or are an object. -/
def IsRecord (record : Json) : Prop :=
  ∃ fields, record = .obj fields ∧ ∀ value, record.get? "walksat_stats" = some value →
    value.isTruthy = true → ∃ stats, value = .obj stats

/-- The statistics of a record, which are empty unless they are an object. -/
def statsOf (record : Json) : Json :=
  match record.get? "walksat_stats" with
  | some (.obj stats) => .obj stats
  | _ => .obj []

/-- Whether the run of a record has a given outcome. -/
def isOutcome (status : Status) (record : Json) : Bool :=
  match (statsOf record).get? "status" with
  | some (.str s) => s = .plain status.text
  | _ => false

/-- The statistics of a record can be had. -/
lemma statistics_eq {record : Json} (h : IsRecord record) :
    statistics record = .ok (statsOf record) := by
  obtain ⟨fields, rfl, hstats⟩ := h
  rw [statistics, statsOf]
  cases hvalue : (Json.obj fields).get? "walksat_stats" with
  | none => rfl
  | some value =>
      cases htruthy : value.isTruthy with
      | true =>
          obtain ⟨stats, rfl⟩ := hstats value hvalue htruthy
          rfl
      | false => cases value <;> simp_all

/-! ### Numbers under names -/

/-- The finite number that a value is read as. Truth values are no numbers here. -/
def finite? : Json → Option Float
  | .null => none
  | .bool _ => none
  | value => value.toFloat.toOption.filter Float.isFinite

/-- Whether a value is an integer beyond all floats. -/
def isBeyondFloats : Json → Bool
  | .int i => twoPow 1024 - twoPow 970 ≤ i.natAbs
  | _ => false

/-- A finite float stands for itself. -/
lemma finite?_float {x : Float} (hx : x.isFinite = true) : finite? (.float x) = some x := by
  simp [finite?, Json.toFloat, Except.toOption, hx]

/-- An integer is read as a float unless it lies beyond all of them, and no other value is said to
lie there. -/
lemma toFloat_eq_beyondFloats_iff (value : Json) :
    value.toFloat = .error .beyondFloats ↔ isBeyondFloats value = true := by
  cases value with
  | int i =>
      rw [isBeyondFloats, decide_eq_true_iff, ← ofInt?_eq_none_iff, Json.toFloat]
      cases ofInt? i <;> simp
  | null | bool | float | arr | obj => simp [Json.toFloat, isBeyondFloats]
  | str s =>
      cases s with
      | plain s => 
          simp only [Json.toFloat, isBeyondFloats]
          cases readFloat? s.toList <;> simp
      | halved => simp [Json.toFloat, isBeyondFloats]
  | bytes content =>
      simp only [Json.toFloat, isBeyondFloats]
      cases readFloat? (Json.spelled content) <;> simp

/-- An integer beyond all floats is a failure. -/
lemma finiteNumber_eq_error {value : Json} (h : isBeyondFloats value = true) :
    finiteNumber value = .error .beyondFloats := by
  cases value with
  | int i => rw [finiteNumber, (toFloat_eq_beyondFloats_iff _).2 h] <;> simp
  | null | bool | float | str | bytes | arr | obj => cases h

/-- Any other value is read as the finite number that it stands for, if it stands for one. -/
lemma finiteNumber_eq_ok {value : Json} (h : isBeyondFloats value = false) :
    finiteNumber value = .ok (finite? value) := by
  have hne : value.toFloat ≠ .error .beyondFloats := by
    rw [Ne, toFloat_eq_beyondFloats_iff, h]
    exact Bool.false_ne_true
  cases value with
  | null | bool => rfl
  | int | float | str | bytes | arr | obj =>
      simp only [finiteNumber, finite?]
      generalize Json.toFloat _ = result at hne ⊢
      cases result with
      | ok x => rfl
      | error e =>
          split
          · next he => cases he
          · next he => exact absurd he hne
          · rfl

/-- So is the value under a name. -/
lemma readMetric_eq_error {block : Json} {name : JsonString}
    (h : (block.get? name).any isBeyondFloats = true) :
    readMetric block name = .error .beyondFloats := by
  obtain ⟨value, hvalue, hbeyond⟩ := (Option.any_eq_true _ _).1 h
  rw [readMetric, hvalue]
  exact finiteNumber_eq_error hbeyond

lemma readMetric_eq_ok {block : Json} {name : JsonString}
    (h : (block.get? name).any isBeyondFloats = false) :
    readMetric block name = .ok ((block.get? name).bind finite?) := by
  rw [readMetric]
  cases hvalue : block.get? name with
  | none => rfl
  | some value =>
      rw [hvalue] at h
      exact finiteNumber_eq_ok h

/-! ### Counting -/

/-- The readable number of flips of a record. -/
def flipsOf (record : Json) : Option Float := ((statsOf record).get? "flips").bind finite?

/-- Whether a record is of a solved run, with a number of flips that is beyond all floats. -/
def overflows (record : Json) : Bool :=
  isOutcome .satisfied record && ((statsOf record).get? "flips").any isBeyondFloats

/-- What runs count of records. -/
structure Tallies (r : Runs) (records : List Json) : Prop where
  /-- Those that found an assignment are counted. -/
  solved : r.solved = records.countP (isOutcome .satisfied)
  /-- So are those whose clauses were refuted. -/
  contradictions : r.contradictions = records.countP (isOutcome .contradiction)
  /-- So are those that used up their flips. -/
  exhausted : r.exhausted = records.countP (isOutcome .exhausted)
  /-- The readable flips of the solved ones are kept, in order. -/
  flips : r.flips.toList = (records.filter (isOutcome .satisfied)).filterMap flipsOf
  /-- No record is counted twice. -/
  le_length : r.solved + r.contradictions + r.exhausted ≤ records.length

section

variable {r : Runs} {record : Json} {records : List Json}

/-- The outcome of a record is the word in its statistics. -/
lemma isOutcome_iff {status : Status} :
    isOutcome status record = true
      ↔ (statsOf record).get? "status" = some (.str (.plain status.text)) := by
  rw [isOutcome]
  split
  · next s hs => simp [hs]
  · next hne =>
    refine iff_of_false Bool.false_ne_true fun hs => ?_
    exact hne _ hs

/-- A record has one outcome. -/
lemma isOutcome_eq_false {status : Status} (h : isOutcome status record = true) (other : Status)
    (hne : status.text ≠ other.text) : isOutcome other record = false := by
  rw [isOutcome_iff] at h
  rw [← Bool.not_eq_true, isOutcome_iff, h]
  simpa using hne

/-- A record adds to the runs of its outcome. -/
lemma add_eq (hrecord : IsRecord record) :
    r.add record =
      if isOutcome .satisfied record = true then
        (readMetric (statsOf record) "flips").map r.addSolved
      else if isOutcome .contradiction record = true then
        .ok { r with contradictions := r.contradictions + 1 }
      else if isOutcome .exhausted record = true then .ok { r with exhausted := r.exhausted + 1 }
      else .ok r := by
  rw [Runs.add, statistics_eq hrecord]
  simp only [bind, Except.bind]
  split
  · next hs => exact (if_pos (isOutcome_iff.2 hs)).symm
  · next hc =>
    have hc : isOutcome .contradiction record = true := isOutcome_iff.2 hc
    have hs := isOutcome_eq_false hc .satisfied (by decide)
    rw [if_neg (ne_true_of_eq_false hs), if_pos hc]
    rfl
  · next he =>
    have he : isOutcome .exhausted record = true := isOutcome_iff.2 he
    have hs := isOutcome_eq_false he .satisfied (by decide)
    have hc := isOutcome_eq_false he .contradiction (by decide)
    rw [if_neg (ne_true_of_eq_false hs), if_neg (ne_true_of_eq_false hc), if_pos he]
    rfl
  · next hs hc he =>
    rw [if_neg (mt isOutcome_iff.1 hs), if_neg (mt isOutcome_iff.1 hc),
      if_neg (mt isOutcome_iff.1 he)]
    rfl

/-- The flips of a solved run are kept, if they are readable. -/
lemma toList_addSolved (flips : Option Float) :
    (r.addSolved flips).flips.toList = r.flips.toList ++ flips.toList := by
  cases flips <;> simp [Runs.addSolved]

/-- One more record is counted by its outcome, unless it has too many flips. -/
lemma Tallies.add (ht : Tallies r records) (hrecord : IsRecord record)
    (hflips : overflows record = false) :
    ∃ r', r.add record = .ok r' ∧ Tallies r' (records ++ [record]) := by
  obtain ⟨hsolved, hcontradictions, hexhausted, hkept, hle⟩ := ht
  rw [add_eq hrecord]
  split_ifs with hs hc he
  · have hc := isOutcome_eq_false hs .contradiction (by decide)
    have he := isOutcome_eq_false hs .exhausted (by decide)
    rw [overflows, hs, Bool.true_and] at hflips
    have hadded : (r.addSolved (flipsOf record)).flips.toList
        = ((records ++ [record]).filter (isOutcome .satisfied)).filterMap flipsOf := by
      rw [toList_addSolved, hkept, List.filter_append, List.filterMap_append,
        List.filter_cons_of_pos hs, List.filter_nil]
      cases hvalue : flipsOf record <;> simp [hvalue]
    refine ⟨_, congrArg _ (readMetric_eq_ok hflips), ?_, ?_, ?_, hadded, ?_⟩
    · simp [Runs.addSolved, hsolved, hs]
    · simp [Runs.addSolved, hcontradictions, hc]
    · simp [Runs.addSolved, hexhausted, he]
    · simp only [Runs.addSolved, List.length_append, List.length_singleton]
      omega
  · have he := isOutcome_eq_false hc .exhausted (by decide)
    refine ⟨_, rfl, ?_, ?_, ?_, ?_, ?_⟩ <;> simp [*]
    omega
  · refine ⟨_, rfl, ?_, ?_, ?_, ?_, ?_⟩ <;> simp [*]
    omega
  · refine ⟨_, rfl, ?_, ?_, ?_, ?_, ?_⟩ <;> simp [*]
    omega

/-- A solved run with too many flips is a failure. -/
lemma add_eq_error (hrecord : IsRecord record) (hflips : overflows record = true) :
    r.add record = .error .beyondFloats := by
  obtain ⟨hsolved, hbeyond⟩ := Bool.and_eq_true_iff.1 hflips
  rw [add_eq hrecord, if_pos hsolved, readMetric_eq_error hbeyond]
  rfl

/-- The last record is counted after the others. -/
lemma ofRecords_append :
    Runs.ofRecords (records ++ [record]) = Runs.ofRecords records >>= fun r => r.add record := by
  rw [Runs.ofRecords, List.foldlM_append]
  simp only [List.foldlM_cons, List.foldlM_nil, bind_pure]
  rfl

/-- The runs of the records are counted, if none of them has too many flips. -/
lemma tallies_ofRecords (hrecords : ∀ record ∈ records, IsRecord record)
    (hflips : ∀ record ∈ records, overflows record = false) :
    ∃ r, Runs.ofRecords records = .ok r ∧ Tallies r records := by
  induction records using List.reverseRecOn with
  | nil => exact ⟨Runs.none, rfl, rfl, rfl, rfl, rfl, Nat.le_refl 0⟩
  | append_singleton records record ih =>
      simp only [List.forall_mem_append, List.forall_mem_singleton] at hrecords hflips
      obtain ⟨r, hr, ht⟩ := ih hrecords.1 hflips.1
      obtain ⟨r', hr', ht'⟩ := ht.add hrecords.2 hflips.2
      refine ⟨r', ?_, ht'⟩
      rw [ofRecords_append, hr]
      exact hr'

/-- The first record that has too many flips is a failure. -/
lemma ofRecords_eq_error (hrecords : ∀ record ∈ records, IsRecord record)
    (hflips : ∃ record ∈ records, overflows record = true) :
    Runs.ofRecords records = .error .beyondFloats := by
  induction records using List.reverseRecOn with
  | nil =>
      obtain ⟨_, hmem, _⟩ := hflips
      cases hmem
  | append_singleton records record ih =>
      simp only [List.forall_mem_append, List.forall_mem_singleton] at hrecords
      rw [ofRecords_append]
      by_cases hearlier : ∃ record ∈ records, overflows record = true
      · rw [ih hrecords.1 hearlier]
        rfl
      · -- the last record is the one with too many flips
        push Not at hearlier
        simp only [Bool.not_eq_true] at hearlier
        obtain ⟨r, hr, -⟩ := tallies_ofRecords hrecords.1 hearlier
        obtain ⟨last, hlast, hover⟩ := hflips
        rcases List.mem_append.1 hlast with hmem | hmem
        · rw [hearlier last hmem] at hover
          cases hover
        · rw [hr, ← List.mem_singleton.1 hmem]
          exact add_eq_error (List.mem_singleton.1 hmem ▸ hrecords.2) hover

end

/-! ### The summary of records -/

/-- A number under a name is read as the finite number that stands there, if there is one, and the
summary counts every record and averages the readable flips of the solved ones. Both fail exactly if
such a number is an integer beyond all floats, and with this fault. -/
theorem summarize_records {records : List Json} (h : ∀ record ∈ records, IsRecord record) :
    (∀ block name, readMetric block name
        = if (block.get? name).any isBeyondFloats then .error .beyondFloats
          else .ok ((block.get? name).bind finite?))
      ∧ (∀ fault, summarize records = .error fault
        ↔ fault = .beyondFloats ∧ ∃ record ∈ records, overflows record = true)
      ∧ ∀ summary, summarize records = .ok summary →
        summary.runs = records.length
          ∧ summary.solved = records.countP (isOutcome .satisfied)
          ∧ summary.contradictions = records.countP (isOutcome .contradiction)
          ∧ summary.exhausted = records.countP (isOutcome .exhausted)
          ∧ summary.solved + summary.contradictions + summary.exhausted ≤ summary.runs
          ∧ summary.successRate
            = (if summary.runs = 0 then none else some (nearest false summary.solved summary.runs))
          ∧ summary.flipsMedian
            = median ((records.filter (isOutcome .satisfied)).filterMap flipsOf)
          ∧ summary.flipsMean
            = mean ((records.filter (isOutcome .satisfied)).filterMap flipsOf) := by
  refine ⟨fun block name => ?_, ?_⟩
  · split
    · next hbeyond => exact readMetric_eq_error hbeyond
    · next hbeyond => exact readMetric_eq_ok (Bool.not_eq_true _ ▸ hbeyond)
  by_cases hflips : ∃ record ∈ records, overflows record = true
  · have hfail : summarize records = .error .beyondFloats := by
      rw [summarize, ofRecords_eq_error h hflips]
      rfl
    rw [hfail]
    refine ⟨fun fault => ?_, fun summary hsummary => by cases hsummary⟩
    rw [Except.error.injEq, eq_comm, and_iff_left hflips]
  · have hnone : ∀ record ∈ records, overflows record = false := by simpa using hflips
    obtain ⟨r, hr, ht⟩ := tallies_ofRecords h hnone
    have hdone : summarize records = .ok (r.summary records.length) := by
      rw [summarize, hr]
      rfl
    rw [hdone]
    refine ⟨fun fault => iff_of_false (by simp) fun hfault => hflips hfault.2, ?_⟩
    rintro summary ⟨⟩
    refine ⟨rfl, ht.solved, ht.contradictions, ht.exhausted, ht.le_length, rfl, ?_, ?_⟩
    · rw [← ht.flips]
      rfl
    · rw [← ht.flips]
      rfl

/-- A record of a run with a status and a number of flips. -/
def recordOf (status : Status) (flips : Json) : Json :=
  .obj [("walksat_stats", .obj [("status", .str (.plain status.text)), ("flips", flips)])]

/-- Such a record has statistics. -/
lemma isRecord_recordOf (status : Status) (flips : Json) : IsRecord (recordOf status flips) :=
  ⟨_, rfl, fun _ hvalue _ => ⟨_, (Option.some.inj hvalue).symm⟩⟩

/-- Flips beyond all floats are too many for a solved one. -/
lemma overflows_recordOf (flips : Json) :
    overflows (recordOf .satisfied flips) = isBeyondFloats flips := rfl

/-- Of five runs only the third has readable flips, and the last one has no statistics; all of them
are counted. -/
theorem summarize_records_of_unreadable :
    ∃ summary,
      summarize [recordOf .satisfied (.bool true), recordOf .satisfied (.arr [.int 1]),
          recordOf .satisfied (.float 7), recordOf .exhausted .null, .obj []] = .ok summary
        ∧ summary.runs = 5 ∧ summary.solved = 3 ∧ summary.exhausted = 1
        ∧ summary.flipsMean = mean [7] := by
  have hempty : IsRecord (.obj []) := ⟨[], rfl, fun _ hvalue => by cases hvalue⟩
  have hrecords : ∀ record ∈ [recordOf .satisfied (.bool true), recordOf .satisfied (.arr [.int 1]),
      recordOf .satisfied (.float 7), recordOf .exhausted .null, .obj []], IsRecord record := by
    simp [isRecord_recordOf, hempty]
  obtain ⟨-, hfault, hcounts⟩ := summarize_records hrecords
  generalize summarize _ = result at hfault hcounts ⊢
  cases result with
  | error fault =>
      obtain ⟨-, record, hmem, hover⟩ := (hfault fault).1 rfl
      simp only [List.mem_cons, List.not_mem_nil, or_false] at hmem
      rcases hmem with rfl | rfl | rfl | rfl | rfl <;> cases hover
  | ok summary =>
      obtain ⟨hruns, hsolved, -, hexhausted, -, -, -, hmean⟩ := hcounts summary rfl
      have hfinite : finite? (.float 7) = some 7 := finite?_float (by decide +kernel)
      refine ⟨summary, rfl, hruns, hsolved, hexhausted, hmean.trans ?_⟩
      change mean ([none, none, finite? (.float 7)].filterMap id) = mean [7]
      rw [hfinite]
      rfl

/-- A solved run whose number of flips is the next power of two after the largest float is a
failure, although its statistics are there. -/
theorem summarize_huge_flips :
    IsRecord (recordOf .satisfied (.int (twoPow 1024)))
      ∧ summarize [recordOf .satisfied (.int (twoPow 1024))] = .error .beyondFloats := by
  have hrecord := isRecord_recordOf .satisfied (.int (twoPow 1024))
  have hbeyond : isBeyondFloats (.int (twoPow 1024)) = true := by
    rw [isBeyondFloats, decide_eq_true_iff, Int.natAbs_natCast]
    generalize twoPow 1024 = flips
    exact Nat.sub_le _ _
  rw [← overflows_recordOf] at hbeyond
  refine ⟨hrecord, ?_⟩
  rw [summarize, ofRecords_eq_error (List.forall_mem_singleton.2 hrecord)
    ⟨_, List.mem_singleton_self _, hbeyond⟩]
  rfl

end LocalSat.Analysis
