/-
The record of a solve describes its search.

* `PartialAssignment.falsified`: the number of clauses that the checker finds without a true
  literal; `falsified_toInts`: for assignments this is the number that the search keeps;
* `Account.isLeast_replay`: the smallest number of clauses without a true literal is the
  smallest one over the replays of all prefixes of the record;
* `solve_record`: the record, the numbers of flips and the answer of a solve agree with a
  replay of the record and with the checker.
-/
import LocalSat.Proofs.Random.Tape
import LocalSat.Proofs.Session.Basic
import LocalSat.Proofs.Solver.Account
import LocalSat.Proofs.Trace.Replay

namespace LocalSat

variable {n : Nat} {γ : Type}

/-- The number of clauses that the checker finds without a true literal. -/
def PartialAssignment.falsified (a : PartialAssignment) (clauses : List (List Int)) : Nat :=
  clauses.countP fun c => !a.isSatisfied [c]

/-- The checker finds the clauses without a true literal. -/
lemma Assignment.falsified_toInts (a : Assignment n) (clauses : List (Clause n)) :
    (PartialAssignment.ofValues a.toArray).falsified (clauses.map Clause.toInts)
      = a.falsified clauses := by
  rw [PartialAssignment.falsified, List.countP_map, falsified]
  refine List.countP_congr fun c _ => ?_
  have hcheck : a.toPartial.isSatisfied [c.toInts] = c.any a.holds := by
    rw [Bool.eq_iff_iff]
    refine (isSatisfied_toInts a [c]).trans ?_
    simp [Satisfies]
  show (!a.toPartial.isSatisfied [c.toInts]) = true ↔ _
  rw [hcheck]

namespace Solver

variable [RandomSource γ] {g : γ} {a : Assignment n} {turns : List (Turn n)} {t : Solver n γ}

/-- The recorded flips are those of the turns. -/
lemma Account.map_toFlip_trace (h : Account g a turns t)
    (hrecord : t.options.recordTrace = true) :
    t.trace.toList.map Event.toFlip = flipsOf turns := by
  rw [h.trace, if_pos hrecord, List.map_map]
  rfl

/-- Every prefix of the record is replayed to the assignment after its turns. -/
lemma Account.exists_of_prefix (h : Account g a turns t) {p : List Flip}
    (hp : p <+: flipsOf turns) :
    ∃ us, us <+: turns ∧ p = flipsOf us
      ∧ replayEntries Cells.bools a.toArray (p.map Entry.ofFlip) = .ok (played a us).toArray := by
  obtain ⟨us, hus, rfl⟩ := List.prefix_map_iff.1 hp
  exact ⟨us, hus, rfl, (h.plays.of_prefix hus).replay⟩

/-- The smallest number of clauses without a true literal is the smallest one that the checker
finds after replays of prefixes of the record. -/
lemma Account.isLeast_replay (h : Account g a turns t) :
    IsLeast {k | ∃ p values, p <+: flipsOf turns
        ∧ replayEntries Cells.bools a.toArray (p.map Entry.ofFlip) = .ok values
        ∧ k = (PartialAssignment.ofValues values).falsified (t.clauses.toList.map Clause.toInts)}
      t.minUnsat := by
  obtain ⟨⟨us, hus, hattained⟩, hbound⟩ := h.least
  constructor
  · refine ⟨flipsOf us, _, hus.map _, (h.plays.of_prefix hus).replay, ?_⟩
    rw [Assignment.falsified_toInts, hattained]
  · rintro k ⟨p, values, hp, hvalues, rfl⟩
    obtain ⟨us, hus, rfl, hreplay⟩ := h.exists_of_prefix hp
    rw [hreplay] at hvalues
    cases hvalues
    rw [Assignment.falsified_toInts]
    exact hbound ⟨us, hus, rfl⟩

/-- **The record of a solve describes its search.** Let a solve with a record find an
assignment or give up. Then the replay of the record, from the assignment at the start,
succeeds and leads to the current assignment. There are as many recorded flips as were counted,
each of one of the three kinds, and counting the record gives the same numbers. The smallest
number of clauses without a true literal is the smallest one that the checker finds after a
replay of a prefix of the record, all of which succeed, and the solve has found an assignment
exactly if this is zero. -/
theorem solve_record {s t : Solver n γ} {status : Status}
    (hrecord : s.options.recordTrace = true) (h : solve s = .ok status t)
    (hstatus : status = .satisfied ∨ status = .exhausted) :
    let flips := t.trace.toList.map Event.toFlip
    let clauses := t.clauses.toList.map Clause.toInts
    ∃ a b : Assignment n, t.initial = some a ∧ t.values = some b
      ∧ replayEntries Cells.bools a.toArray (flips.map Entry.ofFlip) = .ok b.toArray
      ∧ flips.length = t.counters.flips
      ∧ t.counters.flips = t.counters.noise + t.counters.greedy + t.counters.zeroBreak
      ∧ Tally.ofEntries (flips.map Entry.ofFlip)
          = .ok ⟨t.counters.noise, t.counters.greedy, t.counters.zeroBreak⟩
      ∧ (s.options.zeroBreakFirst = false → t.counters.zeroBreak = 0)
      ∧ (∀ p, p <+: flips → ∃ values,
          replayEntries Cells.bools a.toArray (p.map Entry.ofFlip) = .ok values)
      ∧ IsLeast {k | ∃ p values, p <+: flips
            ∧ replayEntries Cells.bools a.toArray (p.map Entry.ofFlip) = .ok values
            ∧ k = (PartialAssignment.ofValues values).falsified clauses} t.minUnsat
      ∧ (status = .satisfied ↔ t.minUnsat = 0) := by
  intro flips clauses
  have hoptions : t.options = s.options := congrArg Prod.fst ((fixes_settings_solve s).ok h)
  have hne : status ≠ .contradiction := by
    rcases hstatus with rfl | rfl <;> exact Status.noConfusion
  obtain ⟨⟨a, turns, haccount⟩, hzero⟩ := (leads_solve_account s).ok h hne
  have hon : t.options.recordTrace = true := by rwa [hoptions]
  have hflips : flips = flipsOf turns := haccount.map_toFlip_trace hon
  have hcounters : t.counters = tally turns := haccount.counters
  rw [hflips, hcounters]
  refine ⟨a, played a turns, haccount.initial hon, haccount.tracked.1, haccount.plays.replay,
    List.length_map _, tally_flips turns, ofEntries_flipsOf turns, fun hoff => ?_,
    fun p hp => ?_, haccount.isLeast_replay, hzero⟩
  · refine haccount.plays.zeroBreak_eq_zero ?_
    rw [policy, hoptions]
    exact hoff
  · obtain ⟨us, -, -, hreplay⟩ := haccount.exists_of_prefix hp
    exact ⟨_, hreplay⟩

/-- Two random flips that undo each other come before two that break least. The replay of the
record ends in the assignment that is found, and the clauses were fewest without a true literal
at the end only. -/
theorem solve_record_of_detour :
    let coins : Nat → Bool := fun k => k == 2 || k == 3
    let s : Solver 2 Tape := (new 2 ⟨coins, fun _ => 0⟩).run
      [.setOption "record-trace" (.bool true), .addClause (.arr [.int 1, .int 2]),
        .addClause (.arr [.int 1, .int (-2)]), .addClause (.arr [.int (-1), .int 2])]
    let flips : List Flip := [⟨.noise, 1⟩, ⟨.noise, -1⟩, ⟨.greedy, 1⟩, ⟨.greedy, 2⟩]
    ∃ t : Solver 2 Tape, ∃ a b : Assignment 2, s.options.recordTrace = true
      ∧ solve s = .ok .satisfied t
      ∧ t.trace.toList.map Event.toFlip = flips ∧ t.initial = some a ∧ t.values = some b
      ∧ replayEntries Cells.bools a.toArray (flips.map Entry.ofFlip) = .ok b.toArray
      ∧ Tally.ofEntries (flips.map Entry.ofFlip) = .ok ⟨2, 2, 0⟩ ∧ t.minUnsat = 0 := by
  intro coins s flips
  have hrecord : s.options.recordTrace = true := by
    subst s coins
    decide +kernel
  have hrun : Leads solve s (fun status t => status = .satisfied
      ∧ t.trace.toList.map Event.toFlip = flips ∧ t.counters = ⟨4, 2, 2, 0⟩)
      fun _ _ => False := by
    subst s coins flips
    decide +kernel
  obtain ⟨status, t, ht, rfl, hflips, hcounters⟩ := hrun.exists_ok
  obtain ⟨a, b, ha, hb, hreplay, -, -, htally, -, -, -, hzero⟩ :=
    solve_record hrecord ht (.inl rfl)
  rw [hflips] at hreplay htally
  rw [hcounters] at htally
  exact ⟨t, a, b, hrecord, ht, hflips, ha, hb, hreplay, htally, hzero.1 rfl⟩

end Solver

end LocalSat
