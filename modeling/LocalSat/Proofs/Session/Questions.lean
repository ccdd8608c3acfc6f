/-
The questions that a solve asks its source.

* `opening_countP_isCoin`: before a search there is one coin for each variable without a forced
  value;
* `solve_questions`: the questions of a solve, one by one.
-/
import LocalSat.Proofs.Random.Logged
import LocalSat.Proofs.Session.Additions
import LocalSat.Proofs.Solver.Account

namespace LocalSat.Solver

variable {n : Nat} {γ : Type}

/-- All questions before a search are for coins. -/
lemma opening_countP_isCoin (f : Forced n) (a : Assignment n) :
    (opening f a).countP Reply.isCoin
      = (List.finRange n).countP fun v => (f.get v).isNone := by
  have hall : ∀ q ∈ opening f a, q.isCoin = true := by
    intro q hq
    obtain ⟨v, -, rfl⟩ := List.mem_map.1 hq
    rfl
  rw [List.countP_eq_length.2 hall, opening, List.length_map, List.countP_eq_length_filter]

variable [RandomSource γ]

/-- **The questions of a solve.** Let all clauses be added before the first simplification or
solve, and let anything else be asked in any order. A solve that finds that the clauses are
refuted asks its source nothing. Any other one first asks for one fair coin for each variable
without a forced value, in ascending order. They show the values of these variables at the
start; the others start with their forced values. Then the questions are those of the flips, in
order, each as its policy chooses it: a random flip and one that breaks least ask for the coin
with the chance of a random flip, which shows heads exactly for the former, and for one index;
one that breaks nothing and is made first asks for no coin, and for an index only among two or
more. There are no others. So there are as many coins as variables without a forced value and
flips of the first two kinds, and simplifications ask nothing. With a lawful source such a solve
ends, if the level of the report is a number and so is its interval, which is not zero. -/
theorem solve_questions [LawfulSource γ] (g : γ) (setup later : List (Request n))
    (hsetup : ∀ r ∈ setup, r.isPreparing = true) (hlater : ∀ r ∈ later, r.isFinal = true) :
    let s : Solver n (Logged γ) := ((new n (Logged.ofSource g)).run setup).run later
    (s.verbosity.isSome = true → (∃ k, s.progressInterval = some k ∧ k.isZero = false) →
        ∃ status t, solve s = .ok status t)
      ∧ (∀ u : Solver n (Logged γ), (reached (simplify u)).source = u.source)
      ∧ ∀ status t, solve s = .ok status t →
        (status = .contradiction → t.source = s.source)
        ∧ (status ≠ .contradiction → ∃ (a : Assignment n) (turns : List (Turn n)),
          t.forced.Agrees a ∧ t.values = some (played a turns)
            ∧ Plays s.policy t.clauses.toList a turns
            ∧ (s.options.recordTrace = true →
              t.initial = some a ∧ t.trace.toList = turns.map Turn.event)
            ∧ t.counters = tally turns
            ∧ let qs := opening t.forced a ++ turns.flatMap Turn.replies
              Replies s.source.source qs t.source.source
                ∧ t.source.calls.toList = s.source.calls.toList ++ qs.map Reply.call
                ∧ qs.countP Reply.isCoin
                  = ((List.finRange n).countP fun v => (t.forced.get v).isNone)
                    + t.counters.noise + t.counters.greedy) := by
  intro s
  refine ⟨fun hlevel hinterval => ?_, fun u => (fixes_source_simplify u).reached,
    fun status t ht => ⟨fun hc => ?_, fun hne => ?_⟩⟩
  · obtain ⟨status, t, ht, -⟩ := exists_solve_of_sound
      (sound_run (Logged.ofSource g) hsetup hlater) (not_reportFault hlevel hinterval)
    exact ⟨status, t, ht⟩
  · exact (leads_solve_without_search fixes_source_simplify (fun _ _ => rfl) s).ok ht hc
  · have hoptions : t.options = s.options := congrArg Prod.fst ((fixes_settings_solve s).ok ht)
    have hpolicy : t.policy = s.policy := by rw [policy, policy, hoptions]
    obtain ⟨⟨a, turns, haccount⟩, -⟩ := (leads_solve_account s).ok ht hne
    obtain ⟨hreplies, hcalls⟩ := haccount.replies.logged
    refine ⟨a, turns, haccount.agrees, haccount.tracked.1, hpolicy ▸ haccount.plays,
      fun hrecord => ?_, haccount.counters, hreplies, hcalls, ?_⟩
    · have hon : t.options.recordTrace = true := by rwa [hoptions]
      exact ⟨haccount.initial hon, haccount.trace.trans (if_pos hon)⟩
    · rw [List.countP_append, opening_countP_isCoin, haccount.plays.countP_isCoin,
        haccount.counters, Nat.add_assoc]

/-- With flips that break nothing made first, one clause forces the last of three variables. The
second solve asks for two coins at the start. Its first flip breaks least, after a coin that
shows tails, and the second one is the only one that breaks nothing. -/
theorem solve_questions_of_sole_candidate :
    let setup : List (Request 3) := [.setOption "zero-break-first" (.bool true),
      .addClause (.arr [.int 1, .int 2]), .addClause (.arr [.int 1, .int (-2)]),
      .addClause (.arr [.int (-1), .int 2]), .addClause (.arr [.int 3])]
    let later : List (Request 3) := [.solve]
    let s : Solver 3 (Logged Tape) := ((new 3 (Logged.ofSource Tape.zero)).run setup).run later
    let asksCoin : Call → Bool := fun
      | .coin _ => true
      | .index _ => false
    (∀ r ∈ setup, r.isPreparing = true) ∧ (∀ r ∈ later, r.isFinal = true)
      ∧ ∃ t, solve s = .ok .satisfied t ∧ t.counters = ⟨2, 0, 1, 1⟩
        ∧ t.source.calls.toList.map asksCoin
          = s.source.calls.toList.map asksCoin ++ [true, true, true, false]
        ∧ ∃ (a : Assignment 3) (turns : List (Turn 3)), t.forced.Agrees a
          ∧ Plays s.policy t.clauses.toList a turns ∧ t.counters = tally turns
          ∧ (opening t.forced a ++ turns.flatMap Turn.replies).countP Reply.isCoin
            = 2 + 0 + 1 := by
  intro setup later s asksCoin
  have hsetup : ∀ r ∈ setup, r.isPreparing = true := by simp [setup, Request.isPreparing]
  have hlater : ∀ r ∈ later, r.isFinal = true := by simp [later, Request.isFinal]
  have hrun : Leads solve s (fun status t => status = .satisfied ∧ t.counters = ⟨2, 0, 1, 1⟩
      ∧ t.source.calls.toList.map asksCoin
        = s.source.calls.toList.map asksCoin ++ [true, true, true, false]
      ∧ ((List.finRange 3).countP fun v => (t.forced.get v).isNone) = 2) fun _ _ => False := by
    subst s later setup
    decide +kernel
  obtain ⟨-, -, hquestions⟩ := solve_questions Tape.zero setup later hsetup hlater
  obtain ⟨status, t, ht, rfl, hcounters, hcalls, hfree⟩ := hrun.exists_ok
  obtain ⟨a, turns, hagrees, -, hplays, -, htally, -, -, hcoins⟩ :=
    (hquestions .satisfied t ht).2 (by decide)
  rw [hfree, hcounters] at hcoins
  exact ⟨hsetup, hlater, t, ht, hcounters, hcalls, a, turns, hagrees, hplays, htally, hcoins⟩

end LocalSat.Solver
