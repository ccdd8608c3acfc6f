/-
What a solver takes in.

* `readClause_eq_ok_iff`: a clause is read exactly from the numbers of its literals;
* `Declaration.next`, `Declaration.held`: what an option is after one request and after many, of
  which only those matter that give a value for it; `Declaration.held_mem`: it is always something
  that its check lets pass; `Declaration.field_run`: the solver has it as it is held;
* `Request.clause?`: the clause that a request asks for; `added_run`: the clauses that were added;
* `run_keeps_inputs`: whatever is asked, the options stay in their ranges and the literals among the
  variables that there are, and what is refused leaves no trace.
-/
import LocalSat.Proofs.Options
import LocalSat.Proofs.Session.Building

namespace LocalSat

variable {n : Nat} {γ α : Type}

/-! ### Clauses -/

namespace Solver

/-- A literal is read from its number only. -/
lemma readLiteral_eq_ok_iff (value : Json) (l : Literal n) :
    readLiteral n value = .ok l ↔ value = .int l.toInt := by
  refine ⟨fun h => ?_, ?_⟩
  · cases value with
    | int i =>
        by_cases hi : i ≠ 0 ∧ i.natAbs ≤ n
        · obtain ⟨k, hk, rfl⟩ := exists_readLiteral hi.1 hi.2
          rw [hk] at h
          rw [Except.ok.inj h]
        · rw [readLiteral, Literal.ofInt?, dif_neg hi] at h
          cases h
    | null | bool | float | str | bytes | arr | obj => cases h
  · rintro rfl
    rw [readLiteral, Literal.ofInt?_toInt]

/-- A clause is read from the numbers of its literals, in whatever they come. -/
lemma readClause_eq_ok_iff {value : Json} {c : Clause n} :
    readClause n value = .ok c ↔ value.items? = some (c.toInts.map Json.int) := by
  rw [readClause, Clause.toInts, List.map_map]
  cases value.items? with
  | none => exact iff_of_false (fun h => by cases h) (fun h => by cases h)
  | some items =>
      rw [Option.some.injEq]
      exact mapM_eq_ok_iff readLiteral_eq_ok_iff

/-- A literal is not zero and its variable is one that there is. -/
lemma toInt_mem (l : Literal n) : l.toInt ≠ 0 ∧ l.toInt.natAbs ≤ n := by
  have habs := natAbs_toInt l
  have hvar := l.var.isLt
  omega

end Solver

/-- The clause that a request asks for, if it can be read. -/
def Request.clause? : Request n → Option (Clause n)
  | .addClause value => (Solver.readClause n value).toOption
  | _ => none

/-! ### Options in a session -/

namespace Declaration

variable (d : Declaration α)

/-- What an option is after a request. Only requests to set an option change one. -/
def next (held : α) : Request n → α
  | .setOption name value => d.given held name value
  | _ => held

/-- What an option is after requests. -/
def held (rs : List (Request n)) : α := rs.foldl d.next d.start

/-- An option is always something that its check lets pass. -/
lemma held_mem {P : α → Prop} (hcheck : ∀ value x, d.check value = .ok x → P x)
    (rs : List (Request n)) : P (d.held rs) := by
  have hstep : ∀ {x : α}, P x → P (rs.foldl d.next x) := by
    induction rs with
    | nil => exact id
    | cons r rs ih =>
        intro x hx
        refine ih ?_
        cases r with
        | setOption name value => exact d.given_mem hcheck hx name value
        | setReport | addClause | force | simplify | initSearch | flip | search | solve => exact hx
  exact hstep (hcheck _ _ d.checked)

variable [RandomSource γ]

/-- The solver has an option as it is held after a request, if it had it before. -/
lemma field_after (s : Solver n γ) (r : Request n) :
    d.field (s.after r).options = d.next (d.field s.options) r := by
  cases r with
  | setOption name value =>
      rw [next, given_eq, Solver.after, Request.perform, Solver.setOption_eq]
      cases s.options.set name value <;> rfl
  | setReport v k => rfl
  | addClause | force | simplify | initSearch | flip | search | solve =>
      rw [show (s.after _).options = s.options from congrArg Prod.fst (Solver.settings_after rfl s)]
      rfl

/-- The solver has every option as it is held. -/
lemma field_run (g : γ) (rs : List (Request n)) :
    d.field ((Solver.new n g).run rs).options = d.held rs := by
  induction rs using List.reverseRecOn with
  | nil => exact d.field_default
  | append_singleton rs r ih =>
      rw [held, List.foldl_append, ← held, ← ih, Solver.run, List.foldl_append]
      exact d.field_after _ r

end Declaration

namespace Solver

variable [RandomSource γ]

/-! ### Clauses in a session -/

/-- A request adds the clause that it asks for, if it is one. -/
lemma added_after (s : Solver n γ) (r : Request n) :
    (s.after r).added.toList = s.added.toList ++ r.clause?.toList := by
  have hkeep : ∀ {t : Solver n γ}, t.added = s.added → t.added.toList = s.added.toList ++ [] :=
    fun h => by rw [h, List.append_nil]
  cases r with
  | addClause value =>
      rw [after, Request.perform, Request.clause?, addClause_eq]
      cases readClause n value with
      | ok c => exact Array.toList_push
      | error e => exact hkeep rfl
  | force l => rcases after_force s l with ⟨-, h⟩ | ⟨_, -, -, h⟩ <;> rw [h] <;> exact hkeep rfl
  | simplify => exact hkeep (propagates_after_simplify s).added
  | solve => exact hkeep (propagates_after_solve s).added
  | setOption | setReport | initSearch | flip | search =>
      exact hkeep (known_eq_iff.1 (known_after rfl s)).2.1

/-- Requests add the clauses that they ask for, in order, and nothing of what is none. -/
lemma added_run (s : Solver n γ) (rs : List (Request n)) :
    (s.run rs).added.toList = s.added.toList ++ rs.filterMap Request.clause? := by
  induction rs using List.reverseRecOn with
  | nil => exact (List.append_nil _).symm
  | append_singleton rs r ih =>
      have hlast : s.run (rs ++ [r]) = (s.run rs).after r := List.foldl_append
      rw [hlast, added_after, ih, List.filterMap_append, List.append_assoc]
      cases hr : r.clause? <;> simp [hr]

/-- **Inputs are checked before anything changes.** Whatever a solver was asked before, in any order
and whether it was done or refused: the flips for each variable are an integer from one to the 31st
power of two, the chance of a random flip is a finite number from zero to one, and every option is
as its declaration holds it. The clauses that were added are those that were asked for and could be
read, and all literals, of these clauses and of the ones that are left, are numbers of the variables
that there are or their negatives. To set an option changes nothing but the options, and to add a
clause, which succeeds exactly for such numbers, adds these; when either is refused, everything
stays as it was. -/
theorem run_keeps_inputs (g : γ) (rs : List (Request n)) :
    let s := (new n g).run rs
    (1 ≤ s.options.flipsFactor ∧ s.options.flipsFactor ≤ Number.twoPow 31)
      ∧ (s.options.noise.isFinite = true
        ∧ 0 ≤ Number.value s.options.noise ∧ Number.value s.options.noise ≤ 1)
      ∧ s.options = ⟨Declaration.flipsFactor.held rs, Declaration.noise.held rs,
        Declaration.zeroBreakFirst.held rs, Declaration.checkModel.held rs,
        Declaration.recordTrace.held rs⟩
      ∧ s.added.toList = rs.filterMap Request.clause?
      ∧ (∀ c ∈ s.added.toList ++ s.clauses.toList, ∀ i ∈ c.toInts, i ≠ 0 ∧ i.natAbs ≤ n)
      ∧ (∀ name value,
        match setOption name value s with
        | .ok () t => t = { s with options := t.options }
        | .error _ t => t = s)
      ∧ ∀ value,
        match addClause value s with
        | .ok () t => ∃ c, value.items? = some (c.toInts.map Json.int) ∧ t = s.pushClause c
        | .error _ t => t = s ∧ ∀ is : List Int, value.items? = some (is.map Json.int) →
          ¬∀ i ∈ is, i ≠ 0 ∧ i.natAbs ≤ n := by
  intro s
  have hoptions : s.options = ⟨Declaration.flipsFactor.held rs, Declaration.noise.held rs,
      Declaration.zeroBreakFirst.held rs, Declaration.checkModel.held rs,
      Declaration.recordTrace.held rs⟩ := by
    rw [← Declaration.flipsFactor.field_run g, ← Declaration.noise.field_run g,
      ← Declaration.zeroBreakFirst.field_run g, ← Declaration.checkModel.field_run g,
      ← Declaration.recordTrace.field_run g]
    rfl
  refine ⟨?_, ?_, hoptions, added_run (new n g) rs, ?_, fun name value => ?_, fun value => ?_⟩
  · rw [hoptions]
    exact Declaration.flipsFactor.held_mem (fun _ _ => checkInt_mem) rs
  · rw [hoptions]
    exact_mod_cast Declaration.noise.held_mem (fun _ _ => checkFloat_mem) rs
  · intro c _ i hi
    obtain ⟨l, -, rfl⟩ := List.mem_map.1 hi
    exact toInt_mem l
  · rw [setOption_eq]
    cases s.options.set name value <;> rfl
  · rw [addClause_eq]
    cases hread : readClause n value with
    | ok c => exact ⟨c, readClause_eq_ok_iff.1 hread, rfl⟩
    | error e =>
        refine ⟨rfl, fun is his hmem => ?_⟩
        obtain ⟨c, -, rfl⟩ := exists_readClause hmem
        rw [readClause_eq_ok_iff.2 his] at hread
        cases hread

/-- A float without a fraction is taken as an integer and a truth value as a chance, but a text is
no integer, and what is no number is no chance; a clause with a zero is refused as a whole, also
after a solve. -/
theorem run_keeps_inputs_of_refusals :
    let rs : List (Request 2) := [.setOption "flips-factor" (.float 7),
      .setOption "max_flips_factor" (.str "9"), .setOption "noise" (.bool true),
      .setOption "noise" (.float (0 / 0)), .setOption "check_model" (.arr []),
      .addClause (.arr [.int 1, .int (-2)]), .solve, .addClause (.arr [.int 1, .int 0])]
    let s := (new 2 Tape.zero).run rs
    s.options.flipsFactor = 7 ∧ s.options.noise = 1 ∧ s.options.checkModel = false
      ∧ s.added.toList.map Clause.toInts = [[1, -2]] := by
  intro rs s
  obtain ⟨-, -, hoptions, hadded, -⟩ := run_keeps_inputs Tape.zero rs
  rw [hadded, hoptions]
  subst rs
  refine ⟨?_, ?_, ?_, ?_⟩ <;> decide +kernel

end Solver

end LocalSat
