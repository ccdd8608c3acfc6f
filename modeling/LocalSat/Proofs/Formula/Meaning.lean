/-
What a line keeps of the meaning of a formula.

* `isSatisfied_iff`: the checker refuses every assignment when a clause is empty, and otherwise
  looks at the clauses with literals only;
* `line_meaning`: a formula that is read back from its line means what its clauses with literals
  mean, so that an empty clause is lost with its meaning;
* `line_loses_empty_clause`: such a loss.
-/
import LocalSat.Checker
import LocalSat.Proofs.Formula.RoundTrip

namespace LocalSat

open LocalSat.Number

/-- Clauses are satisfied when none of them is empty and those with literals are satisfied. -/
lemma isSatisfied_iff (a : PartialAssignment) (cs : List (List Int)) :
    a.isSatisfied cs = true ↔ [] ∉ cs ∧ a.isSatisfied (cs.filter (· ≠ [])) = true := by
  simp only [PartialAssignment.isSatisfied, List.all_eq_true, List.mem_filter, decide_eq_true_eq]
  constructor
  · intro h
    refine ⟨fun hempty => ?_, fun c hc => h c hc.1⟩
    have hany := h [] hempty
    rw [List.any_nil] at hany
    cases hany
  · rintro ⟨hempty, h⟩ c hc
    exact h c ⟨hc, fun heq => hempty (heq ▸ hc)⟩

/-- **Lines keep the meaning of the clauses with literals.** Clauses of literals other than zero,
none of which has more digits than may be read, are written on a line and read back from it. An
assignment, be it of all variables or of some, satisfies what was read back exactly if it satisfies
the clauses with literals. So the answer about what was read back is the one about the clauses
themselves if none of them is empty, and otherwise only if both are refused. -/
theorem line_meaning (cs : List (List Int)) (hzero : ∀ c ∈ cs, ∀ l ∈ c, l ≠ 0)
    (hdigits : ∀ c ∈ cs, ∀ l ∈ c, (natText l.natAbs).length ≤ digitLimit) :
    ∃ text f, lineValueText (clausesJson cs) = .ok text ∧ readLine text.toList = .ok f
      ∧ ∀ a : PartialAssignment,
        a.isSatisfied f.clauses = a.isSatisfied (cs.filter (· ≠ []))
          ∧ (a.isSatisfied f.clauses = a.isSatisfied cs
            ↔ [] ∉ cs ∨ a.isSatisfied f.clauses = false) := by
  have hread : readLine (lineText cs).toList = .ok (.ofClauses (cs.filter (· ≠ []))) := by
    rw [lineText, String.toList_ofList]
    exact readLine_lineChars_filter hzero hdigits
  refine ⟨lineText cs, _, lineValueText_clausesJson cs, hread, fun a => ⟨rfl, ?_⟩⟩
  have hiff := isSatisfied_iff a cs
  show a.isSatisfied (cs.filter (· ≠ [])) = _ ↔ _ ∨ a.isSatisfied (cs.filter (· ≠ [])) = _
  by_cases hempty : [] ∈ cs
  · have hrefused : a.isSatisfied cs = false :=
      Bool.eq_false_iff.2 fun h => (hiff.1 h).1 hempty
    rw [hrefused, or_iff_right (not_not_intro hempty)]
  · rw [and_iff_right hempty] at hiff
    exact iff_of_true (Bool.eq_iff_iff.2 hiff.symm) (.inl hempty)

/-- Two clauses mean the same after they are read back, to an assignment without a value for one of
their variables; and with an empty clause between them they still do to an assignment that refuses
one of them. -/
theorem line_meaning_of_partial :
    let a : PartialAssignment := fun v => if v = 1 then some false else none
    let b : PartialAssignment := fun v => if v = 2 then some true else a v
    (∃ text f, lineValueText (clausesJson [[3, -1], [2]]) = .ok text
        ∧ readLine text.toList = .ok f ∧ b.isSatisfied f.clauses = b.isSatisfied [[3, -1], [2]])
      ∧ ∃ text f, lineValueText (clausesJson [[3, -1], [], [2]]) = .ok text
        ∧ readLine text.toList = .ok f
        ∧ a.isSatisfied f.clauses = a.isSatisfied [[3, -1], [], [2]] := by
  intro a b
  obtain ⟨text, f, hwritten, hread, hmeaning⟩ :=
    line_meaning [[3, -1], [2]] (by decide) (by decide +kernel)
  obtain ⟨text', f', hwritten', hread', hmeaning'⟩ :=
    line_meaning [[3, -1], [], [2]] (by decide) (by decide +kernel)
  refine ⟨⟨text, f, hwritten, hread, (hmeaning b).2.2 (.inl (by decide))⟩,
    text', f', hwritten', hread', (hmeaning' a).2.2 (.inr ?_)⟩
  rw [(hmeaning' a).1]
  rfl

/-- The meaning of an empty clause is lost: the assignment that makes every variable true does not
satisfy the clauses, but it satisfies what is read back from their line. -/
theorem line_loses_empty_clause :
    let a : PartialAssignment := fun _ => some true
    a.IsTotal ∧ lineValueText (clausesJson [[1], []]) = .ok "1 0  0"
      ∧ readLine "1 0  0".toList = .ok ⟨1, [[1]]⟩
      ∧ a.isSatisfied [[1], []] = false ∧ a.isSatisfied [[1]] = true := by
  refine ⟨fun _ _ => rfl, ?_, eq_ok_of_toOption (by decide +kernel), rfl, rfl⟩
  rw [lineValueText_clausesJson]
  exact congrArg Except.ok (by decide +kernel)

end LocalSat
