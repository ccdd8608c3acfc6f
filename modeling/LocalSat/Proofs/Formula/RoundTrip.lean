/-
Formulas survive their lines.

* `lineValueText_clausesJson`: clauses that are given as a value are written like clauses;
* `readClauses_induction`: clauses that are read have literals, which have what all integers have
  that are read;
* `largestVariable_eq_zero_or`: the number of variables is zero, or the last one occurs;
* `line_round_trip`: what is written is read back except for empty clauses, and what was read in any
  spelling is written and read back.
-/
import LocalSat.Proofs.Formula.Line

namespace LocalSat

open LocalSat.Text LocalSat.Number

/-! ### Writing -/

/-- A clause that is given as a value is written like a clause. -/
lemma clauseValueText_eq (c : List Int) :
    clauseValueText (.arr (c.map Json.int)) = .ok (String.ofList (clauseChars c)) := by
  have hitems : (c.map Json.int).map Json.plainString = (c.map intText).map String.ofList := by
    rw [List.map_map, List.map_map]
    rfl
  calc clauseValueText (.arr (c.map Json.int))
      = .ok (" ".intercalate ((c.map Json.int).map Json.plainString) ++ " 0") := rfl
    _ = .ok (String.ofList (clauseChars c)) := by
        rw [hitems, intercalate_ofList, clauseChars, String.ofList_append]

/-- So are clauses. -/
lemma lineValueText_clausesJson (cs : List (List Int)) :
    lineValueText (clausesJson cs) = .ok (lineText cs) := by
  have hparts : (cs.map fun c => Json.arr (c.map Json.int)).mapM clauseValueText
      = .ok (cs.map fun c => String.ofList (clauseChars c)) :=
    mapM_map_eq_ok fun c _ => clauseValueText_eq c
  have hjoin := intercalate_ofList (cs.map clauseChars)
  rw [List.map_map] at hjoin
  show ((cs.map fun c => Json.arr (c.map Json.int)).mapM clauseValueText >>= _) = _
  rw [hparts]
  exact congrArg Except.ok hjoin

/-! ### Reading -/

/-- The integer in a string is that of its characters. -/
lemma readInt_of_intOfText {w : List Char} {l : Int}
    (h : Json.intOfText (String.ofList w) = .ok l) : readInt w = .ok l := by
  rw [Json.intOfText, String.toList_ofList] at h
  split at h
  · next i hi =>
    rw [hi]
    exact congrArg _ (Except.ok.inj h)
  · cases h

/-- Clauses that are read have literals. What holds of the literals that were read before, and of
all integers that are read from words, holds of them. -/
lemma readClauses_induction {P : Int → Prop} (h : ∀ w l, readInt w = .ok l → P l)
    {ws : List (List Char)} {current : List Int} {cs : List (List Int)}
    (hcurrent : ∀ l ∈ current, P l) (hread : readClauses current ws = .ok cs) :
    ∀ c ∈ cs, c ≠ [] ∧ ∀ l ∈ c, P l := by
  fun_induction readClauses current ws generalizing cs with
  | case1 current =>
      cases hread
      split
      · exact nofun
      · next hne => simpa using ⟨by simpa using hne, hcurrent⟩
  | case2 current ws hempty ih => exact ih (List.forall_mem_nil _) hread
  | case3 current ws hne ih =>
      obtain ⟨ds, hds, rfl⟩ := exists_of_map_eq_ok hread
      exact List.forall_mem_cons.2 ⟨⟨by simpa using hne, hcurrent⟩, ih (List.forall_mem_nil _) hds⟩
  | case4 current w ws hw l hl ih =>
      refine ih (List.forall_mem_append.2 ⟨hcurrent, List.forall_mem_singleton.2 ?_⟩) hread
      exact h w l (readInt_of_intOfText hl)
  | case5 => cases hread

/-- The number of variables is zero, or the last one occurs. -/
lemma largestVariable_eq_zero_or (cs : List (List Int)) :
    largestVariable cs = 0 ∨ ∃ c ∈ cs, ∃ l ∈ c, l.natAbs = largestVariable cs := by
  by_contra hno
  obtain ⟨hpos, hnone⟩ := not_or.1 hno
  -- otherwise the variables are less than the largest one
  have hless : largestVariable cs ≤ largestVariable cs - 1 := by
    refine largestVariable_le.2 fun c hc l hl => ?_
    have hle := largestVariable_le.1 (Nat.le_refl (largestVariable cs)) c hc l hl
    have hne : l.natAbs ≠ largestVariable cs := fun heq => hnone ⟨c, hc, l, hl, heq⟩
    omega
  omega

/-! ### Round trips -/

/-- **Formulas survive their lines.** Clauses of literals other than zero are written on a line, as
a value or as they are, and read back from it. The literals may be of any size, as long as they do
not have more digits than may be read at all. The clauses with literals come back in order and
unchanged, those without are gone, and the number of variables is the largest one that occurs, or
zero if none does. The other way round, let a line in any spelling be read, be it with other blanks,
with signs or leading zeros, with zeros that repeat, or without a zero at the end. If none of the
literals is zero, what was read is written on a line and read back as it is. -/
theorem line_round_trip :
    (∀ cs : List (List Int), (∀ c ∈ cs, ∀ l ∈ c, l ≠ 0) →
      (∀ c ∈ cs, ∀ l ∈ c, (natText l.natAbs).length ≤ digitLimit) →
      ∃ text varCount, lineValueText (clausesJson cs) = .ok text
        ∧ readLine text.toList = .ok ⟨varCount, cs.filter (· ≠ [])⟩
        ∧ (∀ c ∈ cs, ∀ l ∈ c, l.natAbs ≤ varCount)
        ∧ (varCount = 0 ∨ ∃ c ∈ cs, ∃ l ∈ c, l.natAbs = varCount))
      ∧ ∀ (s : List Char) (f : Formula), readLine s = .ok f → (∀ c ∈ f.clauses, ∀ l ∈ c, l ≠ 0) →
        ∃ text, lineValueText (clausesJson f.clauses) = .ok text
          ∧ readLine text.toList = .ok f := by
  refine ⟨fun cs hzero hdigits => ?_, fun s f hs hzero => ?_⟩
  · refine ⟨lineText cs, largestVariable (cs.filter fun c => c ≠ []), lineValueText_clausesJson cs,
      ?_, fun c hc l hl => ?_, ?_⟩
    · rw [lineText, String.toList_ofList]
      exact readLine_lineChars_filter hzero hdigits
    · have hc : c ∈ cs.filter fun c => c ≠ [] :=
        List.mem_filter.2 ⟨hc, decide_eq_true (List.ne_nil_of_mem hl)⟩
      exact largestVariable_le.1 (Nat.le_refl _) c hc l hl
    · refine (largestVariable_eq_zero_or _).imp_right ?_
      rintro ⟨c, hc, l, hl, hlast⟩
      exact ⟨c, (List.mem_filter.1 hc).1, l, hl, hlast⟩
  · obtain ⟨cs, hcs, rfl⟩ := exists_of_map_eq_ok hs
    have hread : ∀ c ∈ cs, c ≠ [] ∧ ∀ l ∈ c, (natText l.natAbs).length ≤ digitLimit :=
      readClauses_induction (fun _ _ => length_natText_of_readInt) (List.forall_mem_nil _) hcs
    have hwritable : ∀ c ∈ cs, IsWritable c := fun c hc =>
      ⟨(hread c hc).1, hzero c hc, (hread c hc).2⟩
    refine ⟨lineText cs, lineValueText_clausesJson cs, ?_⟩
    rw [lineText, String.toList_ofList]
    exact readLine_lineChars hwritable

/-- Three clauses come back without the empty one; and a line with a sign, leading zeros, a repeated
zero, a tab and no zero at its end is read, written and read back. -/
theorem line_round_trip_of_spellings :
    (∃ text, lineValueText (clausesJson [[3, -1], [], [2]]) = .ok text
        ∧ readLine text.toList = .ok ⟨3, [[3, -1], [2]]⟩)
      ∧ readLine "+3 -007 0 0\t2".toList = .ok ⟨7, [[3, -7], [2]]⟩
      ∧ ∃ text, lineValueText (clausesJson [[3, -7], [2]]) = .ok text
        ∧ readLine text.toList = .ok ⟨7, [[3, -7], [2]]⟩ := by
  obtain ⟨hwritten, hread⟩ := line_round_trip
  have hspelled : readLine "+3 -007 0 0\t2".toList = .ok ⟨7, [[3, -7], [2]]⟩ :=
    eq_ok_of_toOption (by decide +kernel)
  refine ⟨?_, hspelled, hread _ _ hspelled (by decide)⟩
  obtain ⟨text, varCount, htext, hread, hle, hlast⟩ :=
    hwritten [[3, -1], [], [2]] (by decide) (by decide +kernel)
  have hcount : varCount = 3 := by
    have h3 := hle [3, -1] (by decide) 3 (by decide)
    rcases hlast with rfl | ⟨c, hc, l, hl, rfl⟩
    · simp at h3
    · have hall : ∀ c ∈ [[3, -1], [], [2]], ∀ l ∈ c, Int.natAbs l ≤ 3 := by decide
      exact Nat.le_antisymm (hall c hc l hl) h3
  exact ⟨text, htext, hcount ▸ hread⟩

end LocalSat
