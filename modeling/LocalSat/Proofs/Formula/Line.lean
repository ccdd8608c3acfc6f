/-
Formulas are read back from their lines.

* `words_lineChars`: the words on a line; `readLine_lineChars_filter`: the clauses on it that have
  literals;
* `IsWritable c`: a clause has literals, of which none is zero or has too many digits;
  `readLine_lineChars`: such clauses are all read back; `mapM_readInt_lineChars`: one of them alone
  is read as integers;
* `largestVariable_le`: the number of variables of a formula is the largest one in it, by which
  `largestVariable_eq` finds it when the last one occurs;
* `strip_lineChars`, `readLines_lineTexts`: lines of a text are read one by one.
-/
import LocalSat.Batch.Problem
import LocalSat.Proofs.Except
import LocalSat.Proofs.Number.Integer
import LocalSat.Proofs.Text.Lines

namespace LocalSat

open LocalSat.Text LocalSat.Number

/-! ### Words -/

/-- A clause has literals, of which none is zero or has too many digits. -/
structure IsWritable (c : List Int) : Prop where
  /-- There is a literal. -/
  ne_nil : c ≠ []
  /-- No number is zero. -/
  ne_zero : ∀ l ∈ c, l ≠ 0
  /-- No number is too long. -/
  digits : ∀ l ∈ c, (natText l.natAbs).length ≤ digitLimit

/-- The words of a clause on a line. -/
def clauseWords (c : List Int) : List (List Char) := c.map intText ++ [['0']]

/-- A word of a clause on a line is a word. -/
lemma word_of_mem_clauseWords {c : List Int} {w : List Char} (h : w ∈ clauseWords c) :
    w ≠ [] ∧ ∀ d ∈ w, isBlank d = false := by
  rw [clauseWords, List.mem_append, List.mem_map, List.mem_singleton] at h
  rcases h with ⟨l, -, rfl⟩ | rfl
  · exact ⟨intText_ne_nil l, isBlank_of_mem_intText l⟩
  · refine ⟨List.cons_ne_nil _ _, fun d hd => ?_⟩
    rw [List.mem_singleton.1 hd]
    exact isBlank_digitChar 0 (by decide)

/-- So are all words on a line. -/
lemma word_of_mem_flatMap {cs : List (List Int)} {w : List Char}
    (h : w ∈ cs.flatMap clauseWords) : w ≠ [] ∧ ∀ d ∈ w, isBlank d = false := by
  obtain ⟨c, -, hw⟩ := List.mem_flatMap.1 h
  exact word_of_mem_clauseWords hw

/-- The words of a clause on a line are its literals and the zero. -/
lemma words_clauseChars (c : List Int) : words (clauseChars c) = clauseWords c := by
  have hblank : isBlank ' ' = true := by simp [isBlank]
  have hliterals : words ([' '].intercalate (c.map intText)) = c.map intText :=
    words_intercalate_self fun w hw => word_of_mem_clauseWords (List.mem_append_left _ hw)
  have hzero : words ['0'] = [['0']] :=
    wordsBy_of_forall (List.cons_ne_nil _ _) (word_of_mem_clauseWords (c := c) (by simp
      [clauseWords])).2
  calc words (clauseChars c)
      = words ([' '].intercalate (c.map intText)) ++ words ['0'] := wordsBy_append hblank _ _
    _ = clauseWords c := by rw [hliterals, hzero, clauseWords]

/-- The words on a line are those of its clauses. -/
lemma words_lineChars (cs : List (List Int)) : words (lineChars cs) = cs.flatMap clauseWords := by
  rw [lineChars, words_intercalate, List.flatMap_map]
  exact List.flatMap_congr fun c _ => words_clauseChars c

/-- A clause with literals on a line is its words joined by blanks. -/
lemma clauseChars_eq {c : List Int} (h : c ≠ []) :
    clauseChars c = [' '].intercalate (clauseWords c) := by
  rw [clauseWords, intercalate_append (by simpa using h) (by simp), List.intercalate_singleton]
  rfl

/-- So is a formula. -/
lemma lineChars_eq {cs : List (List Int)} (h : ∀ c ∈ cs, IsWritable c) :
    lineChars cs = [' '].intercalate (cs.flatMap clauseWords) := by
  induction cs with
  | nil => rfl
  | cons c cs ih =>
      obtain ⟨hc, hcs⟩ := List.forall_mem_cons.1 h
      cases cs with
      | nil => simp [lineChars, clauseChars_eq hc.ne_nil]
      | cons d cs =>
          have hrest : (d :: cs).flatMap clauseWords ≠ [] := by simp [clauseWords]
          calc lineChars (c :: d :: cs)
              = clauseChars c ++ ' ' :: lineChars (d :: cs) := by
                simp [lineChars]
            _ = [' '].intercalate ((c :: d :: cs).flatMap clauseWords) := by
                rw [ih hcs, clauseChars_eq hc.ne_nil,
                  ← intercalate_append (by simp [clauseWords]) hrest]
                rfl

/-! ### Reading -/

/-- The text of a number other than zero does not end a clause. -/
lemma intText_ne_zero {l : Int} (hl : l ≠ 0) (hdigits : (natText l.natAbs).length ≤ digitLimit) :
    intText l ≠ ['0'] := by
  intro h
  have hread := readInt_intText hdigits
  rw [h, show readInt ['0'] = .ok 0 by decide +kernel] at hread
  exact hl (Except.ok.inj hread).symm

/-- The literals of a clause are read one by one. -/
lemma readClauses_append {c : List Int} (hzero : ∀ l ∈ c, l ≠ 0)
    (hdigits : ∀ l ∈ c, (natText l.natAbs).length ≤ digitLimit) (current : List Int)
    (ws : List (List Char)) :
    readClauses current (c.map intText ++ ws) = readClauses (current ++ c) ws := by
  induction c generalizing current with
  | nil => simp
  | cons l c ih =>
      rw [List.forall_mem_cons] at hzero hdigits
      rw [List.map_cons, List.cons_append, readClauses, if_neg (intText_ne_zero hzero.1 hdigits.1),
        Json.intOfText, String.toList_ofList, readInt_intText hdigits.1]
      show readClauses (current ++ [l]) (c.map intText ++ ws) = _
      rw [ih hzero.2 hdigits.2, List.append_assoc, List.singleton_append]

/-- A clause is read back from its line as integers, of which the last one is the zero. -/
lemma mapM_readInt_lineChars {c : List Int} (h : IsWritable c) :
    (words (lineChars [c])).mapM readInt = .ok (c ++ [0]) := by
  have hzero : intText 0 = ['0'] := by decide +kernel
  have hdigits : ∀ l ∈ c ++ [0], (natText l.natAbs).length ≤ digitLimit := by
    rw [List.forall_mem_append, List.forall_mem_singleton]
    exact ⟨h.digits, length_natText_le_digitLimit (Nat.zero_le _)⟩
  rw [words_lineChars, List.flatMap_singleton, clauseWords, ← hzero, ← List.map_singleton,
    ← List.map_append]
  exact mapM_eq_ok fun l hl => readInt_intText (hdigits l hl)

/-- The words of clauses are read back, where clauses without literals are left out. -/
lemma readClauses_words {cs : List (List Int)} (hzero : ∀ c ∈ cs, ∀ l ∈ c, l ≠ 0)
    (hdigits : ∀ c ∈ cs, ∀ l ∈ c, (natText l.natAbs).length ≤ digitLimit) :
    readClauses [] (cs.flatMap clauseWords) = .ok (cs.filter fun c => c ≠ []) := by
  induction cs with
  | nil => rfl
  | cons c cs ih =>
      rw [List.forall_mem_cons] at hzero hdigits
      rw [List.flatMap_cons, clauseWords, List.append_assoc, readClauses_append hzero.1 hdigits.1,
        List.nil_append, List.singleton_append, readClauses, if_pos rfl, ih hzero.2 hdigits.2,
        List.filter_cons]
      cases c <;> rfl

/-- Clauses are read back from their line, except for those without literals. -/
lemma readLine_lineChars_filter {cs : List (List Int)} (hzero : ∀ c ∈ cs, ∀ l ∈ c, l ≠ 0)
    (hdigits : ∀ c ∈ cs, ∀ l ∈ c, (natText l.natAbs).length ≤ digitLimit) :
    readLine (lineChars cs) = .ok (.ofClauses (cs.filter fun c => c ≠ [])) := by
  rw [readLine, words_lineChars, readClauses_words hzero hdigits]
  rfl

/-- Clauses with literals are read back from their line. -/
lemma readLine_lineChars {cs : List (List Int)} (h : ∀ c ∈ cs, IsWritable c) :
    readLine (lineChars cs) = .ok (.ofClauses cs) := by
  have hall : cs.filter (fun c => c ≠ []) = cs :=
    List.filter_eq_self.2 fun c hc => by simpa using (h c hc).ne_nil
  rw [readLine_lineChars_filter (fun c hc => (h c hc).ne_zero) fun c hc => (h c hc).digits, hall]

/-! ### The number of variables -/

/-- The largest variable is found literal by literal. -/
lemma largestVariable_le {cs : List (List Int)} {n : Nat} :
    largestVariable cs ≤ n ↔ ∀ c ∈ cs, ∀ l ∈ c, l.natAbs ≤ n := by
  have key : ∀ (ls : List Int) (m : Nat), ls.foldl (fun k l => max k l.natAbs) m ≤ n
      ↔ m ≤ n ∧ ∀ l ∈ ls, l.natAbs ≤ n := by
    intro ls
    induction ls with
    | nil => simp
    | cons l ls ih =>
        intro m
        rw [List.foldl_cons, ih, List.forall_mem_cons, Nat.max_le, and_assoc]
  rw [largestVariable, ← List.foldl_flatten, key]
  simp only [List.mem_flatten, Nat.zero_le, true_and]
  exact ⟨fun h c hc l hl => h l ⟨c, hc, hl⟩, fun h l ⟨c, hc, hl⟩ => h c hc l hl⟩

/-- The number of variables is the last one, if it occurs. -/
lemma largestVariable_eq {cs : List (List Int)} {n : Nat}
    (hle : ∀ c ∈ cs, ∀ l ∈ c, l.natAbs ≤ n) (hlast : ∃ c ∈ cs, n ∈ c.map Int.natAbs) :
    largestVariable cs = n := by
  obtain ⟨c, hc, hn⟩ := hlast
  obtain ⟨l, hl, rfl⟩ := List.mem_map.1 hn
  exact Nat.le_antisymm (largestVariable_le.2 hle) (largestVariable_le.1 (Nat.le_refl _) c hc l hl)

/-! ### Lines of a text -/

/-- A line has no blanks at its ends. -/
lemma strip_lineChars {cs : List (List Int)} (h : ∀ c ∈ cs, IsWritable c) :
    strip (lineChars cs) = lineChars cs := by
  rw [lineChars_eq h]
  exact strip_intercalate fun w => word_of_mem_flatMap

/-- A formula with clauses is not written on an empty line. -/
lemma lineChars_ne_nil {cs : List (List Int)} (h : ∀ c ∈ cs, IsWritable c) (hne : cs ≠ []) :
    lineChars cs ≠ [] := by
  intro hnil
  have hread := readLine_lineChars h
  have hempty : readLine [] = .ok (.ofClauses []) := by
    rw [readLine, words, wordsBy_nil]
    rfl
  rw [hnil, hempty] at hread
  exact hne (congrArg Formula.clauses (Except.ok.inj hread)).symm

/-- A line has no breaks. -/
lemma isBreak_of_mem_lineChars {cs : List (List Int)} (h : ∀ c ∈ cs, IsWritable c) :
    ∀ d ∈ lineChars cs, isBreak d = false := by
  have hblank : ∀ d, isBlank d = false → isBreak d = false := by
    intro d hd
    cases hbreak : isBreak d with
    | false => rfl
    | true =>
        rw [isBreak, Bool.or_eq_true, beq_iff_eq, beq_iff_eq] at hbreak
        rcases hbreak with rfl | rfl
        · exact absurd hd (by decide +kernel)
        · exact absurd hd (by decide +kernel)
  rw [lineChars_eq h]
  exact forall_mem_intercalate (by decide) fun w hw d hd =>
    hblank d ((word_of_mem_flatMap hw).2 d hd)

/-- The formulas on lines are read one by one. -/
lemma readLinesFrom_lineChars {formulas : List (List (List Int))}
    (h : ∀ cs ∈ formulas, ∀ c ∈ cs, IsWritable c) (first : Nat) :
    Problem.readLinesFrom first (formulas.map lineChars)
      = .ok ((formulas.zipIdx first).map fun p => (Problem.lineName p.2, .ofClauses p.1)) := by
  induction formulas generalizing first with
  | nil => rfl
  | cons cs formulas ih =>
      obtain ⟨hcs, hrest⟩ := List.forall_mem_cons.1 h
      rw [List.map_cons, Problem.readLinesFrom, readLine_lineChars hcs, ih hrest]
      rfl

/-- Formulas with clauses on the lines of a text are read back. -/
lemma readLines_lineTexts {formulas : List (List (List Int))}
    (h : ∀ cs ∈ formulas, cs ≠ [] ∧ ∀ c ∈ cs, IsWritable c) :
    Problem.readLines (String.join (formulas.map fun cs => lineText cs ++ "\n"))
      = .ok (formulas.zipIdx.map fun p => (Problem.lineName p.2, .ofClauses p.1)) := by
  have htext : (String.join (formulas.map fun cs => lineText cs ++ "\n")).toList
      = (formulas.map lineChars).flatMap fun t => t ++ ['\n'] := by
    rw [String.toList_join, List.flatMap_map, List.flatMap_map]
    simp [lineText]
  rw [Problem.readLines, htext, contentLines_flatMap]
  · exact readLinesFrom_lineChars (fun cs hcs => (h cs hcs).2) 0
  · intro t ht
    obtain ⟨cs, hcs, rfl⟩ := List.mem_map.1 ht
    obtain ⟨hne, hwritable⟩ := h cs hcs
    exact ⟨lineChars_ne_nil hwritable hne, strip_lineChars hwritable,
      isBreak_of_mem_lineChars hwritable⟩

end LocalSat
