/-
Traces are read back from their text.

* `readWord_intText`, `readMove_letter`: the words of a flip;
* `readPairs_words`, `words_traceChars`: the words of all flips;
* `readTrace_traceText`: a trace is read back, if its literals have not too many digits.
-/
import LocalSat.Proofs.Number.Integer
import LocalSat.Proofs.Text.Words
import LocalSat.Trace.Text

namespace LocalSat

open LocalSat.Text LocalSat.Number

/-! ### Words -/

/-- A literal is read back from its word. -/
lemma readWord_intText {i : Int} (h : (natText i.natAbs).length ≤ digitLimit) :
    readWord (intText i) = .ok i := by
  rw [readWord, Json.intOfText, String.toList_ofList, readInt_intText h]

/-- A kind is read back from its letter. -/
lemma readMove_letter (m : Move) : readMove [m.letter] = .ok m := by
  rw [readMove, Move.ofText?, String.toList_ofList]
  simp

/-- The words of flips are read back. -/
lemma readPairs_words {flips : List Flip}
    (h : ∀ f ∈ flips, (natText f.literal.natAbs).length ≤ digitLimit) :
    readPairs (flips.flatMap Flip.words) = .ok flips := by
  induction flips with
  | nil => rfl
  | cons f flips ih =>
      obtain ⟨hf, hflips⟩ := List.forall_mem_cons.1 h
      show readPairs ([f.move.letter] :: intText f.literal :: flips.flatMap Flip.words) = _
      rw [readPairs, readMove_letter, readWord_intText hf, ih hflips]
      rfl

/-- There are two words for each flip. -/
lemma length_flatMap_words (flips : List Flip) :
    (flips.flatMap Flip.words).length = 2 * flips.length := by
  induction flips with
  | nil => rfl
  | cons f flips ih =>
      rw [List.flatMap_cons, List.length_append, ih, List.length_cons]
      show 2 + 2 * flips.length = _
      omega

/-- The words in the text of a trace are those of its flips. -/
lemma words_traceChars (flips : List Flip) :
    words (traceChars flips) = flips.flatMap Flip.words := by
  refine words_intercalate_self fun w hw => ?_
  obtain ⟨f, -, hf⟩ := List.mem_flatMap.1 hw
  rw [Flip.words, List.mem_cons, List.mem_singleton] at hf
  rcases hf with rfl | rfl
  · refine ⟨List.cons_ne_nil _ _, fun c hc => ?_⟩
    rw [List.mem_singleton.1 hc]
    cases f.move <;> decide +kernel
  · exact ⟨intText_ne_nil _, isBlank_of_mem_intText _⟩

/-! ### Traces -/

/-- A trace is read back from its text, if its literals have not too many digits. -/
lemma readTrace_traceText {flips : List Flip}
    (h : ∀ f ∈ flips, (natText f.literal.natAbs).length ≤ digitLimit) :
    readTrace (traceText flips).toList = .ok flips := by
  have heven : ¬(flips.flatMap Flip.words).length % 2 = 1 := by
    rw [length_flatMap_words]
    omega
  have hwords : words (traceText flips).toList = flips.flatMap Flip.words := by
    rw [traceText, String.toList_ofList, words_traceChars]
  calc readTrace (traceText flips).toList
      = readPairs (flips.flatMap Flip.words) := by
        rw [readTrace]
        simp only [hwords, if_neg heven]
    _ = .ok flips := readPairs_words h

end LocalSat
