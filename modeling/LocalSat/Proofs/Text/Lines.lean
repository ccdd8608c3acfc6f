/-
Lines with a break after each of them.

* `linesBy_append`: a line with a break after it comes first;
* `trim_of_ends`: a text without blanks at its ends is left as it is;
  `strip_intercalate`: such are words that are joined by blanks;
* `contentLines_flatMap`: lines without blanks at their ends are read back.
-/
import LocalSat.Proofs.Text.Words
import Mathlib.Data.List.Basic

namespace LocalSat.Text

variable {p : Char → Bool} {w s : List Char}

/-- A line ends where a line feed follows. -/
lemma linesBy_append (hw : ∀ c ∈ w, p c = false) (hp : p '\n' = true) :
    linesBy p (w ++ '\n' :: s) = w :: linesBy p s := by
  have hline : ∀ c ∈ w, (!p c) = true := fun c hc => by simp [hw c hc]
  have htake : (w ++ '\n' :: s).takeWhile (fun c => !p c) = w := by
    rw [List.takeWhile_append_of_pos hline, List.takeWhile_cons_of_neg (by simp [hp]),
      List.append_nil]
  have hdrop : (w ++ '\n' :: s).dropWhile (fun c => !p c) = '\n' :: s := by
    rw [List.dropWhile_append_of_pos hline, List.dropWhile_cons_of_neg (by simp [hp])]
  obtain ⟨c, t, hct⟩ : ∃ c t, w ++ '\n' :: s = c :: t :=
    List.exists_cons_of_ne_nil (by simp)
  rw [hct] at htake hdrop ⊢
  rw [linesBy, htake, hdrop]
  rfl

/-- A text with no character of a class at its ends is left as it is. -/
lemma trim_of_ends (hfirst : ∀ c ∈ s.head?, p c = false) (hlast : ∀ c ∈ s.getLast?, p c = false) :
    trim p s = s := by
  have hkeep : ∀ t : List Char, (∀ c ∈ t.head?, p c = false) → t.dropWhile p = t := by
    rintro (_ | ⟨c, t⟩) ht
    · rfl
    · exact List.dropWhile_cons_of_neg (by simp [ht c rfl])
  rw [trim, hkeep s hfirst, hkeep _ (by rwa [List.head?_reverse]), List.reverse_reverse]

/-- Words that are joined by blanks have none at their ends. -/
lemma strip_intercalate {ws : List (List Char)}
    (h : ∀ w ∈ ws, w ≠ [] ∧ ∀ c ∈ w, isBlank c = false) :
    strip ([' '].intercalate ws) = [' '].intercalate ws := by
  have hends : (∀ c ∈ ([' '].intercalate ws).head?, isBlank c = false)
      ∧ ∀ c ∈ ([' '].intercalate ws).getLast?, isBlank c = false := by
    induction ws with
    | nil => exact ⟨nofun, nofun⟩
    | cons w ws ih =>
        obtain ⟨⟨hne, hw⟩, hws⟩ := List.forall_mem_cons.1 h
        obtain ⟨c, w, rfl⟩ := List.exists_cons_of_ne_nil hne
        refine ⟨by simpa using hw c List.mem_cons_self, ?_⟩
        cases ws with
        | nil =>
            rw [List.intercalate_singleton]
            exact fun d hd => hw d (List.mem_of_mem_getLast? hd)
        | cons v ws =>
            obtain ⟨d, v, rfl⟩ := List.exists_cons_of_ne_nil (hws v List.mem_cons_self).1
            rw [List.intercalate_cons_cons, List.getLast?_append_of_ne_nil _ (by simp)]
            exact (ih hws).2
  exact trim_of_ends hends.1 hends.2

/-- Lines without breaks and without blanks at their ends are read back. -/
lemma contentLines_flatMap {ts : List (List Char)}
    (h : ∀ t ∈ ts, t ≠ [] ∧ strip t = t ∧ ∀ c ∈ t, isBreak c = false) :
    contentLines (ts.flatMap fun t => t ++ ['\n']) = ts := by
  have hlines : lines (ts.flatMap fun t => t ++ ['\n']) = ts := by
    induction ts with
    | nil => simp [lines, linesBy]
    | cons t ts ih =>
        obtain ⟨⟨-, -, ht⟩, hts⟩ := List.forall_mem_cons.1 h
        rw [List.flatMap_cons, List.append_assoc, List.singleton_append, lines,
          linesBy_append ht (by decide)]
        exact congrArg (t :: ·) (ih hts)
  rw [contentLines, hlines, List.map_congr_left fun t ht => (h t ht).2.1, List.map_id',
    List.filter_eq_self]
  exact fun t ht => by simpa using (h t ht).1

end LocalSat.Text
