/-
Words with blanks between them.

* `wordsBy_append`: the words on both sides of a separator; `wordsBy_of_forall`: a text without
  separators is a word; `exists_of_wordsBy_eq_cons`: where the first word of a text stands in it;
* `words_intercalate`: the words of texts that are joined by blanks, which are read back when each
  of them is a word: `words_intercalate_self`; `intercalate_append`: they may be joined in two
  parts; `intercalate_ofList`: or as strings; `forall_mem_intercalate`: all characters of such a
  text.
-/
import LocalSat.Text.Blank
import Mathlib.Data.List.Basic
import Mathlib.Data.List.TakeWhile

namespace LocalSat.Text

variable {p : Char → Bool} {w s : List Char}

/-! ### Separators -/

/-- What is taken from the front of a text does not go beyond a stop in it. -/
lemma takeWhile_append_cons {q : Char → Bool} {c : Char} (hc : q c = false) (s t : List Char) :
    (s ++ c :: t).takeWhile q = s.takeWhile q := by
  induction s with
  | nil => exact List.takeWhile_cons_of_neg (by simp [hc])
  | cons d s ih => rw [List.cons_append, List.takeWhile_cons, List.takeWhile_cons, ih]

/-- So the stop and what comes after it are left. -/
lemma dropWhile_append_cons {q : Char → Bool} {c : Char} (hc : q c = false) (s t : List Char) :
    (s ++ c :: t).dropWhile q = s.dropWhile q ++ c :: t := by
  induction s with
  | nil => exact List.dropWhile_cons_of_neg (by simp [hc])
  | cons d s ih =>
      rw [List.cons_append, List.dropWhile_cons, List.dropWhile_cons, ih]
      split <;> rfl

/-- The words of a text are those on both sides of a separator. -/
lemma wordsBy_append {c : Char} (hc : p c = true) (s t : List Char) :
    wordsBy p (s ++ c :: t) = wordsBy p s ++ wordsBy p t := by
  have hstop : (!p c) = false := by rw [hc]; rfl
  fun_induction wordsBy p s with
  | case1 => exact wordsBy_cons t hc
  | case2 d s hd ih => rw [List.cons_append, wordsBy_cons _ hd, ih]
  | case3 d s hd ih =>
      rw [List.cons_append, wordsBy, if_neg hd, takeWhile_append_cons hstop,
        dropWhile_append_cons hstop, ih, List.cons_append]

/-- A text without separators is a single word, unless it is empty. -/
lemma wordsBy_of_forall (hne : w ≠ []) (hw : ∀ c ∈ w, p c = false) : wordsBy p w = [w] := by
  obtain ⟨c, w, rfl⟩ := List.exists_cons_of_ne_nil hne
  obtain ⟨hc, hw⟩ := List.forall_mem_cons.1 hw
  have htake : w.takeWhile (fun d => !p d) = w :=
    List.takeWhile_eq_self_iff.2 fun d hd => by simp [hw d hd]
  have hdrop : w.dropWhile (fun d => !p d) = [] :=
    List.dropWhile_eq_nil_iff.2 fun d hd => by simp [hw d hd]
  rw [wordsBy, if_neg (by simp [hc]), htake, hdrop, wordsBy_nil]

/-- A text without words holds only separators. -/
lemma forall_of_wordsBy_eq_nil (h : wordsBy p s = []) : ∀ c ∈ s, p c = true := by
  fun_induction wordsBy p s with
  | case1 => exact nofun
  | case2 c s hc ih => exact List.forall_mem_cons.2 ⟨hc, ih h⟩
  | case3 => cases h

/-- A text with words starts with separators and its first word, after which it ends, or a
separator follows. The other words are those of the rest. -/
lemma exists_of_wordsBy_eq_cons {ws : List (List Char)} (h : wordsBy p s = w :: ws) :
    ∃ b r, s = b ++ (w ++ r) ∧ (∀ c ∈ b, p c = true) ∧ w ≠ [] ∧ (∀ c ∈ w, p c = false)
      ∧ (∀ c ∈ r.head?, p c = true) ∧ wordsBy p r = ws := by
  fun_induction wordsBy p s with
  | case1 => cases h
  | case2 c s hc ih =>
      obtain ⟨b, r, rfl, hb, hrest⟩ := ih h
      exact ⟨c :: b, r, rfl, List.forall_mem_cons.2 ⟨hc, hb⟩, hrest⟩
  | case3 c s hc ih =>
      obtain ⟨rfl, rfl⟩ := List.cons.inj h
      refine ⟨[], s.dropWhile fun d => !p d, ?_, nofun, List.cons_ne_nil _ _, ?_, ?_, rfl⟩
      · rw [List.nil_append, List.cons_append, List.takeWhile_append_dropWhile]
      · refine List.forall_mem_cons.2 ⟨by simpa using hc, fun d hd => ?_⟩
        simpa using List.mem_takeWhile_imp hd
      · intro d hd
        have hstop := List.head?_dropWhile_not (fun d => !p d) s
        rw [Option.mem_def.1 hd] at hstop
        simpa using hstop

/-! ### Joined words -/

/-- The words of texts that are joined by blanks are those of one text after the other. -/
lemma words_intercalate (ts : List (List Char)) :
    words ([' '].intercalate ts) = ts.flatMap words := by
  have hblank : isBlank ' ' = true := by simp [isBlank]
  induction ts with
  | nil => exact wordsBy_nil _
  | cons t ts ih =>
      cases ts with
      | nil => rw [List.intercalate_singleton, List.flatMap_singleton]
      | cons u ts =>
          rw [List.intercalate_cons_cons, List.append_assoc, List.singleton_append, words,
            wordsBy_append hblank, List.flatMap_cons, ← ih]
          rfl

/-- Words that are joined by blanks are read back. -/
lemma words_intercalate_self {ws : List (List Char)}
    (h : ∀ w ∈ ws, w ≠ [] ∧ ∀ c ∈ w, isBlank c = false) :
    words ([' '].intercalate ws) = ws := by
  calc words ([' '].intercalate ws)
      = ws.flatMap words := words_intercalate ws
    _ = ws.flatMap fun w => [w] :=
        List.flatMap_congr fun w hw => wordsBy_of_forall (h w hw).1 (h w hw).2
    _ = ws := List.flatMap_singleton' ws

/-- Words are joined in two parts. -/
lemma intercalate_append {ws vs : List (List Char)} (hws : ws ≠ []) (hvs : vs ≠ []) :
    [' '].intercalate (ws ++ vs) = [' '].intercalate ws ++ ' ' :: [' '].intercalate vs := by
  induction ws with
  | nil => exact absurd rfl hws
  | cons w ws ih =>
      cases ws with
      | nil =>
          rw [List.singleton_append, List.intercalate_cons_of_ne_nil hvs,
            List.intercalate_singleton, List.append_assoc, List.singleton_append]
      | cons w' ws =>
          rw [List.cons_append, List.intercalate_cons_of_ne_nil (by simp), ih (by simp),
            List.intercalate_cons_cons, List.append_assoc, List.append_assoc, List.append_assoc]

/-- Strings are joined as texts are. -/
lemma intercalate_ofList (ts : List (List Char)) :
    " ".intercalate (ts.map String.ofList) = String.ofList ([' '].intercalate ts) := by
  have hsame : String.toList ∘ String.ofList = id := funext fun _ => String.toList_ofList
  rw [← String.toList_inj, String.toList_intercalate, List.map_map, hsame, List.map_id]
  exact String.toList_ofList.symm

/-- What holds of the blank and of all characters of words holds of the words joined by blanks. -/
lemma forall_mem_intercalate {P : Char → Prop} {ws : List (List Char)} (hblank : P ' ')
    (h : ∀ w ∈ ws, ∀ c ∈ w, P c) : ∀ c ∈ [' '].intercalate ws, P c := by
  induction ws with
  | nil => exact nofun
  | cons w ws ih =>
      rw [List.forall_mem_cons] at h
      cases ws with
      | nil => simpa using h.1
      | cons v ws =>
          rw [List.intercalate_cons_cons, List.forall_mem_append, List.forall_mem_append,
            List.forall_mem_singleton]
          exact ⟨⟨h.1, hblank⟩, ih h.2⟩

end LocalSat.Text
