/-
Blanks, words and lines.

* `isBlank`: the characters that separate words, namely those with the property
  White_Space and the four information separators `U+001C` to `U+001F`;
* `isSpace`: the blanks that may surround the text of a number, which are the
  same without the information separators;
* `wordsBy`, `words`: the maximal runs of characters outside of a class, and of those
  that are not blank;
* `linesBy`, `lines`: the pieces between the breaks of a class, and between line breaks, a
  break being `\n`, `\r\n` or `\r`;
* `shownLines`: the lines that a printed line takes on a screen, where more characters
  than these break lines.
-/

namespace LocalSat.Text

/-! ### Blanks -/

/-- The property White_Space. -/
@[irreducible] def isSpace (c : Char) : Bool :=
  let n := c.toNat
  (9 ≤ n && n ≤ 13) || n == 32 || n == 0x85 || n == 0xA0 || n == 0x1680 ||
    (0x2000 ≤ n && n ≤ 0x200A) || n == 0x2028 || n == 0x2029 || n == 0x202F ||
    n == 0x205F || n == 0x3000

/-- The space is white space. -/
@[simp] theorem isSpace_space : isSpace ' ' = true := by decide +kernel

/-- A blank separates words: white space or an information separator. -/
def isBlank (c : Char) : Bool :=
  isSpace c || (0x1C ≤ c.toNat && c.toNat ≤ 0x1F)

/-- The blanks that lie in the ASCII range and are known to every line format:
space, tab, vertical tab and form feed. -/
def isLineBlank (c : Char) : Bool :=
  c == ' ' || c == '\t' || c.toNat == 11 || c.toNat == 12

/-- The text without the characters of the class `p` at both of its ends. -/
def trim (p : Char → Bool) (s : List Char) : List Char :=
  ((s.dropWhile p).reverse.dropWhile p).reverse

/-- The text without the blanks at both of its ends. -/
def strip (s : List Char) : List Char := trim isBlank s

/-! ### Words -/

/-- What is left after the characters of a class is no longer than before. -/
theorem length_dropWhile_le (p : Char → Bool) (s : List Char) :
    (s.dropWhile p).length ≤ s.length := by
  induction s with
  | nil => simp
  | cons c s ih =>
      by_cases h : p c
      · simpa [h] using Nat.le_succ_of_le ih
      · simp [h]

/-- The maximal runs of characters outside of a class. -/
def wordsBy (p : Char → Bool) : List Char → List (List Char)
  | [] => []
  | c :: s =>
      if p c then wordsBy p s
      else (c :: s.takeWhile fun d => !p d) :: wordsBy p (s.dropWhile fun d => !p d)
termination_by s => s.length
decreasing_by
  · exact Nat.lt_succ_self _
  · exact Nat.lt_succ_of_le (length_dropWhile_le _ s)

/-- The words of a text: its maximal runs of characters that are not blank. -/
def words (s : List Char) : List (List Char) := wordsBy isBlank s

/-- The empty text has no words. -/
@[simp] theorem wordsBy_nil (p : Char → Bool) : wordsBy p [] = [] := by simp [wordsBy]

/-- A separator at the front is skipped. -/
theorem wordsBy_cons {p : Char → Bool} {c : Char} (s : List Char) (h : p c = true) :
    wordsBy p (c :: s) = wordsBy p s := by
  simp [wordsBy, h]

/-! ### Lines -/

/-- A line break ends a line. -/
def isBreak (c : Char) : Bool := c == '\n' || c == '\r'

/-- The text after the line break at its front. -/
def afterBreak : List Char → List Char
  | '\r' :: '\n' :: s => s
  | _ :: s => s
  | [] => []

/-- Taking a line off a text that is not empty leaves less of it. -/
theorem length_afterBreak_lt (p : Char → Bool) (c : Char) (s : List Char) :
    (afterBreak ((c :: s).dropWhile fun d => !p d)).length < (c :: s).length := by
  have hlt : ∀ t : List Char, t ≠ [] → (afterBreak t).length < t.length := by
    intro t ht
    fun_cases afterBreak t
    · exact Nat.lt_succ_of_lt (Nat.lt_succ_self _)
    · exact Nat.lt_succ_self _
    · exact absurd rfl ht
  have hle : ∀ t : List Char, (afterBreak t).length ≤ t.length := by
    intro t
    fun_cases afterBreak t
    · exact Nat.le_add_right _ 2
    · exact Nat.le_add_right _ 1
    · exact Nat.le_refl _
  by_cases h : p c
  · have hd : (c :: s).dropWhile (fun d => !p d) = c :: s := by simp [h]
    rw [hd]; exact hlt _ (List.cons_ne_nil c s)
  · have hd : (c :: s).dropWhile (fun d => !p d) = s.dropWhile (fun d => !p d) := by simp [h]
    rw [hd]
    exact Nat.lt_succ_of_le (Nat.le_trans (hle _) (length_dropWhile_le _ s))

/-- The lines of a text, which end with characters of a class. Text after the last break
is a line when there is any. -/
def linesBy (p : Char → Bool) : List Char → List (List Char)
  | [] => []
  | c :: s =>
      ((c :: s).takeWhile fun d => !p d) ::
        linesBy p (afterBreak ((c :: s).dropWhile fun d => !p d))
termination_by s => s.length
decreasing_by exact length_afterBreak_lt p c s

/-- The lines of a text. -/
def lines (s : List Char) : List (List Char) := linesBy isBreak s

/-- The lines of a text that hold more than blanks, without the blanks around them. -/
def contentLines (s : List Char) : List (List Char) :=
  ((lines s).map strip).filter fun l => !l.isEmpty

/-- The characters that break a line on a screen: line breaks, the vertical tab, the form
feed, three of the information separators and the separators of lines and paragraphs. -/
def isScreenBreak (c : Char) : Bool :=
  let n := c.toNat
  (10 ≤ n && n ≤ 13) || (0x1C ≤ n && n ≤ 0x1E) || n == 0x85 || n == 0x2028 || n == 0x2029

/-- The lines that a printed line takes on a screen. -/
def shownLines (s : List Char) : List (List Char) := linesBy isScreenBreak (s ++ ['\n'])

end LocalSat.Text
