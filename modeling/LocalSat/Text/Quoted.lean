/-
Quoted text, as messages show it.

* `quoteMark`: an apostrophe, unless the text has apostrophes and no double quote;
* `quoted`: the text between two such marks; the mark and the backslash are
  escaped, and so are the characters that are not printable;
* `hex`: a number in lowercase hexadecimal of a given width.
-/
import LocalSat.Text.Printable

namespace LocalSat.Text

/-- The hexadecimal digit of a number below sixteen, in lower case. -/
def hexDigit (d : Nat) : Char :=
  if d < 10 then Char.ofNat (48 + d) else Char.ofNat (87 + d)

/-- The last `width` hexadecimal digits of a number, the most significant first. -/
def hex : (width : Nat) → Nat → List Char
  | 0, _ => []
  | w + 1, n => hexDigit (n >>> (4 * w) % 16) :: hex w n

/-- A hexadecimal numeral of width `w` has `w` digits. -/
@[simp] theorem length_hex (w n : Nat) : (hex w n).length = w := by
  induction w with
  | zero => rfl
  | succ w ih => simp [hex, ih]

/-- The mark around a quoted text. -/
def quoteMark (s : List Char) : Char :=
  if s.contains '\'' && !s.contains '"' then '"' else '\''

/-- A character inside a quoted text whose mark is `mark`. -/
def quotedChar (mark c : Char) : List Char :=
  if c == mark || c == '\\' then ['\\', c]
  else if c == '\n' then ['\\', 'n']
  else if c == '\r' then ['\\', 'r']
  else if c == '\t' then ['\\', 't']
  else if isPrintable c then [c]
  else
    let n := c.toNat
    if n < 0x100 then '\\' :: 'x' :: hex 2 n
    else if n < 0x10000 then '\\' :: 'u' :: hex 4 n
    else '\\' :: 'U' :: hex 8 n

/-- The text between two marks, with its special characters escaped. -/
def quoted (s : List Char) : List Char :=
  let mark := quoteMark s
  mark :: s.flatMap (quotedChar mark) ++ [mark]

end LocalSat.Text
