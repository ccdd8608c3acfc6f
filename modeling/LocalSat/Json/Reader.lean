/-
Reading JSON.

* `Json.readString?`: the code points of a string up to its closing quote;
* `Json.readNumber`: an integer, or a float when there is a fraction or an exponent;
* `Json.readValue`: one value and the text after it;
* `Json.parse`: a document, which is one value between blanks. Besides decimals the
  words `NaN`, `Infinity` and `-Infinity` are numbers; of two fields with one name the
  later value counts.
-/
import LocalSat.Json.Basic
import LocalSat.Number.Decimal
import LocalSat.Number.Integer

namespace LocalSat.Json

open LocalSat.Text LocalSat.Number

/-- Why a text is no document. -/
inductive Flaw where
  /-- The text breaks the grammar. -/
  | malformed
  /-- An integer has more digits than may be read. -/
  | tooLong (digits : Nat)
  deriving Repr, DecidableEq

/-- The blanks between the parts of a document. -/
def isGap (c : Char) : Bool := c == ' ' || c == '\n' || c == '\r' || c == '\t'

/-- The text after the blanks in front of it. -/
def skipGap (s : List Char) : List Char := s.dropWhile isGap

/-! ### Strings -/

/-- The value of a hexadecimal digit. -/
def hexValue? (c : Char) : Option Nat :=
  if '0' ≤ c ∧ c ≤ '9' then some (c.toNat - 48)
  else if 'a' ≤ c ∧ c ≤ 'f' then some (c.toNat - 87)
  else if 'A' ≤ c ∧ c ≤ 'F' then some (c.toNat - 55)
  else none

/-- The value of four hexadecimal digits. -/
def unitValue? (a b c d : Char) : Option Nat := do
  let a ← hexValue? a
  let b ← hexValue? b
  let c ← hexValue? c
  let d ← hexValue? d
  pure (((a * 16 + b) * 16 + c) * 16 + d)

/-- The character that follows a backslash in an escape of two characters. -/
def unescape? : Char → Option Char
  | '"' => some '"'
  | '\\' => some '\\'
  | '/' => some '/'
  | 'b' => some '\x08'
  | 'f' => some '\x0c'
  | 'n' => some '\n'
  | 'r' => some '\r'
  | 't' => some '\t'
  | _ => none

/-- Reads the second half of a pair of units, if it is there. -/
def lowHalf? : List Char → Option (Nat × List Char)
  | '\\' :: 'u' :: a :: b :: c :: d :: s =>
      match unitValue? a b c d with
      | some n => if 0xDC00 ≤ n ∧ n ≤ 0xDFFF then some (n, s) else none
      | none => none
  | _ => none

/-- What is read of a pair leaves less text. -/
theorem length_lowHalf? {s r : List Char} {n : Nat} (h : lowHalf? s = some (n, r)) :
    r.length < s.length := by
  unfold lowHalf? at h
  split at h
  · split at h
    · split at h
      · cases h
        simp
        omega
      · cases h
    · cases h
  · cases h

/-- Reads the code points of a string after its opening quote. The ones read before are
in reverse order. Two halves of a pair are one code point, and a half by itself is kept as
it is. -/
def readString? (before : List Nat) : List Char → Option (List Nat × List Char)
  | [] => none
  | '"' :: s => some (before.reverse, s)
  | '\\' :: 'u' :: a :: b :: c :: d :: s =>
      match unitValue? a b c d with
      | none => none
      | some n =>
          if 0xD800 ≤ n ∧ n ≤ 0xDBFF then
            match h : lowHalf? s with
            | some (m, r) =>
                readString? ((0x10000 + (n - 0xD800) * 0x400 + (m - 0xDC00)) :: before) r
            | none => readString? (n :: before) s
          else readString? (n :: before) s
  | '\\' :: c :: s =>
      match unescape? c with
      | some d => readString? (d.toNat :: before) s
      | none => none
  | c :: s => if c.toNat < 32 then none else readString? (c.toNat :: before) s
termination_by s => s.length
decreasing_by
  · have := length_lowHalf? h
    simp
    omega
  all_goals
    simp
    try omega

/-! ### Numbers -/

/-- A digit of a number. -/
def isDecimal (c : Char) : Bool := '0' ≤ c && c ≤ '9'

/-- The digits of a whole part: a zero alone, or digits of which the first is no zero. -/
def wholeDigits : List Char → List Char
  | '0' :: _ => ['0']
  | s => s.takeWhile isDecimal

/-- The digits after a point; empty when there is no point or no digit follows it. -/
def fractionDigits : List Char → List Char
  | '.' :: s => s.takeWhile isDecimal
  | _ => []

/-- An exponent of ten, with the number of characters it takes. -/
def exponent? : List Char → Option (Int × Nat)
  | c :: s =>
      if c == 'e' || c == 'E' then
        let (negative, skip) : Bool × Nat :=
          match s with
          | '-' :: _ => (true, 1)
          | '+' :: _ => (false, 1)
          | _ => (false, 0)
        let digits := (s.drop skip).takeWhile isDecimal
        if digits.isEmpty then none
        else
          let n : Int := digitsValue digits
          some (if negative then -n else n, 1 + skip + digits.length)
      else none
  | [] => none

/-- Reads a number without its sign. -/
def readNumber (negative : Bool) (s : List Char) : Except Flaw (Json × List Char) :=
  let whole := wholeDigits s
  if whole.isEmpty then .error .malformed
  else
    let s₁ := s.drop whole.length
    let fraction := fractionDigits s₁
    let s₂ := if fraction.isEmpty then s₁ else s₁.drop (fraction.length + 1)
    let real (e : Int) : Json :=
      float (ofDecimal negative (digitsValue (whole ++ fraction)) (e - fraction.length))
    match exponent? s₂ with
    | some (e, taken) => .ok (real e, s₂.drop taken)
    | none =>
        if !fraction.isEmpty then .ok (real 0, s₂)
        else if digitLimit < whole.length then .error (.tooLong whole.length)
        else
          let n : Int := digitsValue whole
          .ok (int (if negative then -n else n), s₂)

/-! ### Values -/

/-- The text after a word in front of it. -/
def afterWord? : (word : List Char) → List Char → Option (List Char)
  | [], s => some s
  | c :: w, d :: s => if c = d then afterWord? w s else none
  | _ :: _, [] => none

/-- The words that are values. -/
def wordValues : List (List Char × Json) :=
  [("null".toList, null), ("true".toList, bool true), ("false".toList, bool false),
    ("NaN".toList, float nan), ("Infinity".toList, float (infinity false)),
    ("-Infinity".toList, float (infinity true))]

/-- Reads a word or a number. -/
def readScalar (s : List Char) : Except Flaw (Json × List Char) :=
  match wordValues.findSome? fun (w, v) => (afterWord? w s).map fun r => (v, r) with
  | some found => .ok found
  | none =>
      match s with
      | '-' :: r => readNumber true r
      | r => readNumber false r

/-- Reads the name of a field up to the colon after it. -/
def readName (s : List Char) : Except Flaw (JsonString × List Char) :=
  match s with
  | '"' :: r =>
      match readString? [] r with
      | some (name, t) =>
          match skipGap t with
          | ':' :: u => .ok (.ofPoints name, skipGap u)
          | _ => .error .malformed
      | none => .error .malformed
  | _ => .error .malformed

mutual

/-- Reads a value at the front of a text, with at most `fuel` steps. -/
def readValue : (fuel : Nat) → List Char → Except Flaw (Json × List Char)
  | 0, _ => .error .malformed
  | fuel + 1, s =>
      match s with
      | '"' :: r =>
          match readString? [] r with
          | some (t, rest) => .ok (str (.ofPoints t), rest)
          | none => .error .malformed
      | '[' :: r =>
          match skipGap r with
          | ']' :: rest => .ok (arr [], rest)
          | t => (readItems fuel t).map fun (items, rest) => (arr items, rest)
      | '\x7b' :: r =>
          match skipGap r with
          | '\x7d' :: rest => .ok (obj [], rest)
          | t => (readFields fuel [] t).map fun (fields, rest) => (obj fields, rest)
      | t => readScalar t

/-- Reads the items of an array that is not empty, up to its closing bracket. -/
def readItems : (fuel : Nat) → List Char → Except Flaw (List Json × List Char)
  | 0, _ => .error .malformed
  | fuel + 1, s =>
      match readValue fuel s with
      | .error e => .error e
      | .ok (v, r) =>
          match skipGap r with
          | ']' :: rest => .ok ([v], rest)
          | ',' :: t =>
              (readItems fuel (skipGap t)).map fun (items, rest) => (v :: items, rest)
          | _ => .error .malformed

/-- Reads the fields of an object that is not empty, up to its closing brace. The fields
read before are given. -/
def readFields : (fuel : Nat) → List (JsonString × Json) → List Char →
    Except Flaw (List (JsonString × Json) × List Char)
  | 0, _, _ => .error .malformed
  | fuel + 1, before, s =>
      match readName s with
      | .error e => .error e
      | .ok (name, t) =>
          match readValue fuel t with
          | .error e => .error e
          | .ok (v, r) =>
              let fields := put name v before
              match skipGap r with
              | '\x7d' :: rest => .ok (fields, rest)
              | ',' :: u => readFields fuel fields (skipGap u)
              | _ => .error .malformed

end

/-- Reads a document. Every step of reading takes a character or hands the text on once,
so that twice the length of the text is enough of them. -/
def parse (text : String) : Except Flaw Json :=
  let s := skipGap text.toList
  match readValue (2 * s.length + 2) s with
  | .error e => .error e
  | .ok (v, rest) => if (skipGap rest).isEmpty then .ok v else .error .malformed

end LocalSat.Json
