/-
JSON text.

* `Json.escape`: a character inside a string; only printable ASCII stands for itself;
* `Json.render`: one item or field a line, four blanks for each level;
* `Json.document`: the text of a value, unless there are bytes in it.
-/
import LocalSat.Fault

namespace LocalSat.Json

open LocalSat.Text LocalSat.Number

/-! ### Strings -/

/-- A unit of sixteen bits as an escape. -/
def escapeUnit (n : Nat) : List Char := '\\' :: 'u' :: hex 4 n

/-- A character inside a string. Characters beyond sixteen bits take two units. -/
def escape (c : Char) : List Char :=
  if c = '"' then ['\\', '"']
  else if c = '\\' then ['\\', '\\']
  else if c = '\n' then ['\\', 'n']
  else if c = '\r' then ['\\', 'r']
  else if c = '\t' then ['\\', 't']
  else if c = '\x08' then ['\\', 'b']
  else if c = '\x0c' then ['\\', 'f']
  else if 32 ≤ c.toNat ∧ c.toNat ≤ 126 then [c]
  else if c.toNat < 0x10000 then escapeUnit c.toNat
  else
    let n := c.toNat - 0x10000
    escapeUnit (0xD800 + n / 0x400) ++ escapeUnit (0xDC00 + n % 0x400)

/-- A code point inside a string. The half of a pair is written as the unit that it is. -/
def escapePoint (n : Nat) : List Char :=
  if JsonString.isCharacter n then escape (Char.ofNat n) else escapeUnit n

/-- A string between its quotes. -/
def stringText : JsonString → List Char
  | .plain s => '"' :: (s.toList.flatMap escape ++ ['"'])
  | .halved points => '"' :: (points.flatMap escapePoint ++ ['"'])

/-! ### Values -/

/-- A floating-point number; the three values that are no decimals have words of their
own. -/
def numberText (x : Float) : List Char :=
  if x.isNaN then "NaN".toList
  else if x.isInf then (if isNegative x then "-Infinity".toList else "Infinity".toList)
  else floatText x

/-- A line break and the blanks of a level. -/
def newline (level : Nat) : List Char := '\n' :: List.replicate (4 * level) ' '

mutual

/-- The text of a value that stands at a given level. Bytes have none. -/
def render (level : Nat) : Json → List Char
  | null => "null".toList
  | bool true => "true".toList
  | bool false => "false".toList
  | int i => intText i
  | float x => numberText x
  | str s => stringText s
  | bytes _ => []
  | arr [] => ['[', ']']
  | arr (v :: items) =>
      '[' :: newline (level + 1) ++ render (level + 1) v ++ renderItems (level + 1) items ++
        newline level ++ [']']
  | obj [] => ['\x7b', '\x7d']
  | obj ((name, v) :: fields) =>
      '\x7b' :: newline (level + 1) ++ stringText name ++ ':' :: ' ' :: render (level + 1) v ++
        renderFields (level + 1) fields ++ newline level ++ ['\x7d']

/-- The items of an array after its first one. -/
def renderItems (level : Nat) : List Json → List Char
  | [] => []
  | v :: items => ',' :: newline level ++ render level v ++ renderItems level items

/-- The fields of an object after its first one. -/
def renderFields (level : Nat) : List (JsonString × Json) → List Char
  | [] => []
  | (name, v) :: fields =>
      ',' :: newline level ++ stringText name ++ ':' :: ' ' :: render level v ++
        renderFields level fields

end

/-- The text of a document. -/
def documentText (v : Json) : String := String.ofList (render 0 v)

/-- The text of a value as a document, which cannot hold bytes. -/
def document (v : Json) : Except Fault String :=
  if v.holdsBytes then .error .bytesInDocument else .ok (documentText v)

end LocalSat.Json
