/-
JSON values inside messages.

* `JsonString.quoted`, `quotedBytes`: strings between marks; of bytes only the printable
  ASCII characters stand for themselves;
* `Json.display`: the three words start with a capital letter, strings are quoted, and the
  parts of a container follow each other on one line;
* `Json.plainString`: the same without quotes around a string that stands by itself.
-/
import LocalSat.Json.Basic
import LocalSat.Number.Shortest
import LocalSat.Text.Quoted

namespace LocalSat

open LocalSat.Text LocalSat.Number

/-! ### Strings -/

/-- A code point inside a quoted text. A half of a pair has no character to show. -/
def quotedPoint (mark : Char) (n : Nat) : List Char :=
  if JsonString.isCharacter n then quotedChar mark (Char.ofNat n) else '\\' :: 'u' :: hex 4 n

/-- A string between two marks. -/
def JsonString.quoted : JsonString → List Char
  | plain s => Text.quoted s.toList
  | halved points =>
      let mark := quoteMark (points.map Char.ofNat)
      mark :: points.flatMap (quotedPoint mark) ++ [mark]

/-- A byte inside quoted bytes. -/
def quotedByte (mark : Char) (b : UInt8) : List Char :=
  if 128 ≤ b then '\\' :: 'x' :: hex 2 b.toNat else quotedChar mark (Char.ofNat b.toNat)

/-- Bytes between two marks, after the letter for bytes. -/
def quotedBytes (content : List UInt8) : List Char :=
  let mark := quoteMark (content.map fun b => Char.ofNat b.toNat)
  'b' :: mark :: content.flatMap (quotedByte mark) ++ [mark]

/-! ### Values -/

namespace Json

mutual

/-- The text of a value inside a message. -/
def display : Json → List Char
  | null => "None".toList
  | bool true => "True".toList
  | bool false => "False".toList
  | int i => intText i
  | float x => floatText x
  | str s => s.quoted
  | bytes content => quotedBytes content
  | arr [] => ['[', ']']
  | arr (v :: items) => '[' :: display v ++ displayItems items ++ [']']
  | obj [] => ['\x7b', '\x7d']
  | obj ((name, v) :: fields) =>
      '\x7b' :: name.quoted ++ ':' :: ' ' :: display v ++ displayFields fields ++ ['\x7d']

/-- The items of an array after its first one. -/
def displayItems : List Json → List Char
  | [] => []
  | v :: items => ',' :: ' ' :: display v ++ displayItems items

/-- The fields of an object after its first one. -/
def displayFields : List (JsonString × Json) → List Char
  | [] => []
  | (name, v) :: fields =>
      ',' :: ' ' :: name.quoted ++ ':' :: ' ' :: display v ++ displayFields fields

end

/-- The text of a value inside a message, as a string. -/
def displayString (v : Json) : String := String.ofList v.display

/-- The text of a value that stands by itself: a string has no quotes. -/
def plainString : Json → String
  | str s => s.toString
  | v => v.displayString

end Json

end LocalSat
