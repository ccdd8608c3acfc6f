/-
Text in columns.

* `alignRight`: blanks in front, up to a width;
* `alignLeft`: blanks behind, up to a width.
-/

namespace LocalSat.Text

/-- The text at the right end of a column; a longer text is kept whole. -/
def alignRight (width : Nat) (s : String) : String :=
  String.ofList (List.replicate (width - s.length) ' ') ++ s

/-- The text at the left end of a column; a longer text is kept whole. -/
def alignLeft (width : Nat) (s : String) : String :=
  s ++ String.ofList (List.replicate (width - s.length) ' ')

end LocalSat.Text
