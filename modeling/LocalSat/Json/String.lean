/-
Strings of documents.

* `JsonString`: a string, or code points of which some are halves of pairs that stand by
  themselves, which documents can hold and strings cannot;
* `JsonString.ofPoints`: code points as a string whenever they are one;
  `points_ofPoints` says that none of them is lost;
* `JsonString.toString`: the string, in which halves are replaced.
-/

namespace LocalSat

/-- A string of a document. -/
inductive JsonString where
  /-- A string of characters. -/
  | plain (s : String)
  /-- Code points, of which some are no characters but halves of pairs. -/
  | halved (points : List Nat)
  deriving Repr, DecidableEq, Inhabited

/-- A string is one of a document. -/
instance : Coe String JsonString := ⟨.plain⟩

namespace JsonString

/-- The code points. -/
def points : JsonString → List Nat
  | plain s => s.toList.map Char.toNat
  | halved points => points

/-- Whether a code point is a character. -/
def isCharacter (n : Nat) : Bool := decide n.isValidChar

/-- The string of code points. -/
def ofPoints (points : List Nat) : JsonString :=
  if points.all isCharacter then plain (String.ofList (points.map Char.ofNat)) else halved points

/-- The number of a character is a character. -/
theorem toNat_ofNat_of_isCharacter {n : Nat} (h : isCharacter n = true) :
    (Char.ofNat n).toNat = n := by
  have hn : n.isValidChar := of_decide_eq_true h
  rw [Char.ofNat, dif_pos hn]
  rfl

/-- The string of code points has these code points. -/
@[simp] theorem points_ofPoints (ns : List Nat) : (ofPoints ns).points = ns := by
  unfold ofPoints
  split
  · next h =>
    have h' := List.all_eq_true.1 h
    simp only [points, String.toList_ofList, List.map_map]
    conv => rhs; rw [← List.map_id ns]
    exact List.map_congr_left fun n hn => toNat_ofNat_of_isCharacter (h' n hn)
  · rfl

/-- The number of code points. -/
def length (s : JsonString) : Nat := s.points.length

/-- Whether there is no code point. -/
def isEmpty (s : JsonString) : Bool := s.points.isEmpty

/-- The code points one by one, each as a string. -/
def pieces (s : JsonString) : List JsonString := s.points.map fun n => ofPoints [n]

/-- The string. In place of a half it has the character for what cannot be shown. -/
def toString (s : JsonString) : String :=
  match s with
  | plain s => s
  | halved points =>
      String.ofList (points.map fun n => if isCharacter n then Char.ofNat n else '\uFFFD')

end JsonString

end LocalSat
