/-
Folders of files.

* `Folder`: names with texts; `Folder.ofFiles` lets the later of two files with one name
  count;
* `Folder.inOrder`: the files by name, in the order of code points;
* `Folder.isFormulaName`, `Folder.isRecordName`: the names of formula files and of
  record files;
* `Folder.records`: the arrays in the record files, and a line for each record file that
  holds no array.
-/
import LocalSat.Fault

namespace LocalSat

/-- The files of a folder, by name and text. -/
structure Folder where
  /-- The files. -/
  files : List (String × String)
  deriving Repr, DecidableEq

namespace Folder

/-! ### Files by name -/

/-- The files with one of them written. A name that occurs gets the new text. -/
def write (f : Folder) (name text : String) : Folder :=
  ⟨f.files.filter (fun p => p.1 ≠ name) ++ [(name, text)]⟩

/-- The folder in which files have been written one after the other. -/
def ofFiles (files : List (String × String)) : Folder :=
  files.foldl (fun f p => f.write p.1 p.2) ⟨[]⟩

/-- The text of a file. -/
def text? (f : Folder) (name : String) : Option String := f.files.lookup name

/-- A file that was written holds what was written. -/
theorem text?_write (f : Folder) (name text : String) :
    (f.write name text).text? name = some text := by
  have absent : (f.files.filter fun p => p.1 ≠ name).lookup name = none := by
    rw [List.lookup_eq_none_iff]
    intro p hp
    have hne : p.1 ≠ name := by simpa using (List.mem_filter.1 hp).2
    simpa using Ne.symm hne
  unfold write text?
  rw [List.lookup_append, absent]
  simp

/-- A name stands before another one when it is smaller by code points. -/
def nameLe (a b : String) : Bool := !(b < a)

/-- The files in the order of their names. -/
def inOrder (f : Folder) : List (String × String) :=
  f.files.mergeSort fun p q => nameLe p.1 q.1

/-- The files whose names are of a class, in order. -/
def select (f : Folder) (p : String → Bool) : List (String × String) :=
  f.inOrder.filter fun file => p file.1

/-! ### Kinds of files -/

/-- Whether a name ends with an ending. -/
def hasEnding (name ending : String) : Bool := ending.toList.isSuffixOf name.toList

/-- The names of formula files, compressed or not. -/
def isFormulaName (name : String) : Bool := hasEnding name ".cnf" || hasEnding name ".cnf.gz"

/-- The names of record files. A name with a leading point is hidden. -/
def isRecordName (name : String) : Bool :=
  hasEnding name ".json" && name.toList.head? ≠ some '.'

/-! ### Records -/

/-- The line about a file without an array of records. The place of the folder is
given. -/
def skipLine (place name : String) : String :=
  "Skipping " ++ place ++ "/" ++ name ++ ": expected a list of dicts"

/-- The arrays in files with their names, and the lines about the other files. The
first file that is no document ends the reading. -/
def readRecords (place : String) : List (String × String) →
    List String × Except Fault (List (String × List Json))
  | [] => ([], .ok [])
  | (name, text) :: files =>
      match Json.parse text with
      | .error flaw => ([], .error (.json flaw))
      | .ok (.arr items) =>
          let (lines, rest) := readRecords place files
          (lines, rest.map fun records => (name, items) :: records)
      | .ok _ =>
          let (lines, rest) := readRecords place files
          (skipLine place name :: lines, rest)

/-- The arrays in the record files of a folder, and the lines about the other ones. -/
def records (f : Folder) (place : String) :
    List String × Except Fault (List (String × List Json)) :=
  readRecords place (f.select isRecordName)

end Folder

end LocalSat
