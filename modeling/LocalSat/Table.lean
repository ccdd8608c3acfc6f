/-
Tables: a value for each index below a bound.

* `Table n α`: the values of `n` indices;
* `Table.write`: the table with the value of one index changed; `get_write` says what is
  read after it.
-/

namespace LocalSat

/-- A value for each index below `n`. -/
abbrev Table (n : Nat) (α : Type) := Vector α n

namespace Table

variable {n : Nat} {α : Type}

/-- The table with the value of one index changed. -/
def write (t : Table n α) (i : Fin n) (a : α) : Table n α := t.set i.val a i.isLt

/-- What an index has is what its number has. -/
theorem get_eq_getElem (t : Table n α) (i : Fin n) : t.get i = getElem t i.val i.isLt := rfl

/-- Only the index that is written changes its value. -/
@[simp] theorem get_write (t : Table n α) (i j : Fin n) (a : α) :
    (t.write i a).get j = if i = j then a else t.get j := by
  simp only [get_eq_getElem, write, Vector.getElem_set, Fin.ext_iff]

/-- Every index of a constant table has its value. -/
@[simp] theorem get_replicate (a : α) (i : Fin n) : (Vector.replicate n a).get i = a := by
  rw [get_eq_getElem, Vector.getElem_replicate]

end Table

end LocalSat
