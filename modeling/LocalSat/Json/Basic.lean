/-
JSON values.

* `Json`: the values, with integers of any size apart from floating-point numbers;
  the fields of an object keep their order. Bytes are values as well, although no document
  holds any;
* `Json.put`: a field set by name; a name that is there already keeps its place;
* `Json.get?`: a field read by name;
* `Json.isTruthy`: every value but null, false, zero and what is empty;
* `Json.holdsBytes`: whether there are bytes anywhere inside of a value.
-/
import LocalSat.Json.String

namespace LocalSat

/-- A JSON value, or bytes. The fields of an object are in the order in which they came. -/
inductive Json where
  /-- The value null. -/
  | null
  /-- True or false. -/
  | bool (b : Bool)
  /-- A number without a fraction or an exponent. -/
  | int (i : Int)
  /-- A number with a fraction or an exponent. -/
  | float (x : Float)
  /-- A text. -/
  | str (s : JsonString)
  /-- Bytes. -/
  | bytes (content : List UInt8)
  /-- An array. -/
  | arr (items : List Json)
  /-- An object. -/
  | obj (fields : List (JsonString × Json))
  deriving Repr, Inhabited

namespace Json

/-- The fields with one of them set. A name that occurs keeps its place. -/
def put (name : JsonString) (value : Json) : List (JsonString × Json) → List (JsonString × Json)
  | [] => [(name, value)]
  | (n, v) :: fields =>
      if n = name then (name, value) :: fields else (n, v) :: put name value fields

/-- A new name is put at the end. -/
theorem put_of_not_mem {name : JsonString} (value : Json) {fields : List (JsonString × Json)}
    (h : name ∉ fields.map (·.1)) : put name value fields = fields ++ [(name, value)] := by
  induction fields with
  | nil => rfl
  | cons p fields ih =>
      obtain ⟨n, v⟩ := p
      simp only [List.map_cons, List.mem_cons, not_or] at h
      simp [put, Ne.symm h.1, ih h.2]

/-- The field of an object with a given name; none for other values. -/
def get? (name : JsonString) : Json → Option Json
  | obj fields => fields.lookup name
  | _ => none

/-- Every value counts as true but null, false, zero and what is empty. -/
def isTruthy : Json → Bool
  | null => false
  | bool b => b
  | int i => i != 0
  | float x => x != 0
  | str s => !s.isEmpty
  | bytes content => !content.isEmpty
  | arr items => !items.isEmpty
  | obj fields => !fields.isEmpty

mutual

/-- Whether there are bytes anywhere inside of a value. -/
def holdsBytes : Json → Bool
  | bytes _ => true
  | arr items => itemsHoldBytes items
  | obj fields => fieldsHoldBytes fields
  | _ => false

/-- Whether there are bytes inside of one of the items. -/
def itemsHoldBytes : List Json → Bool
  | [] => false
  | v :: items => holdsBytes v || itemsHoldBytes items

/-- Whether there are bytes inside of one of the fields. -/
def fieldsHoldBytes : List (JsonString × Json) → Bool
  | [] => false
  | (_, v) :: fields => holdsBytes v || fieldsHoldBytes fields

end

end Json

end LocalSat
