/-
Numbers out of records.

* `readMetric`: a finite number under a name of an object, or nothing;
* `statistics`: the statistics of a run in a record.
-/
import LocalSat.Json.Convert

namespace LocalSat.Analysis

/-- The finite number that a value gives. What is no number gives none, but an integer
beyond all floats is a failure. -/
def finiteNumber (value : Json) : Except Fault (Option Float) :=
  match value with
  | .null => .ok none
  | .bool _ => .ok none
  | _ =>
      match value.toFloat with
      | .ok x => .ok (if x.isFinite then some x else none)
      | .error .beyondFloats => .error .beyondFloats
      | .error _ => .ok none

/-- The finite number under a name. Only objects have numbers under names. -/
def readMetric (block : Json) (name : JsonString) : Except Fault (Option Float) :=
  match block.get? name with
  | some value => finiteNumber value
  | none => .ok none

/-- The finite number under the name that a value gives, which must be one that can be
looked up. -/
def readMetricOf (block name : Json) : Except Fault (Option Float) :=
  match block, name with
  | .obj _, .str s => readMetric block s
  | .obj _, .arr _ => .error .notNumeric
  | .obj _, .obj _ => .error .notNumeric
  | _, _ => .ok none

/-- The statistics of a run in a record, which count as empty when they are missing or
false. -/
def statistics (record : Json) : Except Fault Json :=
  match record with
  | .obj _ =>
      match record.get? "walksat_stats" with
      | some (.obj fields) => .ok (.obj fields)
      | some value => if value.isTruthy then .error .notObject else .ok (.obj [])
      | none => .ok (.obj [])
  | _ => .error .notObject

end LocalSat.Analysis
