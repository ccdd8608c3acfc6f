/-
Flips by number, and the entries that are read as flips.

* `Flip`: a flip by its kind and the number of the literal that it makes true;
* `Entry`: a value that is to hold a kind and a literal;
* `Tally.ofEntries`: entries counted by kind.
-/
import LocalSat.Json.Convert
import LocalSat.Trace.Event

namespace LocalSat

/-- A flip by number. -/
structure Flip where
  /-- The kind of the flip. -/
  move : Move
  /-- The number of the literal that the flip makes true. -/
  literal : Int
  deriving Repr, DecidableEq

/-- A flip by number. -/
def Event.toFlip {n : Nat} (e : Event n) : Flip := ⟨e.move, e.literal.toInt⟩

/-! ### Entries -/

/-- A value that is to hold a kind and a literal. -/
structure Entry where
  /-- The value. -/
  value : Json

namespace Entry

/-- The entry of a flip. -/
def ofFlip (f : Flip) : Entry := ⟨.arr [.str f.move.text, .int f.literal]⟩

/-- The two parts of an entry. -/
def pair (e : Entry) : Except Fault (Json × Json) :=
  match e.value.items? with
  | none => .error .notIterable
  | some [kind, literal] => .ok (kind, literal)
  | some [] => .error (.shortEvent 0)
  | some [_] => .error (.shortEvent 1)
  | some _ => .error .longEvent

/-- The entry of a flip has its kind and its literal. -/
@[simp] theorem pair_ofFlip (f : Flip) :
    (ofFlip f).pair = .ok (.str f.move.text, .int f.literal) := rfl

/-- The kind that a value names. -/
def move? : Json → Option Move
  | .str (.plain s) => Move.ofText? s
  | _ => none

/-- The number of the literal that a value gives. -/
def literal : Json → Except Fault Int
  | .int i => .ok i
  | .bool b => .ok (if b then 1 else 0)
  | _ => .error .notNumeric

end Entry

/-! ### Counting -/

/-- The number of flips of each kind. -/
structure Tally where
  /-- The random flips. -/
  noise : Nat
  /-- The flips that broke least. -/
  greedy : Nat
  /-- The flips that broke nothing and were made first. -/
  zeroBreak : Nat
  deriving Repr, DecidableEq

namespace Tally

/-- One more flip of a kind. -/
def add (t : Tally) : Move → Tally
  | .noise => { t with noise := t.noise + 1 }
  | .greedy => { t with greedy := t.greedy + 1 }
  | .zeroBreak => { t with zeroBreak := t.zeroBreak + 1 }

/-- The kind of an entry that is to be counted. -/
def moveOf (e : Entry) : Except Fault Move := do
  let (kind, _) ← e.pair
  match kind, Entry.move? kind with
  | _, some move => pure move
  | .arr _, none => throw .kindNotKey
  | .obj _, none => throw .kindNotKey
  | _, none => throw (.uncountedKind kind)

/-- The number of entries of each kind. -/
def ofEntries (entries : List Entry) : Except Fault Tally :=
  entries.foldlM (fun t e => (moveOf e).map t.add) ⟨0, 0, 0⟩

end Tally

end LocalSat
