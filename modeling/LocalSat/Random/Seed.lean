/-
Seeds of 64 bits and their bytes.

* `checkSeed`, `seedOf`: an integer, and any value, as a seed;
* `seedBytes`: the eight bytes of a seed, the lowest one first;
* `seedOfBytes`: the seed in the first eight bytes of a sequence; `ofBytes_lowBytes` says
  that nothing is lost between them.
-/
import LocalSat.Json.Convert

namespace LocalSat

/-- The seed that an integer gives. -/
def checkSeed (seed : Int) : Except Fault Nat :=
  if 0 ≤ seed ∧ seed < Number.twoPow 64 then .ok seed.toNat else .error (.seedRange (.int seed))

/-- The seed that a value gives. A float that lies in the range of seeds is refused for a
cause that depends on what the seed is for. -/
def seedOf (refusal : Fault) : Json → Except Fault Nat
  | .bool b => checkSeed (if b then 1 else 0)
  | .int i => checkSeed i
  | .float x =>
      if (Numeral.int 0).le (.float x) && !(Numeral.int (Number.twoPow 64)).le (.float x) then
        .error refusal
      else .error (.seedRange (.float x))
  | _ => .error .notNumeric

/-- The lowest bytes of a number, the lowest one first. -/
def lowBytes : (count : Nat) → Nat → List Nat
  | 0, _ => []
  | k + 1, n => n % 256 :: lowBytes k (n / 256)

/-- The bytes of the seed that a value gives. -/
def seedBytes (seed : Json) : Except Fault (List Nat) := do
  let n ← seedOf .floatSeed seed
  pure (lowBytes 8 n)

/-- The number with given bytes, the lowest one first. -/
def ofBytes : List Nat → Nat
  | [] => 0
  | b :: bytes => b + 256 * ofBytes bytes

/-- The bytes of a number give the number back, up to what they have no room for. -/
theorem ofBytes_lowBytes (k n : Nat) : ofBytes (lowBytes k n) = n % Number.twoPow (8 * k) := by
  induction k generalizing n with
  | zero => simp [lowBytes, ofBytes, Number.twoPow, Nat.mod_one]
  | succ k ih =>
      have h : 8 * (k + 1) = 8 + 8 * k := by omega
      rw [lowBytes, ofBytes, ih, h, Number.twoPow_add]
      exact Nat.mod_mul.symm

/-- The byte that a value gives. -/
def readByte (v : Json) : Except Fault Nat := do
  let i ← v.toIndex
  if 0 ≤ i ∧ i < 256 then pure i.toNat else throw .byteRange

/-- The seed in the first eight items of a value. -/
def seedOfBytes (v : Json) : Except Fault Nat := do
  let items ← v.items
  if items.length < 8 then throw (.seedLength items.length)
  else
    let bytes ← (items.take 8).mapM readByte
    pure (ofBytes bytes)

end LocalSat
