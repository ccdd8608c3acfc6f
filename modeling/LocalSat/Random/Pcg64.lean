/-
A permuted congruential generator with 128 bits of state.

* `Pcg64.ofSeed`: the generator of a seed, which is spread by an entropy pool;
* `next64`, `next32`: numbers of 64 and of 32 bits; the second half of a number of 64
  bits is kept for the next question for 32;
* `unit`: a float in `[0, 1)` with 53 random bits;
* `below`: a number below a bound, all of them equally likely; `below_lt` puts it
  inside.
-/
import LocalSat.Random.Entropy
import LocalSat.Random.Source

namespace LocalSat

open LocalSat.Number

/-- The state of a generator. -/
structure Pcg64 where
  /-- The state of the congruence. -/
  state : BitVec 128
  /-- The summand of the congruence, which is odd. -/
  increment : BitVec 128
  /-- The half of a number that has not been used. -/
  spare : Option Nat
  deriving Repr, DecidableEq, Inhabited

namespace Pcg64

/-! ### Words -/

/-- The factor of the congruence. -/
def factor : BitVec 128 := 0x2360ED051FC65DA44385DF649FCCF645#128

/-- One step of the congruence. -/
def step (g : Pcg64) : Pcg64 := { g with state := g.state * factor + g.increment }

/-- The generator of a seed. -/
def ofSeed (seed : Nat) : Pcg64 :=
  match Entropy.numbers seed with
  | [a, b, c, d] =>
      let increment := (BitVec.ofNat 128 (c * twoPow 64 + d) <<< 1) ||| 1#128
      let start : Pcg64 := ⟨0#128, increment, none⟩
      let first := start.step
      { first with state := first.state + BitVec.ofNat 128 (a * twoPow 64 + b) }.step
  | _ => ⟨0#128, 1#128, none⟩

/-- The halves of the state joined and rotated by its six highest bits. -/
def output (state : BitVec 128) : BitVec 64 :=
  let folded := state.extractLsb' 64 64 ^^^ state.extractLsb' 0 64
  folded.rotateRight (state >>> 122).toNat

/-- A number of 64 bits. -/
def next64 (g : Pcg64) : Nat × Pcg64 :=
  let g' := g.step
  ((output g'.state).toNat, g')

/-- A number of 32 bits. -/
def next32 (g : Pcg64) : Nat × Pcg64 :=
  match g.spare with
  | some n => (n, { g with spare := none })
  | none =>
      let (n, g') := g.next64
      (n % twoPow 32, { g' with spare := some (n / twoPow 32) })

/-- A float in `[0, 1)`. -/
def unit (g : Pcg64) : Float × Pcg64 :=
  let (n, g') := g.next64
  ((UInt64.ofNat (n / twoPow 11)).toFloat / 9007199254740992.0, g')

/-! ### Numbers below a bound -/

/-- The number of rejected draws after which the next one is taken as it is. A draw is
rejected with a chance below one half, so that this many in a row do not happen. -/
def patience : Nat := 10000

/-- A number below `n` by multiplication: the upper part of a draw times `n`, where the
draws whose lower part makes some answers more likely than others are rejected. -/
def scale (draw : Pcg64 → Nat × Pcg64) (size n : Nat) : (tries : Nat) → Pcg64 → Nat × Pcg64
  | 0, g => ((draw g).1 % size * n / size, (draw g).2)
  | tries + 1, g =>
      let drawn := draw g
      let product := drawn.1 % size * n
      if product % size < (size - n) % n then scale draw size n tries drawn.2
      else (product / size, drawn.2)

/-- A number below a positive bound. -/
def below (n : Nat) (g : Pcg64) : Nat × Pcg64 :=
  if n ≤ 1 then (0, g)
  else if n < twoPow 32 then scale next32 (twoPow 32) n patience g
  else if n = twoPow 32 then
    let (x, g') := g.next32
    (x % twoPow 32, g')
  else scale next64 (twoPow 64) n patience g

/-- The upper part of a product is below its other factor. -/
theorem scale_lt {draw : Pcg64 → Nat × Pcg64} {size n : Nat} (hs : 0 < size) (hn : 0 < n)
    (tries : Nat) (g : Pcg64) : (scale draw size n tries g).1 < n := by
  have key : ∀ x, x % size * n / size < n := fun x => by
    rw [Nat.div_lt_iff_lt_mul hs, Nat.mul_comm n]
    exact Nat.mul_lt_mul_of_pos_right (Nat.mod_lt x hs) hn
  induction tries generalizing g with
  | zero => exact key _
  | succ tries ih =>
      simp only [scale]
      split
      · exact ih _
      · exact key _

/-- A number below a positive bound is below it. -/
theorem below_lt {n : Nat} (hn : 0 < n) (g : Pcg64) : (below n g).1 < n := by
  rw [below]
  split
  · exact hn
  split
  · exact scale_lt (twoPow_pos 32) hn _ _
  split
  · next h => simpa [h] using Nat.mod_lt g.next32.1 (twoPow_pos 32)
  · exact scale_lt (twoPow_pos 64) hn _ _

/-! ### Answers -/

/-- A coin that shows heads when a float in `[0, 1)` is below its chance. -/
def coin (chance : Float) : EStateM Fault Pcg64 Bool := fun g =>
  let (x, g') := g.unit
  .ok (x < chance) g'

/-- An index into a sequence. Its length must be positive and fit into 63 bits. -/
def index (length : Int) : EStateM Fault Pcg64 Nat := fun g =>
  if length ≤ 0 then .error .emptyChoice g
  else if twoPow 63 < length then .error .wideChoice g
  else
    let (i, g') := below length.toNat g
    .ok i g'

end Pcg64

/-- The generator as a source of random answers. -/
instance : RandomSource Pcg64 where
  coin := Pcg64.coin
  index := Pcg64.index

end LocalSat
