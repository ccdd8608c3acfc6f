/-
Entropy pools: a seed of any size spread over four words.

* `seedWords`: the words of 32 bits of a seed, the lowest one first;
* `Entropy.pool`: the four words, each of which depends on all words of the seed;
* `Entropy.output`: eight words drawn from the pool.
-/
import LocalSat.Number.Power
import LocalSat.Table

namespace LocalSat.Entropy

open LocalSat.Number

/-- The words of 32 bits of a number, the lowest one first, with at least one word. -/
def seedWords (n : Nat) : List UInt32 :=
  if n < twoPow 32 then [UInt32.ofNat n]
  else UInt32.ofNat (n % twoPow 32) :: seedWords (n / twoPow 32)
termination_by n
decreasing_by
  next h =>
    have hn : 0 < n := Nat.lt_of_lt_of_le (twoPow_pos 32) (Nat.le_of_not_lt h)
    exact Nat.div_lt_self hn (by decide)

/-- The upper half of a word folded into its lower half. -/
def fold (v : UInt32) : UInt32 := v ^^^ (v >>> 16)

/-- Scrambles a word with a key that changes from word to word. -/
def scramble (factor v : UInt32) : StateM UInt32 UInt32 := fun key =>
  let key' := key * factor
  (fold ((v ^^^ key) * key'), key')

/-- Scrambles a word on its way into the pool. -/
def absorb (v : UInt32) : StateM UInt32 UInt32 := scramble 0x931e8875 v

/-- Mixes a scrambled word into a word of the pool. -/
def mix (x y : UInt32) : UInt32 := fold (x * 0xca01f9dd - y * 0x4973f715)

/-- Mixes one scrambled word into the word of the pool at a place. -/
def stir (pool : Table 4 UInt32) (place : Fin 4) (word : UInt32) :
    StateM UInt32 (Table 4 UInt32) := do
  let v ← absorb word
  pure (pool.write place (mix (pool.get place) v))

/-- The pairs of different places, the place that is read first in a pair. -/
def placePairs : List (Fin 4 × Fin 4) :=
  (List.finRange 4).flatMap fun s =>
    ((List.finRange 4).filter fun d => d ≠ s).map fun d => (s, d)

/-- The four words that a seed is spread over. -/
def pool (seed : Nat) : Table 4 UInt32 :=
  let words := seedWords seed
  let fill : StateM UInt32 (Table 4 UInt32) := do
    let start ← (List.finRange 4).foldlM
      (fun (p : Table 4 UInt32) i => do
        let v ← absorb (words[i.val]?.getD 0)
        pure (p.write i v))
      (Vector.replicate 4 0)
    let mixed ← placePairs.foldlM (fun p sd => stir p sd.2 (p.get sd.1)) start
    (words.drop 4).foldlM
      (fun p w => (List.finRange 4).foldlM (fun q d => stir q d w) p) mixed
  (fill 0x43b0d7e5).1

/-- Eight words drawn from the pool of a seed. -/
def output (seed : Nat) : List UInt32 :=
  let p := pool seed
  let draws : StateM UInt32 (List UInt32) :=
    (List.finRange 8).mapM fun i => scramble 0x58f38ded (p.get (Fin.ofNat 4 i.val))
  (draws 0x8b51f9dd).1

/-- Two words as one number, the lower word first. -/
def pairValue (low high : UInt32) : Nat := low.toNat + high.toNat * twoPow 32

/-- The output as four numbers of 64 bits. -/
def numbers (seed : Nat) : List Nat :=
  let rec pairs : List UInt32 → List Nat
    | low :: high :: rest => pairValue low high :: pairs rest
    | _ => []
  pairs (output seed)

end LocalSat.Entropy
