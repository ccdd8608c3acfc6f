/-
Samples without repetition.

* `Sampler`: a source of random answers that also takes samples out of `0` to
  `population - 1`;
* `LawfulSampler`: a sample that is no larger than its population is given, and it holds
  different numbers, all of them below the population;
* `Pcg64.pickDistinct`, `Pcg64.shuffle`: a sample by one draw for each of its members,
  in random order.
-/
import LocalSat.Random.Pcg64

namespace LocalSat

/-- A source of random answers that also takes samples. -/
class Sampler (γ : Type) extends RandomSource γ where
  /-- A sample of the given size out of the numbers below a population. -/
  sample : (population : Nat) → (size : Int) → EStateM Fault γ (List Nat)

/-- A sampler whose samples have the size that was asked for, if there are so many
numbers, and never hold a number twice. -/
class LawfulSampler (γ : Type) [Sampler γ] : Prop extends LawfulSource γ where
  /-- A sample holds as many different numbers as it is to hold. -/
  sample_ok : ∀ (population size : Nat) (g : γ), size ≤ population →
    ∃ members g', Sampler.sample population size g = .ok members g' ∧
      members.length = size ∧ members.Nodup ∧ ∀ v ∈ members, v < population

namespace Pcg64

/-! ### Samples by a generator -/

/-- Exchanges each of `count` entries, from the one at `top` down, with a random one
that does not stand behind it. -/
def shuffleDown : (count top : Nat) → Array Nat → Pcg64 → Array Nat × Pcg64
  | 0, _, a, g => (a, g)
  | count + 1, top, a, g =>
      let (j, g') := below (top + 1) g
      shuffleDown count (top - 1) (a.swapIfInBounds top j) g'

/-- Exchanges keep the number of entries. -/
theorem size_shuffleDown (count top : Nat) (a : Array Nat) (g : Pcg64) :
    (shuffleDown count top a g).1.size = a.size := by
  induction count generalizing top a g with
  | zero => rfl
  | succ count ih => simp [shuffleDown, ih]

/-- Brings an array into a random order. -/
def shuffle (a : Array Nat) (g : Pcg64) : Array Nat × Pcg64 :=
  shuffleDown (a.size - 1) (a.size - 1) a g

/-- Adds `count` members to a sample, one for each number from `next` on: a random number
up to it, or the number itself when that is a member already. -/
def pickDistinct : (count next : Nat) → Array Nat → Pcg64 → Array Nat × Pcg64
  | 0, _, a, g => (a, g)
  | count + 1, next, a, g =>
      let (v, g') := below (next + 1) g
      pickDistinct count (next + 1) (a.push (if a.contains v then next else v)) g'

/-- Every step adds one member. -/
theorem size_pickDistinct (count next : Nat) (a : Array Nat) (g : Pcg64) :
    (pickDistinct count next a g).1.size = a.size + count := by
  induction count generalizing next a g with
  | zero => rfl
  | succ count ih =>
      simp only [pickDistinct, ih, Array.size_push]
      omega

/-- Whether a sample is taken from the end of a shuffled list of the population, which
pays off when it is a large part of a large population. -/
def isLargeSample (population size : Nat) : Bool :=
  10000 < population && population / 50 < size

/-- A sample of the given size. -/
def drawSample (population size : Nat) (g : Pcg64) : Array Nat × Pcg64 :=
  if isLargeSample population size then
    let (a, g') := shuffleDown (min size (population - 1)) (population - 1)
      (Array.range population) g
    (a.extract (population - size) population, g')
  else
    let (a, g') := pickDistinct size (population - size) #[] g
    shuffle a g'

/-- A sample out of a population that is large enough has the given size. -/
theorem size_drawSample {population size : Nat} (h : size ≤ population) (g : Pcg64) :
    (drawSample population size g).1.size = size := by
  unfold drawSample
  split
  · simp only [Array.size_extract, size_shuffleDown, Array.size_range]
    omega
  · simp [shuffle, size_shuffleDown, size_pickDistinct]

/-- What is wrong with a size that is negative or exceeds the population. A size is kept
in 64 bits, the first of which is its sign. -/
def sizeFault (size : Int) : Fault :=
  if size < -(Number.twoPow 63) ∨ Number.twoPow 64 ≤ size then .beyondAddresses
  else if size < 0 ∨ Number.twoPow 63 ≤ size then .negativeSize
  else .smallPopulation

/-- A sample of the given size, which must not be negative or exceed the population. -/
def sample (population : Nat) (size : Int) : EStateM Fault Pcg64 (List Nat) := fun g =>
  if population = 0 ∧ size ≠ 0 then .error .emptyPopulation g
  else if size < 0 ∨ population < size then .error (sizeFault size) g
  else
    let (a, g') := drawSample population size.toNat g
    .ok a.toList g'

/-! ### Numbers in ranges -/

/-- The generator of a seed of any size. -/
def ofInt (seed : Int) : Except Fault Pcg64 :=
  if seed < 0 then .error .negativeSeed else .ok (ofSeed seed.toNat)

/-- A number from `low` on and below `high`, both of which must fit into 64 bits. -/
def between (low high : Int) : EStateM Fault Pcg64 Int := fun g =>
  if low < -(Number.twoPow 63) then .error .lowBound g
  else if Number.twoPow 63 < high then .error .wideChoice g
  else if high ≤ low then .error (if low = 0 then .emptyChoice else .emptyRange) g
  else
    let (k, g') := below (high - low).toNat g
    .ok (low + k) g'

/-- A float from `low` on and below `high`. -/
def uniform (low high : Float) : EStateM Fault Pcg64 Float := fun g =>
  let span := high - low
  if !span.isFinite then .error .infiniteSpan g
  else if Number.isNegative span then .error .negativeSpan g
  else
    let (x, g') := g.unit
    .ok (low + span * x) g'

end Pcg64

/-- The generator as a sampler. -/
instance : Sampler Pcg64 where
  sample := Pcg64.sample

end LocalSat
