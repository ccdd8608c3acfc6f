/-
Sizes that a machine has room for.

* `checkSize`: an integer as the size of a sequence. A negative one gives the empty
  sequence, but no integer may be beyond the addresses of the machine in either direction;
* `checkWords`: an integer as the size of a table of words, which may not be negative;
* `checkCount`: an integer as a number of repetitions, which has no lower limit.
-/
import LocalSat.Fault

namespace LocalSat

/-- The largest size that a machine can address. -/
def addressLimit : Nat := Number.twoPow 63 - 1

/-- The largest size that a machine has memory for. -/
def memoryLimit : Nat := Number.twoPow 32

/-- The size that an integer gives. -/
def checkSize (i : Int) : Except Fault Nat :=
  if addressLimit < i ∨ i < -(addressLimit : Int) - 1 then .error .beyondAddresses
  else if memoryLimit < i then .error .beyondMemory
  else .ok i.toNat

/-- The number of bytes of a word. -/
def wordBytes : Nat := 8

/-- The size of a table of words that an integer gives. -/
def checkWords (i : Int) : Except Fault Nat :=
  if addressLimit < i ∨ i < -(addressLimit : Int) - 1 then .error .wideDimension
  else if i < 0 then .error .negativeSize
  else if addressLimit < wordBytes * i then .error .wideTable
  else if memoryLimit < i then .error .tableBeyondMemory
  else .ok i.toNat

/-- The number of repetitions that an integer gives. -/
def checkCount (i : Int) : Except Fault Nat :=
  if addressLimit < i then .error .beyondAddresses else .ok i.toNat

end LocalSat
