/-
Seeds are read back from their bytes.

* `lt_of_seedOf`: a seed fits into 64 bits;
* `seedOfBytes_lowBytes`: the seed in its own bytes.
-/
import LocalSat.Proofs.Except
import LocalSat.Random.Seed

namespace LocalSat

/-- A seed fits into 64 bits. -/
lemma lt_of_seedOf {refusal : Fault} {v : Json} {k : Nat} (h : seedOf refusal v = .ok k) :
    k < Number.twoPow 64 := by
  have hcheck : ∀ {i : Int}, checkSeed i = .ok k → k < Number.twoPow 64 := by
    intro i hi
    rw [checkSeed] at hi
    split at hi
    · next hrange =>
      cases hi
      omega
    · cases hi
  cases v with
  | bool b => exact hcheck h
  | int i => exact hcheck h
  | float x =>
      rw [seedOf] at h
      split at h <;> cases h
  | null | str | bytes | arr | obj => cases h

/-- The bytes of a number are below 256. -/
lemma lt_of_mem_lowBytes {b : Nat} (count n : Nat) (h : b ∈ lowBytes count n) : b < 256 := by
  induction count generalizing n with
  | zero => cases h
  | succ count ih =>
      rcases List.mem_cons.1 h with rfl | h
      · exact Nat.mod_lt n (by decide)
      · exact ih (n / 256) h

lemma length_lowBytes (count n : Nat) : (lowBytes count n).length = count := by
  induction count generalizing n with
  | zero => rfl
  | succ count ih => rw [lowBytes, List.length_cons, ih]

/-- Bytes are read as they are. -/
lemma mapM_readByte {bytes : List Nat} (h : ∀ b ∈ bytes, b < 256) :
    (bytes.map fun b : Nat => Json.int b).mapM readByte = .ok bytes := by
  refine mapM_eq_ok fun b hb => ?_
  have hrange : 0 ≤ (b : Int) ∧ (b : Int) < 256 := by
    have := h b hb
    omega
  simp only [readByte, Json.toIndex, bind, Except.bind, if_pos hrange]
  rfl

/-- A seed is read back from its bytes. -/
lemma seedOfBytes_lowBytes {k : Nat} (h : k < Number.twoPow 64) :
    seedOfBytes (.bytes ((lowBytes 8 k).map UInt8.ofNat)) = .ok k := by
  have hbytes : ∀ b ∈ lowBytes 8 k, b < 256 := fun b hb => lt_of_mem_lowBytes 8 k hb
  have hitems : (Json.bytes ((lowBytes 8 k).map UInt8.ofNat)).items
      = .ok ((lowBytes 8 k).map fun b : Nat => Json.int b) := by
    rw [Json.items, Json.items?, List.map_map]
    refine congrArg Except.ok (List.map_congr_left fun b hb => ?_)
    have hsmall : b % 256 = b := Nat.mod_eq_of_lt (hbytes b hb)
    simp [hsmall]
  have hlen : ((lowBytes 8 k).map fun b : Nat => Json.int b).length = 8 := by
    rw [List.length_map, length_lowBytes]
  have hall : ¬((lowBytes 8 k).map fun b : Nat => Json.int b).length < 8 := by
    rw [hlen]
    decide
  rw [seedOfBytes, hitems]
  simp only [bind, Except.bind, if_neg hall]
  rw [List.take_of_length_le (Nat.le_of_eq hlen), mapM_readByte hbytes]
  show Except.ok (ofBytes (lowBytes 8 k)) = _
  rw [ofBytes_lowBytes, Nat.mod_eq_of_lt h]

end LocalSat
