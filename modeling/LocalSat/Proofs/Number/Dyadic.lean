/-
Floats as exact numbers, and the integers beyond all of them.

* `roundHalfEven_le_iff`: when a rounded quotient does not exceed an odd number;
* `nearestBits_one`: an integer is rounded to as many binary digits as a float has;
* `ofInt?_eq_none_iff`: the integers beyond all floats are those from the middle between the
  largest float and the next power of two on, of either sign;
* `value`: the exact value of a finite float; `intLeFloat_iff`, `floatLeInt_iff`: floats are
  compared with integers by it.
-/
import LocalSat.Number.Dyadic
import Mathlib.Algebra.Order.Field.Rat
import Mathlib.Tactic.Ring

namespace LocalSat.Number

/-! ### Rounding -/

section

variable {num den n : Nat}

/-- A quotient that is not below a number is not rounded below it. -/
lemma le_roundHalfEven (hden : 0 < den) (h : n * den ≤ num) : n ≤ roundHalfEven num den := by
  have hq : n ≤ num / den := (Nat.le_div_iff_mul_le hden).2 h
  unfold roundHalfEven
  dsimp only
  split_ifs <;> omega

/-- A quotient that is not above a number is not rounded above it. -/
lemma roundHalfEven_le (hden : 0 < den) (h : num ≤ n * den) : roundHalfEven num den ≤ n := by
  have hdiv := Nat.div_add_mod num den
  have hq : num / den ≤ n := Nat.div_le_of_le_mul (by rwa [Nat.mul_comm])
  rcases Nat.eq_or_lt_of_le hq with rfl | hlt
  · have hzero : num % den = 0 := by
      rw [Nat.mul_comm] at h
      omega
    simp [roundHalfEven, hzero, hden]
  · unfold roundHalfEven
    dsimp only
    split_ifs <;> omega

/-- A rounded quotient does not exceed an odd number exactly if the quotient is closer to it than
to the next one. -/
lemma roundHalfEven_le_iff (hden : 0 < den) (hodd : n % 2 = 1) :
    roundHalfEven num den ≤ n ↔ 2 * num < (2 * n + 1) * den := by
  have hdiv := Nat.div_add_mod num den
  have hmod := Nat.mod_lt num hden
  have hright : (2 * n + 1) * den = 2 * (den * n) + den := by ring
  rw [hright, roundHalfEven]
  generalize num / den = q at *
  generalize num % den = r at *
  rcases Nat.lt_trichotomy q n with hlt | rfl | hgt
  · -- both sides hold
    have hmul : den * q + den ≤ den * n := Nat.mul_le_mul_left den hlt
    refine iff_of_true ?_ (by omega)
    split_ifs <;> omega
  · -- the remainder decides
    split_ifs <;> omega
  · -- neither side holds
    have hmul : den * n + den ≤ den * q := Nat.mul_le_mul_left den hgt
    refine iff_of_false ?_ (by omega)
    split_ifs <;> omega

end

/-! ### Integers beyond all floats -/

/-- A positive integer lies between the powers of two by its number of binary digits. -/
lemma twoPow_log2_le {m : Nat} (hm : m ≠ 0) : twoPow m.log2 ≤ m := Nat.log2_self_le hm

lemma lt_twoPow_log2 (m : Nat) : m < twoPow (m.log2 + 1) := Nat.lt_log2_self

/-- The exponent of a positive integer is that of its first binary digit. -/
lemma binaryExponent_one {m : Nat} (hm : m ≠ 0) : binaryExponent m 1 = m.log2 := by
  have hone : Nat.log2 1 = 0 := rfl
  have hle := twoPow_log2_le hm
  have hexponent : ((m.log2 : Int) - (Nat.log2 1 : Nat)) = m.log2 := by omega
  rw [binaryExponent, hexponent, Int.toNat_neg_natCast, Int.toNat_natCast, Nat.one_mul, if_neg]
  rw [show twoPow 0 = 1 from rfl]
  omega

/-- A positive integer is rounded to the binary digits that a float has. -/
lemma nearestBits_one {m : Nat} (hm : m ≠ 0) :
    nearestBits m 1 = min infinityBits
      (roundHalfEven (m * twoPow (52 - m.log2)) (twoPow (m.log2 - 52))
        + (m.log2 + 1022) * twoPow 52) := by
  have hmax : max (m.log2 : Int) (-1022) = m.log2 := by omega
  have hlow : (-((m.log2 : Int) - 52)).toNat = 52 - m.log2 := by omega
  have hhigh : ((m.log2 : Int) - 52).toNat = m.log2 - 52 := by omega
  have hbias : ((m.log2 : Int) + 1022).toNat = m.log2 + 1022 := by omega
  rw [nearestBits, if_neg hm, binaryExponent_one hm]
  dsimp only
  rw [hmax, hlow, hhigh, hbias, Nat.one_mul]

/-- The rounded digits of a positive integer are as many as a float has, or one more. -/
lemma digits_mem {m : Nat} (hm : m ≠ 0) :
    twoPow 52 ≤ roundHalfEven (m * twoPow (52 - m.log2)) (twoPow (m.log2 - 52))
      ∧ roundHalfEven (m * twoPow (52 - m.log2)) (twoPow (m.log2 - 52)) ≤ 2 * twoPow 52 := by
  have hle := twoPow_log2_le hm
  have hlt := lt_twoPow_log2 m
  rw [twoPow_add, show twoPow 1 = 2 from rfl] at hlt
  have hpow : twoPow 52 * twoPow (m.log2 - 52) = twoPow m.log2 * twoPow (52 - m.log2) := by
    rw [← twoPow_add, ← twoPow_add]
    congr 1
    omega
  have hpos := twoPow_pos (m.log2 - 52)
  refine ⟨le_roundHalfEven hpos ?_, roundHalfEven_le hpos ?_⟩
  · rw [hpow]
    exact Nat.mul_le_mul_right _ hle
  · rw [Nat.mul_assoc, hpow, ← Nat.mul_assoc, Nat.mul_comm 2]
    exact Nat.mul_le_mul_right _ hlt.le

/-- Of the integers with 1024 binary digits, those are not rounded to infinity that are closer to
the largest float than to the next power of two. -/
lemma digits_lt_iff {m : Nat} (hlog : m.log2 = 1023) :
    roundHalfEven (m * twoPow (52 - m.log2)) (twoPow (m.log2 - 52)) < 2 * twoPow 52
      ↔ m < twoPow 1024 - twoPow 970 := by
  have hlarge : twoPow 1024 = 4 * (twoPow 52 * twoPow 970) := by
    rw [← twoPow_add, show (4 : Nat) = twoPow 2 from rfl, ← twoPow_add]
  have hunit : twoPow (1023 - 52) = 2 * twoPow 970 := by
    rw [show (2 : Nat) = twoPow 1 from rfl, ← twoPow_add]
  have hT := twoPow_pos 52
  have hP := twoPow_pos 970
  rw [hlog, hunit, hlarge, show twoPow (52 - 1023) = 1 from rfl, Nat.mul_one]
  generalize twoPow 52 = T at *
  generalize twoPow 970 = P at *
  have hodd : (2 * T - 1) % 2 = 1 := by omega
  have hiff : roundHalfEven m (2 * P) ≤ 2 * T - 1
      ↔ 2 * m < (2 * (2 * T - 1) + 1) * (2 * P) := roundHalfEven_le_iff (by omega) hodd
  have hright : (2 * (2 * T - 1) + 1) * (2 * P) = 2 * (4 * (T * P) - P) := by
    rw [show 2 * (2 * T - 1) + 1 = 4 * T - 1 by omega, Nat.mul_left_comm, Nat.sub_mul, Nat.one_mul,
      Nat.mul_assoc]
  rw [hright] at hiff
  omega

/-- The integers that are not rounded to infinity are those below the middle between the largest
float and the next power of two. -/
lemma nearestBits_lt_iff (m : Nat) :
    nearestBits m 1 < infinityBits ↔ m < twoPow 1024 - twoPow 970 := by
  have hmono : ∀ {j k : Nat}, j ≤ k → twoPow j ≤ twoPow k :=
    fun h => Nat.pow_le_pow_right (by decide) h
  have hhalf : twoPow 1023 + twoPow 1023 = twoPow 1024 := by
    rw [← Nat.mul_two, show (2 : Nat) = twoPow 1 from rfl, ← twoPow_add]
  have hgap : twoPow 970 ≤ twoPow 1023 := hmono (by decide)
  have hpos := twoPow_pos 1023
  by_cases hm : m = 0
  · subst hm
    have hinf : 0 < infinityBits := Nat.mul_pos (by decide) (twoPow_pos 52)
    rw [nearestBits, if_pos rfl]
    omega
  · obtain ⟨hlow, hhigh⟩ := digits_mem hm
    have hinf : infinityBits = 2047 * twoPow 52 := rfl
    have hT := twoPow_pos 52
    rw [nearestBits_one hm, hinf, min_lt_iff, or_iff_right (Nat.lt_irrefl _)]
    rcases Nat.lt_trichotomy m.log2 1023 with hlog | hlog | hlog
    · -- the integer lies below the last power of two that is a float
      have hbits : (m.log2 + 1022) * twoPow 52 ≤ 2044 * twoPow 52 :=
        Nat.mul_le_mul_right _ (by omega)
      have hlt : m < twoPow 1023 := (lt_twoPow_log2 m).trans_le (hmono hlog)
      exact iff_of_true (by omega) (by omega)
    · rw [← digits_lt_iff hlog, hlog]
      omega
    · -- the integer is not below the next one
      have hbits : 2046 * twoPow 52 ≤ (m.log2 + 1022) * twoPow 52 :=
        Nat.mul_le_mul_right _ (by omega)
      have hle : twoPow 1024 ≤ m := (hmono hlog).trans (twoPow_log2_le hm)
      exact iff_of_false (by omega) (by omega)

/-- The integers beyond all floats are those that are not below that middle, of either sign. -/
lemma ofInt?_eq_none_iff (i : Int) : ofInt? i = none ↔ twoPow 1024 - twoPow 970 ≤ i.natAbs := by
  rw [← Nat.not_lt, ← nearestBits_lt_iff, ofInt?]
  split
  · next h => simp [h]
  · next h => simp [h]

/-! ### Exact values -/

/-- The exact value of a finite float. -/
def value (x : Float) : ℚ :=
  ((if isNegative x then -((magnitude x).num : Int) else (magnitude x).num : Int) : ℚ)
    / (magnitude x).den

/-- A float is finite when it is a number and no infinity. -/
lemma isFinite_iff (x : Float) : x.isFinite = true ↔ x.isNaN = false ∧ x.isInf = false := by
  show x.toModel.unpack.isFinite = true
    ↔ x.toModel.unpack.isNaN = false ∧ x.toModel.unpack.isInf = false
  cases x.toModel.unpack with
  | notANumber => exact iff_of_false Bool.false_ne_true fun h => Bool.false_ne_true h.1.symm
  | infinity => exact iff_of_false Bool.false_ne_true fun h => Bool.false_ne_true h.2.symm
  | zero | finite => exact iff_of_true rfl ⟨rfl, rfl⟩

/-- An integer is compared with a finite float by the exact value. -/
lemma intLeFloat_iff {x : Float} (hx : x.isFinite = true) (i : Int) :
    intLeFloat i x = true ↔ (i : ℚ) ≤ value x := by
  obtain ⟨hnan, hinf⟩ := (isFinite_iff x).1 hx
  have hden : (0 : ℚ) < (magnitude x).den := by exact_mod_cast (magnitude x).den_pos
  rw [intLeFloat, if_neg (ne_true_of_eq_false hnan), if_neg (ne_true_of_eq_false hinf), value,
    le_div_iff₀ hden]
  simp only [decide_eq_true_eq]
  exact_mod_cast Iff.rfl

/-- So is a finite float with an integer. -/
lemma floatLeInt_iff {x : Float} (hx : x.isFinite = true) (i : Int) :
    floatLeInt x i = true ↔ value x ≤ i := by
  obtain ⟨hnan, hinf⟩ := (isFinite_iff x).1 hx
  have hden : (0 : ℚ) < (magnitude x).den := by exact_mod_cast (magnitude x).den_pos
  rw [floatLeInt, if_neg (ne_true_of_eq_false hnan), if_neg (ne_true_of_eq_false hinf), value,
    div_le_iff₀ hden]
  simp only [decide_eq_true_eq]
  exact_mod_cast Iff.rfl

/-- What lies between two integers is finite. -/
lemma isFinite_of_between {x : Float} {low high : Int} (hlow : intLeFloat low x = true)
    (hhigh : floatLeInt x high = true) : x.isFinite = true := by
  rw [isFinite_iff]
  rw [intLeFloat] at hlow
  rw [floatLeInt] at hhigh
  cases hnan : x.isNaN with
  | true =>
      rw [if_pos hnan] at hlow
      cases hlow
  | false =>
      cases hinf : x.isInf with
      | false => exact ⟨rfl, rfl⟩
      | true =>
          rw [if_neg (ne_true_of_eq_false hnan), if_pos hinf] at hlow hhigh
          rw [hhigh] at hlow
          cases hlow

end LocalSat.Number
