/-
Integers are read back from their text.

* `forall_mem_natText`: what holds of the ten digits holds of all characters of a number;
* `digitsValue_natText`, `length_natText_le`: the digits of a number give it back, and there
  are no more of them than are needed; `length_natText_le_digitLimit`: a size that a machine has
  memory for has not too many;
* `readInt_intText`: an integer is read back from its text, if it has not too many digits;
  `length_natText_of_readInt`: an integer that is read has not too many.
-/
import LocalSat.Capacity
import LocalSat.Number.Integer
import LocalSat.Number.Power
import LocalSat.Proofs.Except
import Mathlib.Data.List.Induction
import Mathlib.Data.List.TakeWhile

namespace LocalSat

open LocalSat.Text

/-! ### Digits -/

namespace Text

/-- What holds of the ten digits holds of every digit. -/
lemma digitChar_cases {P : Char → Prop} (h : ∀ d < 10, P (digitChar d)) (d : Nat) :
    P (digitChar d) := by
  have hmod : digitChar d = digitChar (d % 10) := by rw [digitChar, digitChar, Nat.mod_mod]
  rw [hmod]
  exact h _ (Nat.mod_lt d (by decide))

/-- A digit has its value. -/
lemma digitValue?_digitChar : ∀ d < 10, digitValue? (digitChar d) = some d := by decide

/-- A digit is no blank. -/
lemma isBlank_digitChar : ∀ d < 10, isBlank (digitChar d) = false := by decide +kernel

/-- Digits with another digit after them. -/
lemma digitsValue_concat (s : List Char) (c : Char) :
    digitsValue (s ++ [c]) = 10 * digitsValue s + (digitValue? c).getD 0 := by
  rw [digitsValue, List.foldl_append]
  rfl

/-- A digit is less than ten. -/
lemma digitValue?_lt {c : Char} {d : Nat} (h : digitValue? c = some d) : d < 10 := by
  obtain ⟨z, -, hz⟩ := List.exists_of_findSome?_eq_some h
  split at hz
  · cases hz
    omega
  · cases hz

/-- A number is less than the power of ten that has more digits than it was written with. -/
lemma digitsValue_lt (s : List Char) : digitsValue s < Number.tenPow s.length := by
  induction s using List.reverseRecOn with
  | nil => exact Number.tenPow_pos 0
  | append_singleton s c ih =>
      have hdigit : (digitValue? c).getD 0 < 10 := by
        cases hc : digitValue? c with
        | none => decide
        | some d => exact digitValue?_lt hc
      have hpow : Number.tenPow (s ++ [c]).length = Number.tenPow s.length * 10 := by
        rw [List.length_append]
        rfl
      rw [digitsValue_concat, hpow]
      omega

end Text

namespace Number

/-! ### Natural numbers -/

/-- What holds of the ten digits holds of all characters of a number. -/
lemma forall_mem_natText {P : Char → Prop} (h : ∀ d < 10, P (digitChar d)) (n : Nat) :
    ∀ c ∈ natText n, P c := by
  fun_induction natText n with
  | case1 n hn => simpa using h n hn
  | case2 n hn ih =>
      intro c hc
      rcases List.mem_append.1 hc with hc | hc
      · exact ih c hc
      · rw [List.mem_singleton.1 hc]
        exact digitChar_cases h _

/-- A number has digits. -/
lemma natText_ne_nil (n : Nat) : natText n ≠ [] := by
  rw [natText]
  split <;> simp

/-- The digits of a number give it back. -/
lemma digitsValue_natText (n : Nat) : digitsValue (natText n) = n := by
  fun_induction natText n with
  | case1 n hn =>
      have hdigit := digitsValue_concat [] (digitChar n)
      rw [digitValue?_digitChar n hn] at hdigit
      simpa [digitsValue] using hdigit
  | case2 n hn ih =>
      have hlast := Nat.mod_lt n (show 10 > 0 by decide)
      calc digitsValue (natText (n / 10) ++ [digitChar (n % 10)])
          = 10 * digitsValue (natText (n / 10)) + n % 10 := by
            rw [digitsValue_concat, digitValue?_digitChar _ hlast, Option.getD_some]
        _ = 10 * (n / 10) + n % 10 := by rw [ih]
        _ = n := Nat.div_add_mod n 10

/-- More digits make the power of ten larger. -/
lemma tenPow_le_tenPow {j k : Nat} (h : j ≤ k) : tenPow j ≤ tenPow k :=
  Nat.pow_le_pow_right (by decide) h

/-- A number has no more digits than are needed. -/
lemma length_natText_le {n k : Nat} (hk : 1 ≤ k) (h : n < tenPow k) :
    (natText n).length ≤ k := by
  induction k generalizing n with
  | zero => cases hk
  | succ k ih =>
      rw [natText]
      split
      · exact hk
      · next hn =>
        have hpos : 1 ≤ k := by
          by_contra hzero
          obtain rfl : k = 0 := by omega
          exact hn h
        have hdiv : n / 10 < tenPow k := by
          have hmul : n < tenPow k * 10 := h
          omega
        have hrest := ih hpos hdiv
        rw [List.length_append, List.length_singleton]
        omega

/-- A size that a machine has memory for has not too many digits to be read. -/
lemma length_natText_le_digitLimit {n : Nat} (h : n ≤ memoryLimit) :
    (natText n).length ≤ digitLimit := by
  have hlimit : memoryLimit < tenPow 10 := by decide
  have hlength : (natText n).length ≤ 10 := length_natText_le (by decide) (by omega)
  exact hlength.trans (by decide)

/-! ### Reading -/

/-- Digits only are a run of digits. -/
lemma isDigitRun_of_forall {s : List Char} (hne : s ≠ []) (h : ∀ c ∈ s, isDigit c = true) :
    isDigitRun s = true := by
  have hunderscore : isDigit '_' = false := by decide
  fun_induction isDigitRun s with
  | case1 => exact absurd rfl hne
  | case2 c => exact h c List.mem_cons_self
  | case3 c s ih =>
      have hbad := h '_' (by simp)
      rw [hunderscore] at hbad
      cases hbad
  | case4 c s hs hs' ih =>
      rw [Bool.and_eq_true]
      refine ⟨h c List.mem_cons_self, ih ?_ fun d hd => h d (List.mem_cons_of_mem c hd)⟩
      rintro rfl
      exact hs rfl

/-- Digits that are not too many are read as the number that they write. -/
lemma readDigits_of_forall {s : List Char} (hne : s ≠ []) (h : ∀ c ∈ s, isDigit c = true)
    (hlen : s.length ≤ digitLimit) : readDigits s = .ok (digitsValue s) := by
  have htake : s.takeWhile (fun c => isDigit c || c == '_') = s :=
    List.takeWhile_eq_self_iff.2 fun c hc => by simp [h c hc]
  have hfilter : s.filter isDigit = s := List.filter_eq_self.2 h
  rw [readDigits]
  simp only [htake, hfilter, isDigitRun_of_forall hne h, Bool.not_true, Bool.false_eq_true,
    if_false, if_neg (Nat.not_lt.2 hlen), Nat.lt_irrefl]

/-- A natural number is read back from its digits, if they are not too many. -/
lemma readDigits_natText {n : Nat} (h : (natText n).length ≤ digitLimit) :
    readDigits (natText n) = .ok n := by
  have hdigit : ∀ c ∈ natText n, isDigit c = true :=
    forall_mem_natText (fun d hd => by rw [isDigit, digitValue?_digitChar d hd]; rfl) n
  rw [readDigits_of_forall (natText_ne_nil n) hdigit h, digitsValue_natText]

/-- A text without blanks is left as it is. -/
lemma trim_of_forall {p : Char → Bool} {s : List Char} (h : ∀ c ∈ s, p c = false) :
    trim p s = s := by
  have hkeep : ∀ t : List Char, (∀ c ∈ t, p c = false) → t.dropWhile p = t := by
    rintro (_ | ⟨c, t⟩) ht
    · rfl
    · exact List.dropWhile_cons_of_neg (by simp [ht c])
  rw [trim, hkeep s h, hkeep _ (fun c hc => h c (List.mem_reverse.1 hc)), List.reverse_reverse]

/-- The text of an integer has no blanks. -/
lemma isBlank_of_mem_intText (i : Int) : ∀ c ∈ intText i, isBlank c = false := by
  cases i with
  | ofNat n => exact forall_mem_natText isBlank_digitChar n
  | negSucc n =>
      rw [intText, List.forall_mem_cons]
      exact ⟨by decide +kernel, forall_mem_natText isBlank_digitChar (n + 1)⟩

/-- An integer has a text. -/
lemma intText_ne_nil (i : Int) : intText i ≠ [] := by
  cases i with
  | ofNat n => exact natText_ne_nil n
  | negSucc n => exact List.cons_ne_nil _ _

/-- An integer is read back from its text, if it has not too many digits. -/
lemma readInt_intText {i : Int} (h : (natText i.natAbs).length ≤ digitLimit) :
    readInt (intText i) = .ok i := by
  have hspace : ∀ c ∈ intText i, isSpace c = false := by
    intro c hc
    have hblank := isBlank_of_mem_intText i c hc
    rw [isBlank, Bool.or_eq_false_iff] at hblank
    exact hblank.1
  rw [readInt, trim_of_forall hspace]
  cases i with
  | ofNat n =>
      have hread : readDigits (natText n) = .ok n := readDigits_natText h
      -- a digit is no sign
      have hsign : ∀ c ∈ natText n, c ≠ '-' ∧ c ≠ '+' := forall_mem_natText (by decide) n
      rw [intText]
      split
      · next t ht => exact absurd rfl (hsign '-' (ht ▸ List.mem_cons_self)).1
      · next t ht => exact absurd rfl (hsign '+' (ht ▸ List.mem_cons_self)).2
      · rw [hread]
        rfl
  | negSucc n =>
      have hread : readDigits (natText (n + 1)) = .ok (n + 1) := readDigits_natText h
      rw [intText]
      simp only [hread]
      rfl

/-- A natural number that is read has not too many digits, however it was written. -/
lemma length_natText_of_readDigits {s : List Char} {n : Nat} (h : readDigits s = .ok n) :
    (natText n).length ≤ digitLimit := by
  rw [readDigits] at h
  split_ifs at h with hrun hlong hrest
  obtain rfl := Except.ok.inj h
  have hlt := (digitsValue_lt _).trans_le (tenPow_le_tenPow (Nat.le_of_not_lt hlong))
  exact length_natText_le (by decide) hlt

/-- So has an integer that is read. -/
lemma length_natText_of_readInt {s : List Char} {i : Int} (h : readInt s = .ok i) :
    (natText i.natAbs).length ≤ digitLimit := by
  have key : ∀ {t : List Char} {f : Nat → Int}, (∀ n, (f n).natAbs = n) →
      (readDigits t).map f = .ok i → (natText i.natAbs).length ≤ digitLimit := by
    intro t f hf ht
    obtain ⟨n, hn, rfl⟩ := exists_of_map_eq_ok ht
    rw [hf]
    exact length_natText_of_readDigits hn
  unfold readInt at h
  split at h
  · next t _ =>
    have hneg : (readDigits t).map (fun n : Nat => -(n : Int)) = .ok i := by
      rw [← h]
      cases readDigits t <;> rfl
    exact key (fun n => (Int.natAbs_neg _).trans (Int.natAbs_natCast n)) hneg
  · exact key Int.natAbs_natCast h
  · exact key Int.natAbs_natCast h

end Number

end LocalSat
