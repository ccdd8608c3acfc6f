/-
Strings are read back from their escapes.

* `unitValue?_hex`: a unit of sixteen bits is read back from its four digits;
* `readString?_escape`: a character is read back from its escape, also when it takes two units;
* `readString?_escapes`, `ofPoints_toNat`: so a string is read back, up to its closing quote.
-/
import LocalSat.Json.Printer
import LocalSat.Json.Reader
import Mathlib.Tactic.Common

namespace LocalSat.Json

open LocalSat.Text

/-! ### Units -/

/-- A hexadecimal digit has its value. -/
lemma hexValue?_hexDigit : ∀ d < 16, hexValue? (hexDigit d) = some d := by decide

/-- The four digits of a unit. -/
lemma hex_four (n : Nat) : hex 4 n = [hexDigit (n / 4096 % 16), hexDigit (n / 256 % 16),
    hexDigit (n / 16 % 16), hexDigit (n % 16)] := by
  simp [hex, Nat.shiftRight_eq_div_pow]

/-- A unit is read back from its digits. -/
lemma unitValue?_hex {n : Nat} (h : n < 0x10000) :
    unitValue? (hexDigit (n / 4096 % 16)) (hexDigit (n / 256 % 16)) (hexDigit (n / 16 % 16))
      (hexDigit (n % 16)) = some n := by
  have hdigit : ∀ m, hexValue? (hexDigit (m % 16)) = some (m % 16) := fun m =>
    hexValue?_hexDigit _ (Nat.mod_lt m (by decide))
  simp only [unitValue?, hdigit, Option.bind_eq_bind, Option.bind_some, Option.pure_def,
    Option.some.injEq]
  omega

variable {before : List Nat} {s : List Char} {n : Nat}

/-- A unit that is no first half of a pair is a code point. -/
lemma readString?_escapeUnit (h : n < 0x10000) (hhalf : ¬(0xD800 ≤ n ∧ n ≤ 0xDBFF)) :
    readString? before (escapeUnit n ++ s) = readString? (n :: before) s := by
  rw [escapeUnit, hex_four, List.cons_append, List.cons_append]
  simp only [List.cons_append, List.nil_append]
  rw [readString?, unitValue?_hex h]
  simp only [if_neg hhalf]

/-- The second half of a pair is read. -/
lemma lowHalf?_escapeUnit (h : 0xDC00 ≤ n ∧ n ≤ 0xDFFF) :
    lowHalf? (escapeUnit n ++ s) = some (n, s) := by
  rw [escapeUnit, hex_four]
  simp only [List.cons_append, List.nil_append]
  rw [lowHalf?, unitValue?_hex (by omega)]
  simp only [if_pos h]

/-- Two halves of a pair are one code point. -/
lemma readString?_pair {m : Nat} (hn : 0xD800 ≤ n ∧ n ≤ 0xDBFF) (hm : 0xDC00 ≤ m ∧ m ≤ 0xDFFF) :
    readString? before (escapeUnit n ++ (escapeUnit m ++ s))
      = readString? ((0x10000 + (n - 0xD800) * 0x400 + (m - 0xDC00)) :: before) s := by
  rw [escapeUnit, hex_four]
  simp only [List.cons_append, List.nil_append]
  rw [readString?, unitValue?_hex (by omega)]
  simp only [if_pos hn]
  split
  · next h =>
    rw [lowHalf?_escapeUnit hm] at h
    cases h
    rfl
  · next h =>
    rw [lowHalf?_escapeUnit hm] at h
    cases h

/-! ### Characters -/

/-- A character after a backslash is what it stands for. -/
lemma readString?_backslash {c d : Char} (hc : c ≠ 'u') (h : unescape? c = some d) :
    readString? before ('\\' :: c :: s) = readString? (d.toNat :: before) s := by
  rw [readString?, h]
  exact fun _ _ _ _ _ hu => absurd hu hc

/-- Any other character is itself, unless it is a control. -/
lemma readString?_self {c : Char} (hquote : c ≠ '"') (hbackslash : c ≠ '\\')
    (hc : 32 ≤ c.toNat) : readString? before (c :: s) = readString? (c.toNat :: before) s := by
  rw [readString?, if_neg (by omega)]
  · exact hquote
  · exact fun _ _ _ _ _ h => absurd h hbackslash
  · exact fun _ _ h => absurd h hbackslash

/-- A character is a number below the halves of pairs or beyond them. -/
lemma toNat_lt_or_lt (c : Char) : c.toNat < 0xD800 ∨ 0xDFFF < c.toNat ∧ c.toNat < 0x110000 :=
  c.valid

/-- A character is read back from its escape. -/
lemma readString?_escape (c : Char) :
    readString? before (escape c ++ s) = readString? (c.toNat :: before) s := by
  have hvalid := toNat_lt_or_lt c
  rw [escape]
  split_ifs with hquote hbackslash hbreak hreturn htab hback hfeed hprintable hsmall
  · subst hquote
    exact readString?_backslash (by decide) rfl
  · subst hbackslash
    exact readString?_backslash (by decide) rfl
  · subst hbreak
    exact readString?_backslash (by decide) rfl
  · subst hreturn
    exact readString?_backslash (by decide) rfl
  · subst htab
    exact readString?_backslash (by decide) rfl
  · subst hback
    exact readString?_backslash (by decide) rfl
  · subst hfeed
    exact readString?_backslash (by decide) rfl
  · exact readString?_self hquote hbackslash hprintable.1
  · exact readString?_escapeUnit hsmall (by omega)
  · -- a character beyond sixteen bits is twenty bits above them, ten for each half
    have hpoint : 0x10000 + (0xD800 + (c.toNat - 0x10000) / 0x400 - 0xD800) * 0x400
        + (0xDC00 + (c.toNat - 0x10000) % 0x400 - 0xDC00) = c.toNat := by omega
    rw [List.append_assoc, readString?_pair (by omega) (by omega), hpoint]

/-! ### Strings -/

/-- Characters are read back from their escapes, up to a closing quote. -/
lemma readString?_escapes (cs : List Char) :
    readString? before (cs.flatMap escape ++ '"' :: s)
      = some (before.reverse ++ cs.map Char.toNat, s) := by
  induction cs generalizing before with
  | nil =>
      rw [List.flatMap_nil, List.nil_append, readString?, List.map_nil, List.append_nil]
  | cons c cs ih =>
      rw [List.flatMap_cons, List.append_assoc, readString?_escape, ih, List.reverse_cons,
        List.append_assoc]
      rfl

/-- The code points of characters make up their string. -/
lemma ofPoints_toNat (t : String) : JsonString.ofPoints (t.toList.map Char.toNat) = .plain t := by
  have hcharacters : (t.toList.map Char.toNat).all JsonString.isCharacter = true := by
    rw [List.all_map, List.all_eq_true]
    exact fun c _ => decide_eq_true c.valid
  rw [JsonString.ofPoints, if_pos hcharacters, List.map_map]
  have hback : Char.ofNat ∘ Char.toNat = id := funext Char.ofNat_toNat
  rw [hback, List.map_id, String.ofList_toList]

end LocalSat.Json
