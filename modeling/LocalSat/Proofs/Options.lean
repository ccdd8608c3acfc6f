/-
The options of the search, as they are declared.

* `isWithin_int`, `isWithin_float`: how a number is compared with a range of integers;
  `checkInt_mem`, `checkFloat_mem`: a number that an option takes lies in its range;
* `OptionName.spelling`: the other name of an option; `OptionName.ofText?_eq_some_iff`: an option
  goes by its two names only;
* `Declaration`: an option with the value that it starts with and its check, and where it is among
  the options; `flipsFactor`, `noise`, `zeroBreakFirst`, `checkModel` and `recordTrace` are the five
  of the search;
* `Declaration.given`: what an option is once a value was given under some name; `given_eq`: the
  options have it so when one of them is set; `given_mem`: it is something that the check lets pass.
-/
import LocalSat.Options
import LocalSat.Proofs.Except
import LocalSat.Proofs.Number.Dyadic

namespace LocalSat

/-! ### Checks -/

section

variable {name : String} {low high i : Int} {x : Float} {given : Json}

/-- An integer is compared with both ends of a range of integers. -/
lemma isWithin_int (low high i : Int) :
    isWithin (.int low) (.int high) (.int i) = .ok (decide (low ≤ i) && decide (i ≤ high)) := by
  simp only [isWithin, Json.numeral?, Numeral.le]
  by_cases h : low ≤ i <;> simp [h]

/-- So is a float. -/
lemma isWithin_float (low high : Int) (x : Float) :
    isWithin (.int low) (.int high) (.float x)
      = .ok (Number.intLeFloat low x && Number.floatLeInt x high) := by
  simp only [isWithin, Json.numeral?, Numeral.le]
  by_cases h : Number.intLeFloat low x = true <;> simp [h]

/-- An integer that an option takes lies in its range. -/
lemma checkInt_mem (h : checkInt name (.int low) (.int high) given = .ok i) :
    low ≤ i ∧ i ≤ high := by
  unfold checkInt at h
  split at h
  · cases h
  cases hv : given.toInt with
  | error e => simp [hv, bind, Except.bind] at h
  | ok j =>
      simp only [hv, bind, Except.bind, isWithin_int] at h
      split at h
      · cases h
      split at h
      · next hin =>
        cases h
        simpa using hin
      · cases h

/-- An option takes the floats that values give if they lie in its range. -/
lemma checkFloat_eq_ok_iff :
    checkFloat name (.int low) (.int high) given = .ok x
      ↔ given.toFloat = .ok x
        ∧ Number.intLeFloat low x = true ∧ Number.floatLeInt x high = true := by
  rw [checkFloat]
  cases given.toFloat with
  | error e => simp [bind, Except.bind]
  | ok y =>
      simp only [bind, Except.bind, isWithin_float]
      split
      · next hin =>
        rw [Bool.and_eq_true] at hin
        refine ⟨?_, fun h => congrArg _ (Except.ok.inj h.1)⟩
        rintro ⟨⟩
        exact ⟨rfl, hin⟩
      · next hout =>
        refine iff_of_false (fun h => by cases h) ?_
        rintro ⟨⟨⟩, hin⟩
        exact hout (Bool.and_eq_true_iff.2 hin)

/-- A float that an option takes is finite and lies in its range. -/
lemma checkFloat_mem (h : checkFloat name (.int low) (.int high) given = .ok x) :
    x.isFinite = true ∧ (low : ℚ) ≤ Number.value x ∧ Number.value x ≤ high := by
  obtain ⟨-, hlow, hhigh⟩ := checkFloat_eq_ok_iff.1 h
  have hfinite := Number.isFinite_of_between hlow hhigh
  exact ⟨hfinite, (Number.intLeFloat_iff hfinite low).1 hlow,
    (Number.floatLeInt_iff hfinite high).1 hhigh⟩

end

/-! ### Declarations -/

/-- Setting an option leaves the others alone. -/
lemma Options.put_keeps {o p : Options} {option : OptionName} {value : Json}
    (h : o.put option value = .ok p) :
    (option ≠ .flipsFactor → p.flipsFactor = o.flipsFactor)
      ∧ (option ≠ .noise → p.noise = o.noise)
      ∧ (option ≠ .zeroBreakFirst → p.zeroBreakFirst = o.zeroBreakFirst)
      ∧ (option ≠ .checkModel → p.checkModel = o.checkModel)
      ∧ (option ≠ .recordTrace → p.recordTrace = o.recordTrace) := by
  cases option with
  | flipsFactor =>
      obtain ⟨i, -, hi⟩ := exists_of_bind_eq_ok h
      cases hi
      simp
  | noise =>
      obtain ⟨x, -, hx⟩ := exists_of_bind_eq_ok h
      cases hx
      simp
  | zeroBreakFirst | checkModel | recordTrace =>
      cases h
      simp

namespace OptionName

/-- The name of an option among the values that a solver has. -/
def spelling : OptionName → String
  | flipsFactor => "max_flips_factor"
  | noise => "noise"
  | zeroBreakFirst => "zero_break_first"
  | checkModel => "check_model"
  | recordTrace => "record_trace"

/-- An option goes by these two names and by no other one. -/
lemma ofText?_eq_some_iff {text : String} {option : OptionName} :
    ofText? text = some option ↔ text = option.text ∨ text = option.spelling := by
  refine ⟨fun h => ?_, ?_⟩
  · unfold ofText? at h
    split at h <;> cases h <;> simp [OptionName.text, spelling]
  · rintro (rfl | rfl) <;> cases option <;> rfl

end OptionName

/-- An option with values of a type, as it is declared. -/
structure Declaration (α : Type) where
  /-- The option. -/
  option : OptionName
  /-- The value that it is declared with. -/
  initial : Json
  /-- What it starts with. -/
  start : α
  /-- The check of a value that it is set to. -/
  check : Json → Except Fault α
  /-- Where it is among the options. -/
  field : Options → α
  /-- What it starts with has passed its check. -/
  checked : check initial = .ok start
  /-- It starts there among the options. -/
  field_default : field {} = start
  /-- It is set to what has passed its check, and to nothing else. -/
  field_put : ∀ (o : Options) value, (o.put option value).map field = check value
  /-- It is left alone when another option is set. -/
  field_put_of_ne : ∀ {o p : Options} {other value}, o.put other value = .ok p → other ≠ option →
    field p = field o

namespace Declaration

/-- The number of flips for each variable is an integer from one to the 31st power of two. -/
def flipsFactor : Declaration Int where
  option := .flipsFactor
  initial := .int 35
  start := 35
  check := checkInt OptionName.flipsFactor.text (.int 1) (.int (Number.twoPow 31))
  field := Options.flipsFactor
  checked := rfl
  field_default := rfl
  field_put o value := by
    show (checkInt _ _ _ value >>= fun i => pure { o with flipsFactor := i }).map _ = _
    cases checkInt _ _ _ value <;> rfl
  field_put_of_ne h := (Options.put_keeps h).1

/-- The chance of a random flip is a float from zero to one. -/
def noise : Declaration Float where
  option := .noise
  initial := .float 0.5
  start := 0.5
  check := checkFloat OptionName.noise.text (.int 0) (.int 1)
  field := Options.noise
  checked := checkFloat_eq_ok_iff.2 ⟨rfl, by decide +kernel⟩
  field_default := rfl
  field_put o value := by
    show (checkFloat _ _ _ value >>= fun x => pure { o with noise := x }).map _ = _
    cases checkFloat _ _ _ value <;> rfl
  field_put_of_ne h := (Options.put_keeps h).2.1

/-- An option that takes every value, as a truth value. -/
def flag (option : OptionName) (start : Bool) (field : Options → Bool) (hdefault : field {} = start)
    (hput : ∀ (o : Options) value, (o.put option value).map field = .ok value.isTruthy)
    (hne : ∀ {o p : Options} {other value}, o.put other value = .ok p → other ≠ option →
      field p = field o) : Declaration Bool where
  option := option
  initial := .bool start
  start := start
  check value := .ok value.isTruthy
  field := field
  checked := rfl
  field_default := hdefault
  field_put := hput
  field_put_of_ne := hne

/-- Flips that break nothing first. -/
def zeroBreakFirst : Declaration Bool :=
  flag .zeroBreakFirst false Options.zeroBreakFirst rfl (fun _ _ => rfl)
    fun h => (Options.put_keeps h).2.2.1

/-- The final check. -/
def checkModel : Declaration Bool :=
  flag .checkModel true Options.checkModel rfl (fun _ _ => rfl)
    fun h => (Options.put_keeps h).2.2.2.1

/-- The record of the flips. -/
def recordTrace : Declaration Bool :=
  flag .recordTrace false Options.recordTrace rfl (fun _ _ => rfl)
    fun h => (Options.put_keeps h).2.2.2.2

variable {α : Type} (d : Declaration α) {P : α → Prop}

/-- What an option is once a value was given under a name: the value as it has passed the check, if
the name is one of the option and the value passes. -/
def given (held : α) (name : String) (value : Json) : α :=
  if name = d.option.text ∨ name = d.option.spelling then
    match d.check value with
    | .ok x => x
    | .error _ => held
  else held

/-- That is what the options have for it after one of them was set under this name, and what they
had before if none can be set. -/
lemma given_eq (o : Options) (name : String) (value : Json) :
    d.given (d.field o) name value =
      match o.set name value with
      | .ok p => d.field p
      | .error _ => d.field o := by
  simp only [given, ← OptionName.ofText?_eq_some_iff, ← d.field_put o value, Options.set]
  cases OptionName.ofText? name with
  | none => rfl
  | some option =>
      dsimp only
      by_cases hoption : option = d.option
      · subst hoption
        cases o.put d.option value <;> simp [Except.map]
      · cases hput : o.put option value with
        | ok p => simp [hoption, d.field_put_of_ne hput hoption]
        | error e => simp [hoption]

/-- What every value has that passes the check of an option is kept when values are given. -/
lemma given_mem (hcheck : ∀ value x, d.check value = .ok x → P x) {held : α} (hheld : P held)
    (name : String) (value : Json) : P (d.given held name value) := by
  rw [given]
  split
  · split
    · next x hx => exact hcheck value x hx
    · exact hheld
  · exact hheld

end Declaration

end LocalSat
