/-
Computations that may fail.

* `exists_of_bind_eq_ok`, `exists_of_map_eq_ok`, `eq_ok_of_toOption`: what a computation that
  succeeds comes from;
* `exists_mapM_shown`, `exists_mapM_eq_ok`, `mapM_map_eq_ok`, `mapM_eq_ok`: values are read one by
  one, if each of them can be read;
* `forall₂_of_mapM_eq_ok`, `exists_getElem?_of_mapM_eq_ok`, `forall_mem_of_mapM_eq_ok`: what values
  are read as stands in their order, and has what all that is read has;
* `mapM_eq_ok_iff`: no others are read, if none is read as another one.
-/
import Mathlib.Data.List.Forall2
import Mathlib.Tactic.Common

namespace LocalSat

variable {ε α β γ : Type}

/-- A sequence that succeeds succeeds with both of its parts. -/
lemma exists_of_bind_eq_ok {x : Except ε α} {f : α → Except ε β} {b : β}
    (h : x >>= f = .ok b) : ∃ a, x = .ok a ∧ f a = .ok b := by
  cases x with
  | error e => cases h
  | ok a => exact ⟨a, rfl, h⟩

/-- A value that is changed comes from a computation that succeeds. -/
lemma exists_of_map_eq_ok {x : Except ε α} {f : α → β} {b : β} (h : x.map f = .ok b) :
    ∃ a, x = .ok a ∧ f a = b := by
  cases x with
  | error e => cases h
  | ok a => exact ⟨a, rfl, Except.ok.inj h⟩

/-- A computation that has a value succeeds with it. -/
lemma eq_ok_of_toOption {x : Except ε α} {a : α} (h : x.toOption = some a) : x = .ok a := by
  cases x with
  | error e => cases h
  | ok b => exact congrArg _ (Option.some.inj h)

/-- Values can be read as values that show something of them, if each of them can. -/
lemma exists_mapM_shown {δ : Type} (read : β → Except ε γ) (shown : γ → δ) (f : β → δ)
    {bs : List β} (h : ∀ b ∈ bs, ∃ c, read b = .ok c ∧ shown c = f b) :
    ∃ cs, bs.mapM read = .ok cs ∧ cs.map shown = bs.map f := by
  induction bs with
  | nil => exact ⟨[], rfl, rfl⟩
  | cons b bs ih =>
      rw [List.forall_mem_cons] at h
      obtain ⟨⟨c, hc, hshown⟩, hbs⟩ := h
      obtain ⟨cs, hcs, hrest⟩ := ih hbs
      refine ⟨c :: cs, ?_, by rw [List.map_cons, List.map_cons, hshown, hrest]⟩
      rw [List.mapM_cons, hc, hcs]
      rfl

/-- Written values can be read as values that stand for them, if each of them can. -/
lemma exists_mapM_eq_ok {write : α → β} {read : β → Except ε γ} {shown : γ → α} {as : List α}
    (h : ∀ a ∈ as, ∃ c, read (write a) = .ok c ∧ shown c = a) :
    ∃ cs, (as.map write).mapM read = .ok cs ∧ cs.map shown = as := by
  have hread := exists_mapM_shown (read ∘ write) shown id h
  rwa [List.map_id, ← List.mapM_map] at hread

/-- What values are read as stands in their order. -/
lemma forall₂_of_mapM_eq_ok {read : β → Except ε γ} {bs : List β} {cs : List γ}
    (h : bs.mapM read = .ok cs) : List.Forall₂ (fun b c => read b = .ok c) bs cs := by
  induction bs generalizing cs with
  | nil =>
      cases h
      exact .nil
  | cons b bs ih =>
      rw [List.mapM_cons] at h
      obtain ⟨c, hc, h⟩ := exists_of_bind_eq_ok h
      obtain ⟨cs', hcs, h⟩ := exists_of_bind_eq_ok h
      cases h
      exact .cons hc (ih hcs)

/-- So a value at some place is read as the one at this place. -/
lemma exists_getElem?_of_mapM_eq_ok {read : β → Except ε γ} {bs : List β} {cs : List γ}
    (h : bs.mapM read = .ok cs) {i : Nat} {b : β} (hb : bs[i]? = some b) :
    ∃ c, cs[i]? = some c ∧ read b = .ok c := by
  have hall := forall₂_of_mapM_eq_ok h
  obtain ⟨hi, rfl⟩ := List.getElem?_eq_some_iff.1 hb
  have hi' : i < cs.length := hall.length_eq ▸ hi
  exact ⟨cs[i], List.getElem?_eq_getElem hi', hall.get hi hi'⟩

/-- What every value is read as has what all of these have. -/
lemma forall_mem_of_mapM_eq_ok {read : β → Except ε γ} {P : γ → Prop}
    (hread : ∀ {b c}, read b = .ok c → P c) {bs : List β} {cs : List γ}
    (h : bs.mapM read = .ok cs) : ∀ c ∈ cs, P c := by
  have hall := forall₂_of_mapM_eq_ok h
  clear h
  induction hall with
  | nil => simp
  | cons hc _ ih => exact List.forall_mem_cons.2 ⟨hread hc, ih⟩

/-- Written values are read as what each of them is read as. -/
lemma mapM_map_eq_ok {write : α → β} {read : β → Except ε γ} {f : α → γ} {as : List α}
    (h : ∀ a ∈ as, read (write a) = .ok (f a)) : (as.map write).mapM read = .ok (as.map f) := by
  induction as with
  | nil => rfl
  | cons a as ih =>
      rw [List.forall_mem_cons] at h
      rw [List.map_cons, List.mapM_cons, h.1, ih h.2]
      rfl

/-- Written values are read back, if each of them is. -/
lemma mapM_eq_ok {write : α → β} {read : β → Except ε α} {as : List α}
    (h : ∀ a ∈ as, read (write a) = .ok a) : (as.map write).mapM read = .ok as := by
  have hread := mapM_map_eq_ok (f := id) h
  rwa [List.map_id] at hread

/-- If a value is read exactly when it was written, the same is true of values. -/
lemma mapM_eq_ok_iff {write : α → β} {read : β → Except ε α} {bs : List β} {as : List α}
    (h : ∀ b a, read b = .ok a ↔ b = write a) : bs.mapM read = .ok as ↔ bs = as.map write := by
  refine ⟨fun hread => ?_, ?_⟩
  · have hall : List.Forall₂ (fun b a => b = write a) bs as :=
      (forall₂_of_mapM_eq_ok hread).imp fun b a => (h b a).1
    rwa [← List.forall₂_map_right_iff, List.forall₂_eq_eq_eq] at hall
  · rintro rfl
    exact mapM_eq_ok fun a _ => (h _ a).2 rfl

end LocalSat
