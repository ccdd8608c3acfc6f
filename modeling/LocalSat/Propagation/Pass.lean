/-
One pass of unit propagation over a list of clauses.

* `Pass`: the outcome of a pass, which either refutes the clauses or leaves reduced
  ones;
* `pass`: the clauses are reduced one after the other; a clause with one literal left
  forces it, which the later clauses of the same pass already see;
* `weight_pass`: a pass that changes anything leaves fewer or shorter clauses.
-/
import LocalSat.Propagation.Reduction

namespace LocalSat

/-- The outcome of a pass over a list of clauses. -/
inductive Pass (n : Nat) where
  /-- A clause lost all of its literals, or asks for the opposite of a forced value. The
  values forced until then are given, and the number of clauses that forced one. -/
  | refuted (forced : Forced n) (found : Nat)
  /-- The clauses that are left, the forced values, the number of clauses that forced
  one, and whether the pass did more than drop repeated literals. -/
  | reduced (clauses : List (Clause n)) (forced : Forced n) (found : Nat) (changed : Bool)

namespace Pass

variable {n : Nat}

/-- The outcome with a clause in front that is left over. -/
def cons (r : ReducedClause n) : Pass n → Pass n
  | refuted f k => refuted f k
  | reduced cs f k changed => reduced (r.literals :: cs) f k (changed || r.shortened)

/-- The outcome with a clause in front that is dropped. -/
def skip : Pass n → Pass n
  | refuted f k => refuted f k
  | reduced cs f k _ => reduced cs f k true

/-- The outcome with a clause in front that forces a value. -/
def unit : Pass n → Pass n
  | refuted f k => refuted f (k + 1)
  | reduced cs f k _ => reduced cs f (k + 1) true

end Pass

variable {n : Nat}

/-- One pass of unit propagation. -/
def pass (f : Forced n) : List (Clause n) → Pass n
  | [] => .reduced [] f 0 false
  | c :: cs =>
      match c.reduce? f with
      | none => (pass f cs).skip
      | some r =>
          match r.literals with
          | [] => .refuted f 0
          | [l] =>
              match f.force? l with
              | none => .refuted f 1
              | some f' => (pass f' cs).unit
          | _ :: _ :: _ => (pass f cs).cons r

/-- The number of literals and clauses in a list of clauses. -/
def weight : List (Clause n) → Nat
  | [] => 0
  | c :: cs => c.length + 1 + weight cs

/-- A pass makes nothing heavier, and what it changes becomes lighter. -/
theorem weight_pass {f f' : Forced n} {cs cs' : List (Clause n)} {k : Nat} {changed : Bool}
    (h : pass f cs = .reduced cs' f' k changed) :
    weight cs' + (if changed then 1 else 0) ≤ weight cs := by
  induction cs generalizing f f' cs' k changed with
  | nil =>
      simp only [pass, Pass.reduced.injEq] at h
      obtain ⟨rfl, -, -, rfl⟩ := h
      simp [weight]
  | cons c cs ih =>
      simp only [pass] at h
      have hw : weight (c :: cs) = c.length + 1 + weight cs := by simp [weight]
      split at h
      · cases hp : pass f cs with
        | refuted g j => simp [hp, Pass.skip] at h
        | reduced ds g j b =>
            simp only [hp, Pass.skip, Pass.reduced.injEq] at h
            obtain ⟨rfl, -, -, rfl⟩ := h
            have := ih hp
            simp only [if_true]
            omega
      · next r hr =>
        have hlen := Clause.length_reduceFrom? f hr
        simp only [List.length_nil, Nat.zero_add] at hlen
        split at h
        · cases h
        · split at h
          · cases h
          · next g hg =>
            cases hp : pass g cs with
            | refuted g' j => simp [hp, Pass.unit] at h
            | reduced ds g' j b =>
                simp only [hp, Pass.unit, Pass.reduced.injEq] at h
                obtain ⟨rfl, -, -, rfl⟩ := h
                have := ih hp
                simp only [if_true]
                omega
        · cases hp : pass f cs with
          | refuted g j => simp [hp, Pass.cons] at h
          | reduced ds g j b =>
              simp only [hp, Pass.cons, Pass.reduced.injEq] at h
              obtain ⟨rfl, -, -, rfl⟩ := h
              have := ih hp
              have hw' : weight (r.literals :: ds) = r.literals.length + 1 + weight ds := by
                simp [weight]
              cases b <;> cases hs : r.shortened <;> simp_all <;> omega

end LocalSat
