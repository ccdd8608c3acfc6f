/-
Traces as text.

* `traceChars`: a trace is written as the letters and literals of its flips, with
  blanks between them;
* `entriesText`: the same for entries of known kinds, whose literals are written as they
  are;
* `readTrace`: the words of a text by pairs, of which the first names a kind and the
  second is an integer;
* `scanTrace`: the literals in a text wherever a letter, blanks and digits follow each
  other, whatever stands between them.
-/
import LocalSat.Json.Convert
import LocalSat.Trace.Flip

namespace LocalSat

open LocalSat.Text LocalSat.Number

/-! ### Writing -/

/-- The letter of a flip and the number of its literal. -/
def Flip.words (f : Flip) : List (List Char) := [[f.move.letter], intText f.literal]

/-- A trace as text. -/
def traceChars (flips : List Flip) : List Char :=
  [' '].intercalate (flips.flatMap Flip.words)

/-- A trace as text, as a string. -/
def traceText (flips : List Flip) : String := String.ofList (traceChars flips)

/-- The words of an entry of a known kind. The literal is written as it is. -/
def Entry.words (e : Entry) : Except Fault (List (List Char)) := do
  let (kind, literal) ← e.pair
  match Entry.move? kind with
  | none => throw (.unknownKind kind.plainString)
  | some move => pure [[move.letter], literal.plainString.toList]

/-- The text of the trace that entries give. -/
def entriesText (entries : List Entry) : Except Fault String := do
  let parts ← entries.mapM Entry.words
  pure (String.ofList ([' '].intercalate parts.flatten))

/-! ### Reading -/

/-- The integer in a word. -/
def readWord (w : List Char) : Except Fault Int := Json.intOfText (String.ofList w)

/-- The kind that a word names. -/
def readMove (w : List Char) : Except Fault Move :=
  match Move.ofText? (String.ofList w) with
  | some move => .ok move
  | none => .error (.unknownToken (String.ofList w))

/-- The flips in an even number of words. -/
def readPairs : List (List Char) → Except Fault (List Flip)
  | kind :: literal :: ws => do
      let move ← readMove kind
      let l ← readWord literal
      let flips ← readPairs ws
      pure (⟨move, l⟩ :: flips)
  | _ => .ok []

/-- The flips in a text. -/
def readTrace (s : List Char) : Except Fault (List Flip) :=
  let ws := words s
  if ws.length % 2 = 1 then .error .danglingToken else readPairs ws

/-! ### Scanning -/

/-- The digits with their sign after blanks, and the rest of the text. At least one
blank and one digit must be there. -/
def literalAfterBlanks? (s : List Char) : Option (List Char × List Char) :=
  let t := s.dropWhile isBlank
  if t.length = s.length then none
  else
    let (sign, u) : List Char × List Char :=
      match t with
      | '-' :: u => (['-'], u)
      | u => ([], u)
    let digits := u.takeWhile isDigit
    if digits.isEmpty then none else some (sign ++ digits, u.dropWhile isDigit)

/-- A literal takes text away. -/
theorem length_literalAfterBlanks? {s digits r : List Char}
    (h : literalAfterBlanks? s = some (digits, r)) : r.length ≤ s.length := by
  have key : ∀ t : List Char, t.length ≤ s.length →
      (t.dropWhile isDigit).length ≤ s.length := fun t ht =>
    Nat.le_trans (length_dropWhile_le _ _) ht
  have hs := length_dropWhile_le isBlank s
  unfold literalAfterBlanks? at h
  simp only at h
  split at h
  · cases h
  · split at h
    next u ht =>
      split at h
      · cases h
      · cases h
        refine key u ?_
        rw [ht] at hs
        exact Nat.le_of_succ_le hs
    next u ht =>
      split at h
      · cases h
      · cases h
        exact key _ hs

/-- The literals in a text, from left to right, each as far as it goes. -/
def scanLiterals : List Char → List (List Char)
  | [] => []
  | c :: s =>
      match (Move.ofLetter? c).isSome, h : literalAfterBlanks? s with
      | true, some (digits, r) =>
          have := length_literalAfterBlanks? h
          digits :: scanLiterals r
      | _, _ => scanLiterals s
termination_by s => s.length

/-- The literals in a text, as numbers. -/
def scanTrace (s : List Char) : Except Fault (List Int) := (scanLiterals s).mapM readWord

end LocalSat
