/-
The words of a command line.

* `classify`: a word names a switch, in full, shortened or with a value attached, or it is
  a value, or it belongs to nothing;
* `separate`: letters of several switches in one word become words of their own;
* `Settings`: the values of the switches, and the words that belong to none of them;
* `parse`: the values, if all required switches and no other words are there.
-/
import LocalSat.CommandLine.Switch

namespace LocalSat.CommandLine

open LocalSat.Text

/-! ### One word -/

/-- What a word is. -/
inductive Word where
  /-- A value or a stray word. -/
  | plain (text : String)
  /-- A switch by one of its names, with the text that is attached to it if there is
  one. -/
  | given (switch : Switch) (name : String) (attached : Option String)
  /-- A word that looks like a switch but is none. -/
  | unknown (text : String)
  /-- The divider: words after it name no switches. -/
  | divider
  /-- A word that is wrong wherever it stands. -/
  | wrong (e : UsageError)
  deriving Repr, DecidableEq

/-- The switches with each of their names. -/
def byName (switches : List Switch) : List (String × Switch) :=
  switches.flatMap fun s => s.names.map fun name => (name, s)

/-- A text cut at its first equality sign, if it has one. -/
def cutAtEquals (s : List Char) : List Char × Option (List Char) :=
  match s.dropWhile (· != '=') with
  | [] => (s, none)
  | _ :: r => (s.takeWhile (· != '='), some r)

/-- A cut loses the equality sign and nothing else. -/
theorem eq_of_cutAtEquals {s start rest : List Char} (h : cutAtEquals s = (start, some rest)) :
    s = start ++ '=' :: rest := by
  unfold cutAtEquals at h
  split at h
  · cases h
  · next c r hr =>
    cases h
    have hc : c = '=' := by
      have := List.head_dropWhile_not (· != '=') (l := s) (by simp [hr])
      simpa [hr] using this
    subst hc
    exact List.takeWhile_append_dropWhile.symm.trans (congrArg _ hr)

/-- Whether a text has the form of a negative number without an exponent. A line break
may follow it. -/
def isNegativeNumber : List Char → Bool
  | '-' :: s =>
      let rest := s.dropWhile isDigit
      let atEnd (r : List Char) : Bool := r == [] || r == ['\n']
      (atEnd rest && rest.length < s.length) ||
        (match rest with
          | '.' :: r =>
              let tail := r.dropWhile isDigit
              atEnd tail && tail.length < r.length
          | _ => false)
  | _ => false

/-- The switches that a word may name: those with a name that it shortens, and for a word
with one hyphen those named by its first two characters. -/
def candidates (switches : List Switch) (word : List Char) :
    List (String × Switch × Option String) :=
  match word with
  | '-' :: '-' :: _ =>
      let (start, attached) := cutAtEquals word
      (byName switches).filterMap fun (name, s) =>
        if start.isPrefixOf name.toList then some (name, s, attached.map String.ofList) else none
  | _ =>
      (byName switches).filterMap fun (name, s) =>
        if name.toList == word.take 2 then some (name, s, some (String.ofList (word.drop 2)))
        else if word.isPrefixOf name.toList then some (name, s, none)
        else none

/-- The switch that a word names in full, with what is attached after an equality sign. -/
def named? (switches : List Switch) (word : String) : Option Word :=
  match (byName switches).lookup word with
  | some s => some (.given s word none)
  | none =>
      match cutAtEquals word.toList with
      | (start, some attached) =>
          let name := String.ofList start
          ((byName switches).lookup name).map fun s =>
            .given s name (some (String.ofList attached))
      | (_, none) => none

/-- What a word is. -/
def classify (switches : List Switch) (word : String) : Except UsageError Word :=
  match word.toList with
  | '-' :: _ :: _ =>
      match named? switches word with
      | some w => .ok w
      | none =>
          match candidates switches word.toList with
          | [(name, s, attached)] => .ok (.given s name attached)
          | [] =>
              if isNegativeNumber word.toList || word.toList.contains ' ' then .ok (.plain word)
              else .ok (.unknown word)
          | several => .error (.ambiguous word (several.map fun c => c.1))
  | _ => .ok (.plain word)

/-- What the words of a list are. Words after a divider are plain. -/
def classifyAll (switches : List Switch) : List String → Except UsageError (List Word)
  | [] => .ok []
  | w :: ws =>
      if w = "--" then .ok (.divider :: ws.map Word.plain)
      else do
        let word ← classify switches w
        let words ← classifyAll switches ws
        pure (word :: words)

/-! ### Switches in one word -/

/-- The switches that a text attached to a switch without a value names by their letters,
up to the first one with a value, to which the rest of the text is attached. -/
def chained (switches : List Switch) (switch : Switch) : List Char → Except UsageError (List Word)
  | [] => .error (.unwantedOperand switch.label "")
  | c :: rest =>
      let name := String.ofList ['-', c]
      match (byName switches).lookup name with
      | none => .error (.unwantedOperand switch.label (String.ofList (c :: rest)))
      | some next =>
          if rest.isEmpty then .ok [.given next name none]
          else if next.takesWord then .ok [.given next name (some (String.ofList rest))]
          else (chained switches next rest).map (Word.given next name none :: ·)

/-- Whether the last one of some words is a switch that lacks its value. -/
def lacking? (chain : List Word) : Option Switch :=
  match chain.getLast? with
  | some (.given switch _ none) => if switch.takesWord then some switch else none
  | _ => none

/-- Whether the first one of some words is a value. -/
def startsPlain : List Word → Bool
  | .plain _ :: _ => true
  | _ => false

/-- The words that a switch without a value stands for when a text is attached to it. Only
after a name with one hyphen may the text name more switches. -/
def unchained (switches : List Switch) (switch : Switch) (name attached : String)
    (after : List Word) : List Word :=
  if name.startsWith "--" then [.wrong (.unwantedOperand switch.label attached)]
  else
    match chained switches switch attached.toList with
    | .error e => [.wrong e]
    | .ok chain =>
        match lacking? chain with
        | some last =>
            if startsPlain after then .given switch name none :: chain
            else [.wrong (.missingOperand last.label)]
        | none => .given switch name none :: chain

/-- The words of a list, each of which stands for one switch or value. -/
def separate (switches : List Switch) : List Word → List Word
  | [] => []
  | .given switch name (some attached) :: ws =>
      if switch.takesWord then .given switch name (some attached) :: separate switches ws
      else unchained switches switch name attached ws ++ separate switches ws
  | w :: ws => w :: separate switches ws

/-! ### All words -/

/-- The values of switches by key, the last one first, and the words that belong to no
switch. -/
structure Settings where
  /-- The values. -/
  values : List (String × Value)
  /-- The stray words. -/
  stray : List String
  deriving Repr

namespace Settings

/-- No values. -/
def empty : Settings := ⟨[], []⟩

/-- One more value. -/
def put (s : Settings) (switch : Switch) (v : Value) : Settings :=
  { s with values := (switch.key, v) :: s.values }

/-- One more stray word. -/
def addStray (s : Settings) (w : String) : Settings := { s with stray := s.stray ++ [w] }

/-- Whether a switch is there. -/
def has (s : Settings) (switch : Switch) : Bool := (s.values.lookup switch.key).isSome

/-- The text that a switch is set to, which is empty when it was dropped. -/
def text? (s : Settings) (key : String) : Option String :=
  (s.values.lookup key).map fun
    | .text t => t
    | _ => ""

/-- The text that a switch is set to, unless it was dropped. -/
def textIfKept? (s : Settings) (key : String) : Option String :=
  match s.values.lookup key with
  | some (.text t) => some t
  | _ => none

/-- The integer that a switch is set to, or else the given one. There is none when it was
dropped. -/
def integer (s : Settings) (key : String) (absent : Int) : Option Int :=
  match s.values.lookup key with
  | some (.integer i) => some i
  | some _ => none
  | none => some absent

/-- The number that a switch is set to, or else the given one. There is none when it was
dropped. -/
def number (s : Settings) (key : String) (absent : Float) : Option Float :=
  match s.values.lookup key with
  | some (.number x) => some x
  | some _ => none
  | none => some absent

/-- What a switch is set to as a value, or else the given one. -/
def value (s : Settings) (key : String) (absent : Json) : Json :=
  match s.values.lookup key with
  | some v => v.toJson
  | none => absent

/-- Whether a switch without a value is there. -/
def isPresent (s : Settings) (key : String) : Bool := (s.values.lookup key).isSome

/-- Goes through words and takes the word after a switch as its value when there has to
be one. -/
def take (s : Settings) : List Word → Except UsageError Settings
  | [] => .ok s
  | .plain w :: ws => (s.addStray w).take ws
  | .unknown w :: ws => (s.addStray w).take ws
  | .divider :: ws => (s.addStray "--").take ws
  | .wrong e :: _ => .error e
  | .given switch _ (some attached) :: ws =>
      if switch.takesWord then do
        let v ← switch.readAttached attached
        (s.put switch v).take ws
      else .error (.unwantedOperand switch.label attached)
  | .given switch _ none :: .plain w :: ws =>
      if switch.takesWord then do
        let v ← switch.read w
        (s.put switch v).take ws
      else do
        let v ← switch.read ""
        ((s.put switch v).addStray w).take ws
  | .given switch _ none :: ws =>
      if switch.takesWord then .error (.missingOperand switch.label)
      else do
        let v ← switch.read ""
        (s.put switch v).take ws

end Settings

/-- The values that the words of a command line give to switches. -/
def parse (switches : List Switch) (words : List String) : Except UsageError Settings := do
  let all := Switch.help :: switches
  let classified ← classifyAll all words
  let s ← Settings.empty.take (separate all classified)
  let missing := all.filter fun switch => switch.required && !s.has switch
  if !missing.isEmpty then throw (.missing (missing.map Switch.label))
  else if !s.stray.isEmpty then throw (.unrecognized s.stray)
  else pure s

end LocalSat.CommandLine
