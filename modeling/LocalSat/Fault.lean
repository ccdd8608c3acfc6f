/-
Causes of failure.

* `Fault`: everything that can go wrong, by cause, with the values that the message
  about it shows;
* `Fault.message`: the text of the message.
-/
import LocalSat.Json.Display
import LocalSat.Json.Reader
import LocalSat.Number.Numeral

namespace LocalSat

open LocalSat.Text LocalSat.Number

/-- The cause of a failure. -/
inductive Fault where
  /-- A number is expected, and the value cannot be read as one. -/
  | notNumeric
  /-- A text, or what bytes spell, is not the text of an integer. -/
  | integerText (text : Json) (flaw : IntegerFlaw)
  /-- A text, or what bytes spell, is not the text of a number. -/
  | floatText (text : Json)
  /-- What is no number has no integer part. -/
  | integerOfNan
  /-- An infinity has no integer part. -/
  | integerOfInfinity
  /-- An integer lies beyond all floats. -/
  | beyondFloats
  /-- A list is expected, and the value has no items. -/
  | notIterable
  /-- An object is expected, and the value has no fields. -/
  | notKeyed
  /-- A text is expected, and the value is none. -/
  | notText
  /-- An operation is given too few or too many values. -/
  | argumentCount
  /-- An option takes integers only. -/
  | optionNotInteger (name : String) (value : Json)
  /-- The value of an option lies outside of its range. -/
  | optionRange (name : String) (low high : Json) (value : Numeral)
  /-- No option has the name. -/
  | unknownOption (name : String)
  /-- The number of variables is no positive integer. -/
  | variableCount (value : Json)
  /-- A size is beyond the addresses of a machine. -/
  | beyondAddresses
  /-- A size is beyond the memory of a machine. -/
  | beyondMemory
  /-- The size of a table is beyond the addresses of a machine. -/
  | wideDimension
  /-- The bytes of a table are beyond the addresses of a machine. -/
  | wideTable
  /-- The bytes of a table are beyond the memory of a machine. -/
  | tableBeyondMemory
  /-- A literal is no integer. -/
  | literalType (value : Json)
  /-- A literal is zero or names a variable that does not exist. -/
  | literalRange (literal : Int) (varCount : Nat)
  /-- A seed does not fit into 64 bits. -/
  | seedRange (seed : Json)
  /-- A seed is in range but is a float, which has no bytes. -/
  | floatSeed
  /-- A seed has too few bytes. -/
  | seedLength (bytes : Nat)
  /-- A number does not fit into a byte. -/
  | byteRange
  /-- An index lies outside of a list. -/
  | badIndex
  /-- An index is not a member of the set it is taken from. -/
  | absentMember (index : Json)
  /-- The search has not been set up. -/
  | notInitialised
  /-- A choice among nothing. -/
  | emptyChoice
  /-- A choice among more than 64 bits can count. -/
  | wideChoice
  /-- A script of random answers has come to its end. -/
  | scriptExhausted
  /-- A scripted index does not fit the choice it answers. -/
  | scriptRange
  /-- A remainder by zero. -/
  | zeroInterval
  /-- The final check refutes the assignment that was found. -/
  | invalidModel
  /-- An event has fewer than two parts. -/
  | shortEvent (parts : Nat)
  /-- An event has more than two parts. -/
  | longEvent
  /-- An event is of no known kind. -/
  | unknownKind (kind : String)
  /-- A kind of event is not among those that are counted. -/
  | uncountedKind (kind : Json)
  /-- A kind of event cannot be looked up. -/
  | kindNotKey
  /-- The last word of a trace lacks its partner. -/
  | danglingToken
  /-- A word of a trace names no kind of event. -/
  | unknownToken (token : String)
  /-- A flip sets a variable to the value it has. -/
  | redundantFlip (step : Nat) (number : Int)
  /-- The first line of a formula file is of another format. -/
  | preamble
  /-- A word of a formula file is no integer. -/
  | integerToken
  /-- A clause in a formula file does not end with zero. -/
  | openClause
  /-- Something follows the zero that ends a clause in a formula file. -/
  | trailingText
  /-- A text is no JSON document. -/
  | json (flaw : Json.Flaw)
  /-- Bytes are to be written into a JSON document. -/
  | bytesInDocument
  /-- The seed of a generator is negative. -/
  | negativeSeed
  /-- A number of samples is negative. -/
  | negativeSize
  /-- Samples are taken from nothing. -/
  | emptyPopulation
  /-- More samples are taken than there are members. -/
  | smallPopulation
  /-- The upper end of a range of integers does not exceed its lower end. -/
  | emptyRange
  /-- The lower end of a range of integers does not fit into 64 bits. -/
  | lowBound
  /-- The width of a range of numbers is not finite. -/
  | infiniteSpan
  /-- The upper end of a range of numbers lies below its lower end. -/
  | negativeSpan
  /-- A formula has fewer variables than a clause needs. -/
  | fewVariables (needed available : Int)
  /-- No clause can take up an unused variable. -/
  | noClauseToPatch
  /-- A record is not an object. -/
  | notObject
  /-- A summary lacks a field. -/
  | missingField (name : String)
  /-- A text stands where a number is to be written with decimal places. -/
  | placesOfText
  /-- A setting of a batch has no such name. -/
  | unknownSetting
  /-- The folder for the files is none. -/
  | noFolder
  /-- A file does not exist. -/
  | fileMissing
  /-- A folder stands where a file is expected. -/
  | fileIsFolder
  /-- A file stands where a folder is expected. -/
  | fileNotFolder
  deriving Inhabited

namespace Fault

/-- The number of characters of a quoted text that the message about it has room for. -/
def quoteLimit : Nat := 200

/-- The message about the text of a number that is no integer. A long text is cut off. -/
def integerMessage (text : Json) : IntegerFlaw → String
  | .malformed =>
      "invalid literal for int() with base 10: " ++
        String.ofList (text.display.take quoteLimit)
  | .tooLong digits =>
      "Exceeds the limit (" ++ toString digitLimit ++
        " digits) for integer string conversion: value has " ++ toString digits ++
        " digits; use sys.set_int_max_str_digits() to increase the limit"

/-- The text of the message about a failure. Causes that carry no message of their own
have the empty one. -/
def message : Fault → String
  | integerText text flaw => integerMessage text flaw
  | floatText text => "could not convert string to float: " ++ text.displayString
  | integerOfNan => "cannot convert float NaN to integer"
  | optionNotInteger name value =>
      "Option '" ++ name ++ "' must be an integer, got " ++ value.displayString ++ "."
  | optionRange name low high value =>
      "Option '" ++ name ++ "' must be in [" ++ low.displayString ++ ", " ++
        high.displayString ++ "], got " ++ value.text ++ "."
  | unknownOption name => "Unknown option '" ++ name ++ "'."
  | variableCount value =>
      "num_variables must be a positive integer, got " ++ value.displayString ++ "."
  | literalType value => "Literal must be an integer, got " ++ value.displayString ++ "."
  | literalRange literal varCount =>
      "Literal " ++ intString literal ++ " out of range for " ++ toString varCount ++
        " variables."
  | seedRange seed =>
      "Seed must be an unsigned 64-bit integer, got " ++ seed.displayString ++ "."
  | seedLength bytes => "Seed needs at least 8 bytes, got " ++ toString bytes ++ "."
  | byteRange => "bytes must be in range(0, 256)"
  | absentMember index => index.displayString
  | emptyChoice => "high <= 0"
  | wideChoice => "high is out of bounds for int64"
  | invalidModel => "Invalid solution found!"
  | shortEvent parts =>
      "not enough values to unpack (expected 2, got " ++ toString parts ++ ")"
  | longEvent => "too many values to unpack (expected 2)"
  | unknownKind kind => "Unknown trace event kind '" ++ kind ++ "'"
  | uncountedKind kind => kind.displayString
  | danglingToken => "Trace string has a dangling token"
  | unknownToken token => "Unknown token '" ++ token ++ "'"
  | redundantFlip step v =>
      "Flip " ++ toString step ++ " sets variable " ++ intString v ++
        " to the value it already has"
  | preamble => "invalid CNF preamble"
  | integerToken => "invalid integer token"
  | openClause => "unexpected end of input while parsing integer"
  | trailingText => "unexpected trailing characters after clause terminator"
  | json (.tooLong digits) => integerMessage .null (.tooLong digits)
  | negativeSeed => "expected non-negative integer"
  | negativeSize => "negative dimensions are not allowed"
  | wideDimension => "Maximum allowed dimension exceeded"
  | wideTable =>
      "array is too big; `arr.size * arr.dtype.itemsize` is larger than the maximum " ++
        "possible size."
  | emptyPopulation => "a must be a positive integer unless no samples are taken"
  | smallPopulation => "Cannot take a larger sample than population when replace is False"
  | emptyRange => "low >= high"
  | lowBound => "low is out of bounds for int64"
  | negativeSpan => "high - low < 0"
  | fewVariables needed available =>
      "Need at least " ++ intString needed ++ " variables, got " ++ intString available ++ "."
  | noClauseToPatch =>
      "No clause found to safely replace a variable with an unused variable."
  | placesOfText => "Unknown format code 'f' for object of type 'str'"
  | missingField name => String.ofList (quoted name.toList)
  | _ => ""

end Fault

end LocalSat
