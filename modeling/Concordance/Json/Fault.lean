import Concordance.Text.Printable

/-!
What can be wrong with a JSON text. A fault has a cause and, once it has been placed, the number of
bytes that were left when it was found; from this follow its line and its column, which counts the bytes
read on the line.
-/

namespace Concordance.Json

/-- What was met where something else was wanted. -/
inductive Found where
  | null
  | boolean (value : Bool)
  | integer (value : Int)
  /-- A number that is no integer, by its text. -/
  | float (text : String)
  | string (value : String)
  | sequence
  | map
deriving DecidableEq, Repr

def Found.text : Found → String
  | null => "null"
  | boolean b => "boolean `" ++ (if b then "true" else "false") ++ "`"
  | integer n => "integer `" ++ toString n ++ "`"
  | float t => "floating point `" ++ t ++ "`"
  | string s => "string " ++ Text.debugQuote s
  | sequence => "sequence"
  | map => "map"

inductive Cause where
  /-- The text ends inside a list. -/
  | endInList
  | endInObject
  | endInString
  | endInValue
  | expectedColon
  | expectedCommaInList
  | expectedCommaInObject
  /-- A word other than the one that was begun. -/
  | expectedWord
  | expectedValue
  | expectedKey
  | invalidEscape
  | invalidNumber
  | numberOutOfRange
  | invalidCodePoint
  | controlCharacter
  /-- A surrogate without its partner. -/
  | loneSurrogate
  /-- The second half of a surrogate pair is missing. -/
  | endOfEscape
  | trailingComma
  | trailingCharacters
  | invalidType (found : Found) (expected : String)
  | invalidValue (found : Found) (expected : String)
  | invalidLength (length : Nat) (expected : String)
  | missingField (name : String)
  | duplicateField (name : String)
  | unknownVariant (name : String) (known : List String)
deriving DecidableEq, Repr

/-- The kinds of faults: the text ends too early, it is no JSON, or it is not the data wanted. -/
inductive Category where
  | early
  | malformed
  | unsuited
deriving DecidableEq, Repr

namespace Cause

def category : Cause → Category
  | endInList | endInObject | endInString | endInValue => .early
  | invalidType .. | invalidValue .. | invalidLength .. | missingField _ | duplicateField _
  | unknownVariant .. => .unsuited
  | _ => .malformed

/-- The names that would have been right. -/
def oneOf : List String → String
  | [] => "there are no variants"
  | [a] => "expected `" ++ a ++ "`"
  | [a, b] => "expected `" ++ a ++ "` or `" ++ b ++ "`"
  | names => "expected one of " ++ String.intercalate ", " (names.map fun n => "`" ++ n ++ "`")

def message : Cause → String
  | endInList => "EOF while parsing a list"
  | endInObject => "EOF while parsing an object"
  | endInString => "EOF while parsing a string"
  | endInValue => "EOF while parsing a value"
  | expectedColon => "expected `:`"
  | expectedCommaInList => "expected `,` or `]`"
  | expectedCommaInObject => "expected `,` or `\x7d`"
  | expectedWord => "expected ident"
  | expectedValue => "expected value"
  | expectedKey => "key must be a string"
  | invalidEscape => "invalid escape"
  | invalidNumber => "invalid number"
  | numberOutOfRange => "number out of range"
  | invalidCodePoint => "invalid unicode code point"
  | controlCharacter => "control character (\\u0000-\\u001F) found while parsing a string"
  | loneSurrogate => "lone leading surrogate in hex escape"
  | endOfEscape => "unexpected end of hex escape"
  | trailingComma => "trailing comma"
  | trailingCharacters => "trailing characters"
  | invalidType found expected => "invalid type: " ++ found.text ++ ", expected " ++ expected
  | invalidValue found expected => "invalid value: " ++ found.text ++ ", expected " ++ expected
  | invalidLength n expected => "invalid length " ++ toString n ++ ", expected " ++ expected
  | missingField name => "missing field `" ++ name ++ "`"
  | duplicateField name => "duplicate field `" ++ name ++ "`"
  | unknownVariant name known => "unknown variant `" ++ name ++ "`, " ++ oneOf known

end Cause

/-- A cause, and how many bytes were left when it was found. -/
structure Fault where
  cause : Cause
  left : Option Nat := none
deriving DecidableEq, Repr

/-- What is wrong with a text, and where. -/
structure ReadError where
  cause : Cause
  line : Nat
  column : Nat
deriving DecidableEq, Repr

/-- The place of a fault in a text. -/
def Fault.inText (f : Fault) (bytes : List UInt8) : ReadError :=
  let seen := bytes.take (bytes.length - f.left.getD 0)
  ⟨f.cause, seen.count 10 + 1, (seen.reverse.takeWhile (· ≠ 10)).length⟩

def ReadError.message (e : ReadError) : String :=
  e.cause.message ++ " at line " ++ toString e.line ++ " column " ++ toString e.column

end Concordance.Json
