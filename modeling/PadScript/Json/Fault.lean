import PadScript.Binary64
import PadScript.Text.Quoted
import PadScript.Text.Utf8

/-!
# What can be wrong with JSON text

JSON is read from left to right and converted while it is read, so one fault stops the reading. A
stop remembers the bytes that were not read yet; the line of a fault is counted from them.
-/

namespace PadScript.Json

/-- A number as it was read: integers of 64 bits keep their value, all others are rounded. -/
inductive Number where
  | natural (n : Nat)
  | negative (n : Nat)
  | real (isNegative : Bool) (magnitude : Binary64)
  deriving DecidableEq, Repr

/-- A value that is no bracket. -/
inductive Scalar where
  | null
  | bool (b : Bool)
  | number (n : Number)
  | string (s : Text)
  deriving DecidableEq, Repr

/-- What was found where something else was expected. -/
inductive Found where
  | scalar (s : Scalar)
  | sequence
  | map
  deriving DecidableEq, Repr

/-- Why reading stopped. -/
inductive Cause where
  | endInValue
  | endInList
  | endInObject
  | endInString
  | expectedValue
  | expectedIdent
  | expectedColon
  | expectedListComma
  | expectedObjectComma
  | keyNotString
  | invalidNumber
  | numberOutOfRange
  | invalidEscape
  | unpairedEscape
  | loneSurrogate
  | controlCharacter
  | invalidCodePoint
  | trailingComma
  | trailingCharacters
  | tooDeep
  | wrongType (found : Found) (expected : Text)
  | wrongValue (found : Found) (expected : Text)
  | wrongLength (length : Nat) (expected : Text)
  | missingField (key : Text)
  | duplicateField (key : Text)
  | noVariant (type : Text)
  deriving DecidableEq, Repr

/-- The text of a number in a message. -/
def Number.describe : Number → Text
  | .natural n => "integer `".toList ++ Text.ofNat n ++ "`".toList
  | .negative n => "integer `-".toList ++ Text.ofNat n ++ "`".toList
  | .real isNegative magnitude =>
    "floating point `".toList ++ (if isNegative then ['-'] else []) ++ magnitude.toText ++
      "`".toList

/-- The text of a value in a message. -/
def Scalar.describe : Scalar → Text
  | .null => "null".toList
  | .bool true => "boolean `true`".toList
  | .bool false => "boolean `false`".toList
  | .number n => n.describe
  | .string s => "string ".toList ++ Text.quoted s

/-- The text of what was found in a message. -/
def Found.describe : Found → Text
  | .scalar s => s.describe
  | .sequence => "sequence".toList
  | .map => "map".toList

/-- The text of a cause. -/
def Cause.message : Cause → Text
  | .endInValue => "EOF while parsing a value".toList
  | .endInList => "EOF while parsing a list".toList
  | .endInObject => "EOF while parsing an object".toList
  | .endInString => "EOF while parsing a string".toList
  | .expectedValue => "expected value".toList
  | .expectedIdent => "expected ident".toList
  | .expectedColon => "expected `:`".toList
  | .expectedListComma => "expected `,` or `]`".toList
  | .expectedObjectComma => "expected `,` or `\x7d`".toList
  | .keyNotString => "key must be a string".toList
  | .invalidNumber => "invalid number".toList
  | .numberOutOfRange => "number out of range".toList
  | .invalidEscape => "invalid escape".toList
  | .unpairedEscape => "unexpected end of hex escape".toList
  | .loneSurrogate => "lone leading surrogate in hex escape".toList
  | .controlCharacter =>
    "control character (\\u0000-\\u001F) found while parsing a string".toList
  | .invalidCodePoint => "invalid unicode code point".toList
  | .trailingComma => "trailing comma".toList
  | .trailingCharacters => "trailing characters".toList
  | .tooDeep => "recursion limit exceeded".toList
  | .wrongType found expected =>
    "invalid type: ".toList ++ found.describe ++ ", expected ".toList ++ expected
  | .wrongValue found expected =>
    "invalid value: ".toList ++ found.describe ++ ", expected ".toList ++ expected
  | .wrongLength length expected =>
    "invalid length ".toList ++ Text.ofNat length ++ ", expected ".toList ++ expected
  | .missingField key => "missing field `".toList ++ key ++ "`".toList
  | .duplicateField key => "duplicate field `".toList ++ key ++ "`".toList
  | .noVariant type => "data did not match any variant of untagged enum ".toList ++ type

/-- A fault of the text, and the line where reading stopped. -/
structure Fault where
  cause : Cause
  line : Nat
  deriving DecidableEq, Repr

/-- The text of a fault. -/
def Fault.message (f : Fault) : Text :=
  f.cause.message ++ " at line ".toList ++ Text.ofNat f.line

/-- A stop while reading: its cause and the bytes after it. A stop that is not settled still waits
for the end of the record around it, where its place is. -/
structure Stop where
  cause : Cause
  rest : Bytes
  settled : Bool
  deriving DecidableEq, Repr

/-- The number of line feeds. -/
def lineFeeds (bytes : Bytes) : Nat := bytes.count 0x0A

/-- The fault of a stop in a text. -/
def Stop.fault (input : Bytes) (s : Stop) : Fault :=
  ⟨s.cause, lineFeeds input - lineFeeds s.rest + 1⟩

/-- A reader takes a value from the front of the bytes. -/
abbrev Reader (α : Type) := Bytes → Except Stop (α × Bytes)

/-- Stops before the bytes. -/
def stopAt (cause : Cause) (rest : Bytes) : Except Stop α := .error ⟨cause, rest, true⟩

/-- Stops at the next byte, which counts as read. -/
def stopPast (cause : Cause) (rest : Bytes) : Except Stop α := .error ⟨cause, rest.tail, true⟩

/-- Stops here, at a place that the end of the record around it will settle. -/
def stopOpen (cause : Cause) (rest : Bytes) : Except Stop α := .error ⟨cause, rest, false⟩

end PadScript.Json
