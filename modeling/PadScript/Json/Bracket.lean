import PadScript.Json.Lexeme

/-!
# Lists and objects

What stands between the items of a list and between the members of an object, and how either ends.
The item readers are arguments, so that the same reading serves typed records and plain values.
-/

namespace PadScript.Json

/-- The two kinds of brackets. -/
inductive Bracket where
  | list
  | object
  deriving DecidableEq, Repr

namespace Bracket

/-- The byte that closes a bracket. -/
def closer : Bracket → UInt8
  | .list => 0x5D
  | .object => 0x7D

/-- The end of the text inside a bracket. -/
def endCause : Bracket → Cause
  | .list => .endInList
  | .object => .endInObject

/-- No comma between two parts of a bracket. -/
def commaCause : Bracket → Cause
  | .list => .expectedListComma
  | .object => .expectedObjectComma

/-- Reads the end of a bracket whose parts have all been read. -/
def close (bracket : Bracket) : Reader Unit := fun rest =>
  match skipSpace rest with
  | [] => stopAt bracket.endCause []
  | b :: after =>
    if b = bracket.closer then .ok ((), after)
    else if b = 0x2C then
      match bracket, skipSpace after with
      | .object, _ => stopAt .trailingComma after
      | .list, 0x5D :: tail => stopAt .trailingComma tail
      | .list, tail => stopPast .trailingCharacters tail
    else stopAt .trailingCharacters after

/-- Where reading stands after an attempt to end a bracket. -/
def afterClose (bracket : Bracket) (rest : Bytes) : Bytes :=
  match skipSpace rest with
  | [] => []
  | b :: after =>
    if b = bracket.closer then after
    else if b = 0x2C ∧ bracket = .list then skipSpace after
    else b :: after

/-- Settles the place of a stop inside a bracket. -/
def settle (bracket : Bracket) (s : Stop) : Stop :=
  if s.settled then s else ⟨s.cause, bracket.afterClose s.rest, true⟩

/-- Reads the parts of a bracket after its opening byte, and its end. -/
def enclose (bracket : Bracket) (parts : Reader α) : Reader α := fun rest =>
  match parts rest with
  | .error s => .error (bracket.settle s)
  | .ok (value, rest) => do
    let ((), rest) ← bracket.close rest
    return (value, rest)

end Bracket

/-- Goes to the next item of a list: nothing at its end, else the bytes from the item on. -/
def nextItem (isFirst : Bool) (rest : Bytes) : Except Stop (Option Bytes) :=
  match skipSpace rest with
  | [] => stopAt .endInList []
  | b :: after =>
    if b = 0x5D then .ok none
    else if isFirst then .ok (some (b :: after))
    else if b = 0x2C then
      match skipSpace after with
      | [] => stopAt .endInValue []
      | c :: tail => if c = 0x5D then stopAt .trailingComma tail else .ok (some (c :: tail))
    else stopAt .expectedListComma after

/-- Goes to the next key of an object: nothing at its end, else the bytes after the quote that
opens the key. -/
def nextKey (isFirst : Bool) (rest : Bytes) : Except Stop (Option Bytes) :=
  match skipSpace rest with
  | [] => stopAt .endInObject []
  | b :: after =>
    if b = 0x7D then .ok none
    else if isFirst then
      if b = 0x22 then .ok (some after) else stopAt .keyNotString after
    else if b = 0x2C then
      match skipSpace after with
      | [] => stopAt .endInValue []
      | c :: tail =>
        if c = 0x22 then .ok (some tail)
        else if c = 0x7D then stopAt .trailingComma tail
        else stopAt .keyNotString tail
    else stopAt .expectedObjectComma after

/-- Reads the colon after a key. -/
def colon : Reader Unit := fun rest =>
  match skipSpace rest with
  | [] => stopAt .endInObject []
  | b :: after => if b = 0x3A then .ok ((), after) else stopAt .expectedColon after

/-- Reads items up to the end of a list. Each item takes at least a byte, so the number of bytes
bounds the number of items. -/
def items (item : Reader α) : Nat → Bool → Reader (List α)
  | 0, _, rest => stopAt .endInList rest
  | fuel + 1, isFirst, rest => do
    match ← nextItem isFirst rest with
    | none => .ok ([], rest)
    | some start =>
      let (a, rest) ← item start
      let (more, rest) ← items item fuel false rest
      return (a :: more, rest)

/-- Reads a list after its opening bracket. -/
def list (item : Reader α) : Reader (List α) := fun rest =>
  Bracket.list.enclose (items item (rest.length + 1) true) rest

end PadScript.Json
