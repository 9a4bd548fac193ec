import PadScript.Json.Skip
import PadScript.Json.Value
import PadScript.Timeline

/-!
# Records

A record pairs a time with a payload. It is written as an object with two keys, in any order and
among others, or as a list of the two.
-/

namespace PadScript.Json

/-- The name of a record type and its two keys. -/
structure RecordType where
  name : Text
  timeKey : Text
  payloadKey : Text

/-- What a message calls a record of this type. -/
def RecordType.describe (type : RecordType) : Text := "struct ".toList ++ type.name

/-- What a message calls a list that stands for a record of this type. -/
def RecordType.describeList (type : RecordType) : Text :=
  type.describe ++ " with 2 elements".toList

/-- Reads a time. -/
def millis : Reader Millis := fun rest => do
  let (n, rest) ← unsigned UInt32.size "u32".toList rest
  return (UInt32.ofNat n, rest)

/-- Reads the two items of a record in list form. -/
def recordItems (type : RecordType) (payload : Reader α) : Reader (Millis × α) := fun rest => do
  match ← nextItem true rest with
  | none => stopOpen (.wrongLength 0 type.describeList) rest
  | some rest =>
    let (time, rest) ← millis rest
    match ← nextItem false rest with
    | none => stopOpen (.wrongLength 1 type.describeList) rest
    | some rest =>
      let (a, rest) ← payload rest
      return ((time, a), rest)

/-- Reads the members of a record in object form, with what has been read of it so far. -/
def recordMembers (type : RecordType) (payload : Reader α) :
    Nat → Bool → Option Millis → Option α → Reader (Millis × α)
  | 0, _, _, _, rest => stopAt .endInObject rest
  | fuel + 1, isFirst, time?, payload?, rest => do
    match ← nextKey isFirst rest with
    | none =>
      match time?, payload? with
      | some time, some a => .ok ((time, a), rest)
      | none, _ => stopOpen (.missingField type.timeKey) rest
      | some _, none => stopOpen (.missingField type.payloadKey) rest
    | some start =>
      let (key, rest) ← string start
      if key = type.timeKey then
        if time?.isSome then stopOpen (.duplicateField key) rest
        let ((), rest) ← colon rest
        let (time, rest) ← millis rest
        recordMembers type payload fuel false (some time) payload? rest
      else if key = type.payloadKey then
        if payload?.isSome then stopOpen (.duplicateField key) rest
        let ((), rest) ← colon rest
        let (a, rest) ← payload rest
        recordMembers type payload fuel false time? (some a) rest
      else
        let ((), rest) ← colon rest
        let rest ← skipValue rest
        recordMembers type payload fuel false time? payload? rest

/-- Reads a record. -/
def record (type : RecordType) (payload : Reader α) : Reader (Millis × α) := fun rest =>
  match skipSpace rest with
  | [] => stopAt .endInValue []
  | b :: after =>
    if b = 0x5B then Bracket.list.enclose (recordItems type payload) after
    else if b = 0x7B then
      Bracket.object.enclose
        (recordMembers type payload (after.length + 1) true none none) after
    else mismatch type.describe b after

end PadScript.Json
