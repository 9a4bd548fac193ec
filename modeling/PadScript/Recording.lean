import PadScript.Fault
import PadScript.Json.Record

/-!
# Recordings

A recording is a list of reports with their times, as JSON. A report is a list of bytes or their
base64 text. Recordings are checked and passed on as they are: no frame is added.
-/

namespace PadScript.Recording

/-- A report as it is recorded. -/
inductive Payload where
  | bytes (content : Bytes)
  | base64 (text : Text)
  deriving DecidableEq, Repr

/-- A report and its time. -/
structure Entry where
  time : Millis
  payload : Payload
  deriving DecidableEq, Repr

/-- The record type of recordings. -/
def recordType : Json.RecordType where
  name := "LegacyFrame".toList
  timeKey := "TimestampMs".toList
  payloadKey := "Packet".toList

/-- The byte that a JSON value is. -/
def byteOf : Json.Value → Option UInt8
  | .scalar (.number (.natural n)) => if n < UInt8.size then some (UInt8.ofNat n) else none
  | _ => none

/-- The report that a JSON value is. -/
def Payload.ofValue : Json.Value → Option Payload
  | .array items => (items.mapM byteOf).map .bytes
  | .scalar (.string text) => some (.base64 text)
  | _ => none

/-- Reads a report. The value is read whole before it is looked at; it stands inside two
brackets. -/
def payload : Json.Reader Payload := fun rest => do
  let (v, rest) ← Json.value (Json.maxDepth - 2) rest
  match Payload.ofValue v with
  | some p => .ok (p, rest)
  | none => Json.stopOpen (.noVariant "LegacyPacket".toList) rest

/-- Reads a recording to the end of the text. -/
def reader : Json.Reader (List Entry) := fun rest => do
  let (entries, rest) ← Json.array "a sequence".toList (Json.record recordType payload) rest
  let ((), rest) ← Json.finish rest
  return (entries.map fun (time, payload) => ⟨time, payload⟩, rest)

/-- Reads the entries of a recording. -/
def entries (json : Bytes) : Except Json.Fault (List Entry) :=
  match reader json with
  | .ok (entries, _) => .ok entries
  | .error stop => .error (stop.fault json)

/-- The bytes of a report. -/
def Payload.content (index : Nat) : Payload → Except Fault Bytes
  | .bytes content => .ok content
  | .base64 text =>
    (Base64.decode (Utf8.encode (Text.trim text))).mapError (.recordingBase64 index · text)

/-- The frame of an entry. -/
def Entry.frame (index : Nat) (entry : Entry) : Except Fault Frame := do
  let content ← entry.payload.content index
  match Packet.ofBytes? content with
  | some packet => return ⟨entry.time, packet⟩
  | none => .error (.recordingLength index content.length)

/-- The frames of entries, of which the first has the given index. -/
def frames : Nat → List Entry → Except Fault (List Frame)
  | _, [] => .ok []
  | index, entry :: rest => do
    let frame ← entry.frame index
    return frame :: (← frames (index + 1) rest)

/-- The timeline of a recording. -/
def timeline (entries : List Entry) : Except Fault Timeline := do
  (Timeline.ofFrames (← frames 0 entries)).mapError fun
    | .empty => .noRecords
    | fault => .recordingOrder fault

/-- Loads a recording from text. -/
def load (json : Text) : Except LocatedFault Timeline := do
  let entries ← (entries (Utf8.encode json)).mapError fun e =>
    Fault.locate (.recordingJson e) e.line none
  (timeline entries).mapError (·.locate 0 none)

/-- Loads a recording from a file. -/
def loadFile (fs : FileSystem) (path : Path) : Except LocatedFault Timeline := do
  let json ← (fs.readText path).mapError fun e =>
    Fault.locate (.unreadableRecording e) 0 (some path)
  (load json).mapError (·.orInFile (some path))

/-! ## Writing entries -/

/-- A character inside a JSON string. -/
def stringChar (c : Char) : Text :=
  if c = '"' then ['\\', '"']
  else if c = '\\' then ['\\', '\\']
  else if c = '\x08' then ['\\', 'b']
  else if c = '\x0c' then ['\\', 'f']
  else if c = '\n' then ['\\', 'n']
  else if c = '\r' then ['\\', 'r']
  else if c = '\t' then ['\\', 't']
  else if c.toNat < 0x20 then
    "\\u00".toList ++ [Nat.digitChar (c.toNat / 16), Nat.digitChar (c.toNat % 16)]
  else [c]

/-- A report as JSON. -/
def Payload.toJson : Payload → Text
  | .bytes content =>
    '[' :: Text.join [','] (content.map fun b => Text.ofNat b.toNat) ++ [']']
  | .base64 text => '"' :: text.flatMap stringChar ++ ['"']

/-- An entry as JSON. -/
def Entry.toJson (entry : Entry) : Text :=
  "\x7b\"TimestampMs\":".toList ++ Text.ofNat entry.time.toNat ++ ",\"Packet\":".toList ++
    entry.payload.toJson ++ ['\x7d']

/-- Entries as JSON, without blanks. -/
def toJson (entries : List Entry) : Text :=
  '[' :: Text.join [','] (entries.map Entry.toJson) ++ [']']

end PadScript.Recording
