import PadScript.FileSystem
import PadScript.Json.Record

/-!
# Frame tables

A compiled timeline as JSON: written with two spaces of indentation and every value on a line of
its own, and read back.
-/

namespace PadScript.FrameTable

/-- The record type of frames. -/
def recordType : Json.RecordType where
  name := "Frame".toList
  timeKey := "timestamp_ms".toList
  payloadKey := "packet".toList

/-! ## Writing -/

/-- Lines of items, with a comma after each but the last. -/
def separated : List Text → Text
  | [] => []
  | [item] => item ++ ['\n']
  | item :: next :: rest => item ++ [',', '\n'] ++ separated (next :: rest)

/-- A byte of a report, on its line. -/
def byteLine (b : UInt8) : Text := List.replicate 6 ' ' ++ Text.ofNat b.toNat

/-- A frame, on its lines. -/
def frameLines (frame : Frame) : Text :=
  "  \x7b\n    \"timestamp_ms\": ".toList ++ Text.ofNat frame.time.toNat ++
    ",\n    \"packet\": [\n".toList ++ separated (frame.packet.toBytes.map byteLine) ++
    "    ]\n  \x7d".toList

/-- A timeline as JSON. -/
def render (timeline : Timeline) : Text :=
  "[\n".toList ++ separated (timeline.frames.map frameLines) ++ "]".toList

/-! ## Reading -/

/-- What a message calls the bytes of a report. -/
def packetShape : Text := "an array of length 8".toList

/-- Reads so many bytes of a report, after `done` others. -/
def packetItems (done : Nat) : Nat → Json.Reader Bytes
  | 0, rest => .ok ([], rest)
  | count + 1, rest => do
    match ← Json.nextItem (done = 0) rest with
    | none => Json.stopOpen (.wrongLength done packetShape) rest
    | some start =>
      let (b, rest) ← Json.byte start
      let (more, rest) ← packetItems (done + 1) count rest
      return (b :: more, rest)

/-- Reads a report: a list of exactly eight bytes. -/
def packet : Json.Reader Packet := fun rest =>
  match Json.skipSpace rest with
  | [] => Json.stopAt .endInValue []
  | b :: after =>
    if b = 0x5B then do
      let (content, rest) ← Json.Bracket.list.enclose (packetItems 0 Packet.size) after
      match Packet.ofBytes? content with
      | some p => .ok (p, rest)
      | none => Json.stopAt (.wrongLength content.length packetShape) rest
    else Json.mismatch packetShape b after

/-- Reads the frames of a table. -/
def frames : Json.Reader (List Frame) := fun rest => do
  let (records, rest) ← Json.array "a sequence".toList (Json.record recordType packet) rest
  return (records.map fun (time, packet) => ⟨time, packet⟩, rest)

/-- What is wrong with a table: its text, or the order of its frames. -/
inductive Fault where
  | json (cause : Json.Fault)
  | sequence (cause : SequenceFault)
  deriving DecidableEq, Repr

/-- The text of a fault. -/
def Fault.message : Fault → Text
  | .json cause => cause.message
  | .sequence cause => cause.message

/-- The timeline of a table. The order of the frames is checked before the end of the text. -/
def parse (json : Bytes) : Except Fault Timeline := do
  let located (stop : Json.Stop) : Fault := .json (stop.fault json)
  let (frames, rest) ← (frames json).mapError located
  let timeline ← (Timeline.ofFrames frames).mapError .sequence
  let _ ← (Json.finish rest).mapError located
  return timeline

/-- Why a table cannot be loaded. -/
inductive LoadFault where
  | unreadable (path : Path) (cause : FileFault)
  | malformed (path : Option Path) (cause : Fault)
  deriving DecidableEq, Repr

/-- What failed. -/
def LoadFault.message : LoadFault → Text
  | .unreadable path _ => "failed to read frames: ".toList ++ path.text
  | .malformed none _ => "failed to parse frames json".toList
  | .malformed (some path) _ => "failed to parse frames json: ".toList ++ path.text

/-- Why it failed. -/
def LoadFault.reason : LoadFault → Text
  | .unreadable _ cause => cause.message
  | .malformed _ cause => cause.message

/-- Loads a table from text. -/
def load (json : Text) : Except LoadFault Timeline :=
  (parse (Utf8.encode json)).mapError (.malformed none)

/-- Loads a table from a file. -/
def loadFile (fs : FileSystem) (path : Path) : Except LoadFault Timeline := do
  let json ← (fs.read path).mapError (.unreadable path)
  (parse json).mapError (.malformed (some path))

end PadScript.FrameTable
