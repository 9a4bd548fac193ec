import PadScript.Base64
import PadScript.FileSystem
import PadScript.Json.Fault
import PadScript.Timeline

/-!
# Faults of scripts and recordings

A fault is a cause. Its code, its text and the piece of source it is about are functions of the
cause. A located fault adds the line, which is zero where no line is to blame, and the file.
-/

namespace PadScript

/-- Why a script or a recording is refused. -/
inductive Fault where
  | malformedLine (line : Text)
  | missingTarget
  | unknownToken (name expression : Text)
  | stickOutOfRange (axis token : Text)
  | invalidDuration (text : Text)
  | durationTooLarge (text : Text)
  | clockOverflow (line : Option Text)
  | frameOrder (cause : SequenceFault)
  | unreadable (path : Path) (cause : FileFault)
  | unreadableRecording (cause : FileFault)
  | baselessTarget (target : Text)
  | targetNotFound (path : Path) (target : Text)
  | circular (trail : List Path)
  | tooDeep (limit : Nat) (path : Path)
  | noFrames
  | noRecords
  | recordingJson (cause : Json.Fault)
  | recordingBase64 (index : Nat) (cause : Base64.Fault) (text : Text)
  | recordingLength (index length : Nat)
  | recordingOrder (cause : SequenceFault)
  deriving DecidableEq, Repr

/-- The kinds of faults. -/
inductive Fault.Kind where
  | malformedLine
  | unknownToken
  | stickOutOfRange
  | invalidDuration
  | unreadable
  | includeNotFound
  | circularInclude
  | includeTooDeep
  | empty
  | invalidRecording
  deriving DecidableEq, Repr

/-- The code that stands for a kind in messages. -/
def Fault.Kind.code : Fault.Kind → Text
  | .malformedLine => "E1001".toList
  | .unknownToken => "E1002".toList
  | .stickOutOfRange => "E1003".toList
  | .invalidDuration => "E1004".toList
  | .unreadable => "E2001".toList
  | .includeNotFound => "E2002".toList
  | .circularInclude => "E2003".toList
  | .includeTooDeep => "E2004".toList
  | .empty => "E3001".toList
  | .invalidRecording => "E4001".toList

/-- The paths of a chain of files, in order. -/
def describeTrail (trail : List Path) : Text := Text.join " -> ".toList (trail.map Path.text)

namespace Fault

/-- The kind of a fault. -/
def kind : Fault → Kind
  | .malformedLine _ | .missingTarget => .malformedLine
  | .unknownToken _ _ => .unknownToken
  | .stickOutOfRange _ _ => .stickOutOfRange
  | .invalidDuration _ | .durationTooLarge _ | .clockOverflow _ | .frameOrder _ => .invalidDuration
  | .unreadable _ _ | .unreadableRecording _ => .unreadable
  | .baselessTarget _ | .targetNotFound _ _ => .includeNotFound
  | .circular _ => .circularInclude
  | .tooDeep _ _ => .includeTooDeep
  | .noFrames | .noRecords => .empty
  | .recordingJson _ | .recordingBase64 _ _ _ | .recordingLength _ _ | .recordingOrder _ =>
    .invalidRecording

/-- The code of a fault. -/
def code (f : Fault) : Text := f.kind.code

/-- A text followed by the source that it is about. -/
def withContext (text context : Text) : Text :=
  text ++ " (context=".toList ++ context ++ ")".toList

/-- The text of a fault. -/
def message : Fault → Text
  | .malformedLine line => withContext "expected <input>,<duration>".toList line
  | .missingTarget => "missing include path after @".toList
  | .unknownToken name expression => withContext ("unknown token: ".toList ++ name) expression
  | .stickOutOfRange axis token =>
    withContext ("stick coordinate out of range 0..=255: ".toList ++ axis) token
  | .invalidDuration text => "invalid duration: ".toList ++ Text.quoted text
  | .durationTooLarge text => "duration too large: ".toList ++ text
  | .clockOverflow _ => "macro exceeds u32 millisecond range".toList
  | .frameOrder cause => cause.message
  | .unreadable path cause =>
    "failed to read ".toList ++ path.text ++ ": ".toList ++ cause.message
  | .unreadableRecording cause => "failed to read legacy macro: ".toList ++ cause.message
  | .baselessTarget target =>
    "relative include ".toList ++ target ++
      " requires compile_file() or CompileOptions.base_dir".toList
  | .targetNotFound path _ => "include not found: ".toList ++ path.text
  | .circular trail => "circular include: ".toList ++ describeTrail trail
  | .tooDeep limit path =>
    "include depth ".toList ++ Text.ofNat (limit + 1) ++ " exceeds limit of ".toList ++
      Text.ofNat limit ++ " at ".toList ++ path.text
  | .noFrames => "macro produced no frames".toList
  | .noRecords => "legacy macro has no frames".toList
  | .recordingJson cause => "invalid legacy macro json: ".toList ++ cause.message
  | .recordingBase64 index cause _ =>
    "frame ".toList ++ Text.ofNat index ++ ": invalid base64 packet: ".toList ++ cause.message
  | .recordingLength index length =>
    "frame ".toList ++ Text.ofNat index ++ ": packet must be ".toList ++ Text.ofNat Packet.size ++
      " bytes, got ".toList ++ Text.ofNat length
  | .recordingOrder cause => "invalid legacy macro: ".toList ++ cause.message

/-- The piece of source that a fault is about. -/
def context : Fault → Option Text
  | .malformedLine line => some line
  | .unknownToken _ expression => some expression
  | .stickOutOfRange _ token => some token
  | .invalidDuration text | .durationTooLarge text => some text
  | .clockOverflow line => line
  | .baselessTarget target | .targetNotFound _ target => some target
  | .circular trail => some (describeTrail trail)
  | .recordingBase64 _ _ text => some text
  | _ => none

end Fault

/-- A fault, the line it is on and the file it is in. -/
structure LocatedFault where
  fault : Fault
  line : Nat
  file : Option Path
  deriving DecidableEq, Repr

namespace LocatedFault

/-- The fault with its code and line. -/
def display (e : LocatedFault) : Text :=
  e.fault.code ++ ": ".toList ++ e.fault.message ++ " (line ".toList ++ Text.ofNat e.line ++
    ")".toList

/-- The fault with a line, unless it has one. -/
def orAtLine (e : LocatedFault) (line : Nat) : LocatedFault :=
  if e.line = 0 then { e with line } else e

/-- The fault with a file, unless it has one. -/
def orInFile (e : LocatedFault) (file : Option Path) : LocatedFault :=
  match e.file with
  | none => { e with file }
  | some _ => e

end LocatedFault

/-- A fault on a line of a file. -/
def Fault.locate (f : Fault) (line : Nat) (file : Option Path) : LocatedFault := ⟨f, line, file⟩

end PadScript
