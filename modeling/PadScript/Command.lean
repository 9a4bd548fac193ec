import PadScript.Arguments
import PadScript.FileTree
import PadScript.FrameTable
import PadScript.Header
import PadScript.Help
import PadScript.Inspect
import PadScript.Recording
import PadScript.Script
import PadScript.Text.Numeral

/-!
# Commands

The command line compiles a script or a recording into a header or a frame table, or shows its
timeline. A command reads files first; what is left to do is then to print a text, to save it, or
to report a failure. Help needs no file.
-/

namespace PadScript

/-- The form of a compiled timeline. -/
inductive OutputFormat where
  | header
  | table
  deriving DecidableEq, Repr

/-- What the command line asks for. -/
inductive Command where
  | compile (input : Path) (isRecording : Bool) (format : OutputFormat) (options : Header.Options)
      (output : Option Path)
  | inspect (input : Path) (isRecording : Bool) (looped : Bool) (time? : Option Millis)
  | help (topic? : Option Subcommand)
  deriving DecidableEq, Repr

namespace Command

/-! ## Reading the command line -/

/-- A path that is not empty. -/
def readPath (text : Text) : Option (Option Path) :=
  if text.isEmpty then none else some (some ⟨text⟩)

/-- The name of an output format. -/
def readFormat (text : Text) : Option OutputFormat :=
  if text = "c-header".toList then some .header
  else if text = "json".toList then some .table
  else none

/-- The name of a platform. -/
def readPlatform (text : Text) : Option Header.Platform :=
  if text = "avr".toList then some .avr
  else if text = "esp32s3".toList then some .esp32s3
  else if text = "pico".toList then some .pico
  else none

/-- A time in decimal, with an optional sign. -/
def readTime (text : Text) : Option (Option Millis) :=
  let value :=
    match text with
    | '+' :: digits => Text.readNat 10 digits
    | '-' :: digits => (Text.readNat 10 digits).filter (· = 0)
    | digits => Text.readNat 10 digits
  (value.filter (· < UInt32.size)).map fun n => some (UInt32.ofNat n)

/-- The options of the compile command. -/
def compileTable : OptionTable where
  flags := ["loop".toList, "legacy".toList]
  valued := ["output".toList, "format".toList, "platform".toList]
  letters := [('o', "output".toList)]

/-- The options of the inspect command. -/
def inspectTable : OptionTable where
  flags := ["loop".toList, "legacy".toList]
  valued := ["at".toList]
  letters := []

/-- Reads the arguments of the compile command. -/
def readCompile (texts : List Text) : Option Command := do
  let a ← Arguments.read? compileTable texts
  let request ← a.request?
  let output ← a.valueOf "output".toList readPath none
  let format ← a.valueOf "format".toList readFormat .header
  let platform ← a.valueOf "platform".toList readPlatform .avr
  match request with
  | .help => return .help (some .compile)
  | .operand input =>
    return .compile ⟨input⟩ (a.hasFlag "legacy".toList) format
      ⟨a.hasFlag "loop".toList, platform⟩ output

/-- Reads the arguments of the inspect command. -/
def readInspect (texts : List Text) : Option Command := do
  let a ← Arguments.read? inspectTable texts
  let request ← a.request?
  let time? ← a.valueOf "at".toList readTime none
  match request with
  | .help => return .help (some .inspect)
  | .operand input =>
    return .inspect ⟨input⟩ (a.hasFlag "legacy".toList) (a.hasFlag "loop".toList) time?

/-- Reads the arguments of the help command: the name of a command, or nothing. -/
def readHelp : List Text → Option Command
  | [] => some (.help none)
  | [name] => (Subcommand.ofName? name).map fun topic => .help (some topic)
  | _ => none

/-- Reads the command line. -/
def read : List Text → Option Command
  | [] => none
  | name :: texts =>
    if Word.asksHelp name then some (.help none)
    else
      match Subcommand.ofName? name with
      | some .compile => readCompile texts
      | some .inspect => readInspect texts
      | some .help => readHelp texts
      | none => none

/-! ## Running a command -/

/-- What is left to do when the files have been read. -/
inductive Outcome where
  | usage
  | help (text : Text)
  | failure (message reason : Text)
  | print (text : Text)
  | save (path : Path) (text : Text)
  deriving DecidableEq, Repr

/-- The path where a compiled timeline goes if none is given. -/
def defaultOutput (input : Path) : OutputFormat → Path
  | .header => input.withExtension "h".toList
  | .table => input.withExtension "frames.json".toList

/-- Loads a script, or a recording if it is said to be one or has the extension `json`. -/
def loadTimeline (fs : FileSystem) (input : Path) (isRecording : Bool) :
    Except LocatedFault Timeline :=
  if isRecording || input.extension? = some "json".toList then Recording.loadFile fs input
  else Script.compileFile fs .default input

/-- A fault with its file. -/
def describe (e : LocatedFault) : Text :=
  match e.file with
  | some file => file.text ++ ": ".toList ++ e.display
  | none => e.display

/-- The text of a compiled timeline. -/
def renderAs (format : OutputFormat) (options : Header.Options) (timeline : Timeline) : Text :=
  match format with
  | .header => Header.render timeline options
  | .table => FrameTable.render timeline

/-- A timeline that did not load. -/
def loadFailure (input : Path) (e : LocatedFault) : Outcome :=
  .failure ("compile failed: ".toList ++ input.text) (describe e)

/-- Runs a command up to its output. -/
def plan (fs : FileSystem) : Command → Outcome
  | .compile input isRecording format options output =>
    match loadTimeline fs input isRecording with
    | .error e => loadFailure input e
    | .ok timeline =>
      let text := renderAs format options timeline
      let path := output.getD (defaultOutput input format)
      if path.text = ['-'] then .print text else .save path text
  | .inspect input isRecording looped time? =>
    match loadTimeline fs input isRecording with
    | .error e => loadFailure input e
    | .ok timeline => .print (Inspect.render timeline looped time?)
  | .help topic? => .help (Help.text topic?)

/-- Runs a command line up to its output. -/
def planLine (fs : FileSystem) (texts : List Text) : Outcome :=
  match read texts with
  | some command => command.plan fs
  | none => .usage

/-- Runs the summary of a frame table, whose only argument is its path. -/
def planSummary (fs : FileSystem) (texts : List Text) : Outcome :=
  match (Arguments.read? ⟨[], [], []⟩ texts).bind Arguments.request? with
  | none => .usage
  | some .help => .help Help.summary
  | some (.operand path) =>
    match FrameTable.loadFile fs ⟨path⟩ with
    | .error e => .failure e.message e.reason
    | .ok timeline => .print (Inspect.summary timeline)

/-! ## Output -/

/-- What a finished command leaves: its status and what it printed. -/
structure Result where
  status : Nat
  stdout : Text
  stderr : Text
  deriving DecidableEq, Repr

/-- A message and its reason, indented by four spaces. -/
def failureText (message reason : Text) : Text :=
  "Error: ".toList ++ message ++ "\n\nCaused by:\n    ".toList ++
    Text.join "\n    ".toList (Text.pieces '\n' reason) ++ ['\n']

/-- A command that failed. -/
def Result.failed (message reason : Text) : Result := ⟨1, [], failureText message reason⟩

/-- A command that printed a text. -/
def Result.printed (text : Text) : Result := ⟨0, text, []⟩

/-- A command that was not understood. -/
def Result.misused : Result := ⟨2, [], []⟩

/-- A command that saved a text, or could not. -/
def Result.saved (path : Path) : Except FileFault Unit → Result
  | .ok () => ⟨0, [], []⟩
  | .error e => .failed ("failed to write: ".toList ++ path.text) e.message

/-- Finishes a command in a file tree. -/
def finish (tree : FileTree) : Outcome → Result × FileTree
  | .usage => (.misused, tree)
  | .help text => (.printed text, tree)
  | .failure message reason => (.failed message reason, tree)
  | .print text => (.printed text, tree)
  | .save path text =>
    match tree.write path (Utf8.encode text) with
    | .ok tree => (.saved path (.ok ()), tree)
    | .error e => (.saved path (.error e), tree)

/-- Runs a command line in a file tree. -/
def run (tree : FileTree) (texts : List Text) : Result × FileTree :=
  finish tree (planLine tree.fileSystem texts)

theorem run_of_read {tree : FileTree} {texts : List Text} {command : Command}
    (h : read texts = some command) :
    run tree texts = finish tree (command.plan tree.fileSystem) := by
  rw [run, planLine, h]

/-- Runs the summary in a file tree. -/
def runSummary (tree : FileTree) (texts : List Text) : Result × FileTree :=
  finish tree (planSummary tree.fileSystem texts)

end Command

end PadScript
