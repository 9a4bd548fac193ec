import PadScript.Command

/-!
# The command line

Reads the files that a command needs, runs the command on them, and prints or saves what it
leaves. The files are those that the input leads to by include directives.
-/

namespace PadScript.CommandLine

/-- What was seen at a path. -/
structure Sight where
  path : Path
  isFile : Bool
  canonical : Except FileFault Path
  content : Except FileFault Bytes

/-- What was seen, as a file system. -/
def fileSystemOf (sights : List Sight) : FileSystem where
  isFile path := (sights.find? (·.path = path)).any (·.isFile)
  canonical path := ((sights.find? (·.path = path)).map (·.canonical)).getD (.error .notFound)
  read path := ((sights.find? (·.path = path)).map (·.content)).getD (.error .notFound)

/-- The refusal behind a code of the system, which may come negated; other codes keep their
text. -/
def faultOfCode (code : UInt32) (text : String) : FileFault :=
  let code := min code (0 - code)
  if code = 2 then .notFound
  else if code = 20 then .notDirectory
  else if code = 21 then .isDirectory
  else if code = 36 then .nameTooLong
  else if code = 40 then .linkLoop
  else .other text.toList

/-- The refusal behind an error of the system. -/
def fileFault (e : IO.Error) : FileFault :=
  match e with
  | .noFileOrDirectory _ code _ | .invalidArgument _ code _ | .resourceExhausted _ code _
  | .inappropriateType _ code _ | .noSuchThing _ code _ | .illegalOperation code _
  | .otherError code _ => faultOfCode code e.toString
  | _ => .other e.toString.toList

/-- The result of an action on a path, unless no file system takes the path. -/
def attempt (path : Path) (action : String → IO α) : BaseIO (Except FileFault α) := do
  match FileTree.checkName path with
  | .error e => return .error e
  | .ok () =>
    match ← EIO.toBaseIO (action (String.ofList path.text)) with
    | .ok a => return .ok a
    | .error e => return .error (fileFault e)

/-- The content of a file. -/
def readBytes (path : Path) : BaseIO (Except FileFault Bytes) :=
  attempt path fun name => do return (← IO.FS.readBinFile name).toList

/-- Looks at a path. Reading tells best why a path leads nowhere. -/
def look (path : Path) : BaseIO Sight := do
  let content ← readBytes path
  let canonical ← attempt path fun name => do
    return Path.mk (← IO.FS.realPath name).toString.toList
  let isFile ← attempt path fun name => do
    return (← (← IO.FS.realPath name).metadata).type == .file
  let canonical :=
    match canonical, content with
    | .error _, .error e => .error e
    | _, _ => canonical
  let canOpen := (FileTree.checkPath path).isOk
  return ⟨path, canOpen && isFile.toOption.getD false, canonical, content⟩

/-- The paths that the include directives of a source name. -/
def includedPaths (base : Option Path) (source : Text) : List Path :=
  (Text.lines source).filterMap fun raw =>
    match Line.classify raw with
    | .directive target => (Include.path base target).toOption
    | _ => none

/-- Looks at a path and at its canonical path, and, so many levels deep, at the paths that its
include directives name. A file that is already open in `chain` is not entered again. -/
def lookAround : Nat → IncludeChain → Path → BaseIO (List Sight)
  | 0, _, path => return [← look path]
  | levels + 1, chain, path => do
    let sight ← look path
    let canonical : Path := sight.canonical.toOption.getD path
    let file ← look canonical
    let here := [sight, file]
    match file.content.toOption.bind Utf8.decode with
    | none => return here
    | some source =>
      if chain.contains canonical then return here
      let inner ← (includedPaths path.parent? source).mapM
        (lookAround levels (chain.extend canonical))
      return here ++ inner.flatten

/-- The input of a command that has one. -/
def inputOf? : Command → Option Path
  | .compile input _ _ _ _ => some input
  | .inspect input _ _ _ => some input
  | .help _ => none

/-- Prints what a finished command leaves. -/
def report (result : Command.Result) : IO UInt32 := do
  IO.print (String.ofList result.stdout)
  IO.eprint (String.ofList result.stderr)
  return UInt32.ofNat result.status

/-- Carries out what is left of a command. -/
def carryOut : Command.Outcome → IO UInt32
  | .usage => do
    IO.eprint (String.ofList Help.program)
    report .misused
  | .help text => report (.printed text)
  | .failure message reason => report (.failed message reason)
  | .print text => report (.printed text)
  | .save path text => do
    let outcome ← attempt path fun name => IO.FS.writeFile name (String.ofList text)
    report (.saved path outcome)

/-- Runs a command line. -/
def run (texts : List Text) : IO UInt32 := do
  match Command.read texts with
  | none => carryOut .usage
  | some command =>
    let sights ←
      match inputOf? command with
      | some input => lookAround (Script.Options.default.maxDepth + 1) .empty input
      | none => pure []
    carryOut (command.plan (fileSystemOf sights))

end PadScript.CommandLine

def main (args : List String) : IO UInt32 :=
  PadScript.CommandLine.run (args.map String.toList)
