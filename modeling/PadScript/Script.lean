import PadScript.Expression
import PadScript.Include
import PadScript.Line

/-!
# Scripts

A script is compiled line by line. Each input line sends its report from the clock on and moves
the clock by its duration; an include directive plays the frames of another script from the clock
on. The controller is put to rest at the end.

Includes are expanded depth first, and at most a given number of levels deep.
-/

namespace PadScript.Script

/-- How scripts are compiled. -/
structure Options where
  /-- The directory of relative include paths of a script that is no file. -/
  base : Option Path
  /-- How many includes may be open inside each other. -/
  maxDepth : Nat

/-- No directory, and ten levels of includes. -/
def Options.default : Options := ⟨none, 10⟩

/-- The frame of an input line at a time, and the time after it. -/
def compileLine (body : Text) (clock : Millis) : Except Fault (Frame × Millis) := do
  let (expression, duration) ← Line.split body
  let packet ← Expression.encode expression
  let duration ← Line.duration duration
  match Millis.add? clock duration with
  | some next => return (⟨clock, packet⟩, next)
  | none => .error (.clockOverflow (some body))

/-- The frames, each so much later. -/
def delay (clock : Millis) : List Frame → Option (List Frame)
  | [] => some []
  | f :: rest => do
    let time ← Millis.add? clock f.time
    return ⟨time, f.packet⟩ :: (← delay clock rest)

/-- The frames of an included script from a time on, without the last one, and the time after
them: the last frame only says when the script ends. -/
def splice (included : List Frame) (clock : Millis) : Except Fault (List Frame × Millis) :=
  match included.getLast? with
  | none => .ok ([], clock)
  | some last =>
    match delay clock included.dropLast, Millis.add? clock last.time with
    | some frames, some next => .ok (frames, next)
    | _, _ => .error (.clockOverflow none)

/-- How a directive is expanded: from its target to the frames of the file it leads to. -/
abbrev Expander := Nat → Text → Except LocatedFault (List Frame)

/-- The frames of one line of a file, and the time after them. -/
def stepLine (origin : Option Path) (expand : Expander) (number : Nat) (raw : Text)
    (clock : Millis) : Except LocatedFault (List Frame × Millis) :=
  match Line.classify raw with
  | .skip => .ok ([], clock)
  | .directive target => do
    let included ← expand number target
    (splice included clock).mapError (·.locate number origin)
  | .input body => do
    let (frame, next) ← (compileLine body clock).mapError (·.locate number origin)
    return ([frame], next)

/-- The frames of the lines of a file from a line number and a time on, and the time after them. -/
def runLines (origin : Option Path) (expand : Expander) :
    Nat → List Text → Millis → Except LocatedFault (List Frame × Millis)
  | _, [], clock => .ok ([], clock)
  | number, raw :: rest, clock => do
    let (frames, clock) ← stepLine origin expand number raw clock
    let (more, clock) ← runLines origin expand (number + 1) rest clock
    return (frames ++ more, clock)

/-- The frames with the controller at rest after them; no frames stay none. -/
def close (frames : List Frame) (clock : Millis) : List Frame :=
  if frames.isEmpty then [] else frames ++ [.neutral clock]

/-- The frames of a source text. -/
def compileSource (origin : Option Path) (expand : Expander) (source : Text) :
    Except LocatedFault (List Frame) := do
  let (frames, clock) ← runLines origin expand 1 (Text.lines source) 0
  return close frames clock

/-- Expands the directives of a file: `base` is the directory of its relative paths, and `file`
compiles the file that a directive leads to. A fault without a place is put at the directive. -/
def expander (fs : FileSystem) (origin base : Option Path)
    (file : Path → Except LocatedFault (List Frame)) : Expander := fun number target => do
  let path ← (Include.resolve fs base target).mapError (·.locate number origin)
  (file path).mapError fun e => (e.orAtLine number).orInFile origin

/-- The frames of a file; `levels` counts the levels of files that may still be opened, this one
included. -/
def compileFileFrames (fs : FileSystem) (limit : Nat) :
    Nat → IncludeChain → Path → Except LocatedFault (List Frame)
  | 0, _, path => .error (Fault.locate (.tooDeep limit path) 0 none)
  | levels + 1, chain, path => do
    let canonical ← (fs.canonical path).mapError fun e => Fault.locate (.unreadable path e) 0 none
    if chain.contains canonical then
      .error (Fault.locate (.circular (chain.extend canonical).paths) 0 none)
    let source ← (fs.readText canonical).mapError fun e => Fault.locate (.unreadable path e) 0 none
    compileSource (some canonical)
      (expander fs (some canonical) path.parent?
        (compileFileFrames fs limit levels (chain.extend canonical)))
      source

/-- The timeline of compiled frames. -/
def finish (frames : List Frame) : Except LocatedFault Timeline :=
  (Timeline.ofFrames frames).mapError fun
    | .empty => Fault.locate .noFrames 0 none
    | fault => Fault.locate (.frameOrder fault) 0 none

/-- Compiles a source text. -/
def compile (fs : FileSystem) (options : Options) (source : Text) :
    Except LocatedFault Timeline := do
  let frames ← compileSource none
    (expander fs none options.base
      (compileFileFrames fs options.maxDepth options.maxDepth IncludeChain.empty))
    source
  finish frames

/-- Compiles a file. -/
def compileFile (fs : FileSystem) (options : Options) (path : Path) :
    Except LocatedFault Timeline :=
  let result := do
    let frames ←
      compileFileFrames fs options.maxDepth (options.maxDepth + 1) IncludeChain.empty path
    finish frames
  result.mapError (·.orInFile (some path))

end PadScript.Script
