import PadScript.Text.Numeral

/-!
# Help

What the command line says of itself: the help of the program lists its commands, and the help of a
command its options.
-/

namespace PadScript

/-- The commands of the command line. -/
inductive Subcommand where
  | compile
  | inspect
  | help
  deriving DecidableEq, Repr

namespace Subcommand

/-- All commands, as they are listed. -/
def all : List Subcommand := [.compile, .inspect, .help]

/-- The name of a command. -/
def name : Subcommand → Text
  | .compile => "compile".toList
  | .inspect => "inspect".toList
  | .help => "help".toList

/-- The command with a name. -/
def ofName? (name : Text) : Option Subcommand := all.find? (·.name = name)

/-- What a command is for. -/
def purpose : Subcommand → Text
  | .compile => "Compile a macro into an embeddable frame table".toList
  | .inspect => "Print the compiled frame timeline".toList
  | .help => "Print this message or the help of the given subcommand(s)".toList

/-- What goes after the name of a command. -/
def synopsis : Subcommand → Text
  | .compile | .inspect => "[OPTIONS] <INPUT>".toList
  | .help => "[COMMAND]".toList

/-- The option that asks for help, and what it is for. -/
def helpOption : Text × Text := ("-h, --help".toList, "Print help".toList)

/-- The options of a command, each with what is said of it. -/
def options : Subcommand → List (Text × Text)
  | .compile => [
      ("-o, --output <OUTPUT>".toList, "Output path, or `-` for stdout".toList),
      ("    --loop".toList, "Restart playback after the last frame".toList),
      ("    --format <FORMAT>".toList,
        "[default: c-header] [possible values: c-header, json]".toList),
      ("    --platform <PLATFORM>".toList,
        "[default: avr] [possible values: avr, esp32s3, pico]".toList),
      ("    --legacy".toList,
        "Treat the input as a recorded JSON frame list (implied by a .json extension)".toList),
      helpOption]
  | .inspect => [
      ("    --loop".toList, []),
      ("    --at <AT>".toList, "Also show the frame the player outputs at this time (ms)".toList),
      ("    --legacy".toList, []),
      helpOption]
  | .help => []

end Subcommand

namespace Help

/-- One line with two columns, the first of the given width; the second may be missing. -/
def line (width : Nat) (row : Text × Text) : Text :=
  if row.2.isEmpty then "  ".toList ++ row.1 ++ ['\n']
  else "  ".toList ++ Text.padRight width row.1 ++ "  ".toList ++ row.2 ++ ['\n']

/-- Rows of two columns, the first of them as wide as it needs. -/
def columns (rows : List (Text × Text)) : Text :=
  rows.flatMap (line (rows.foldl (fun width row => max width row.1.length) 0))

/-- A heading and its rows; no heading if there are none. -/
def table (heading : String) (rows : List (Text × Text)) : Text :=
  if rows.isEmpty then [] else '\n' :: heading.toList ++ ":\n".toList ++ columns rows

/-- The help of the program. -/
def program : Text :=
  "Controller macro compiler CLI\n\nUsage: macroc <COMMAND>\n".toList ++
    table "Commands" (Subcommand.all.map fun c => (c.name, c.purpose)) ++
    table "Options" [Subcommand.helpOption]

/-- The help of a command. -/
def subcommand (c : Subcommand) : Text :=
  c.purpose ++ "\n\nUsage: macroc ".toList ++ c.name ++ ' ' :: c.synopsis ++ ['\n'] ++
    table "Options" c.options

/-- The help of the summary of a frame table, which is a program of its own. -/
def summary : Text :=
  "Usage: print_summary <PATH>\n".toList ++ table "Options" [Subcommand.helpOption]

/-- The help of the program, or of one of its commands. -/
def text : Option Subcommand → Text
  | some c => subcommand c
  | none => program

end Help

end PadScript
