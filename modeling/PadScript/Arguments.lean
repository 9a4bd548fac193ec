import PadScript.Text.Lines

/-!
# Command-line arguments

Long options are `--name value` or `--name=value`, short ones `-n value`, `-nvalue` or `-n=value`;
flags take no value; each may be given once. `--` ends the options. A value that stands alone does
not start with a dash, unless it is a single dash.

`--help` and `-h` ask for help, and nothing after them is read.
-/

namespace PadScript

/-- The options that a command takes. -/
structure OptionTable where
  flags : List Text
  valued : List Text
  letters : List (Char × Text)

/-- The arguments as they were given, up to the one that asks for help. -/
structure Arguments where
  operands : List Text
  flags : List Text
  values : List (Text × Text)
  wantsHelp : Bool

/-- What one argument is. -/
inductive Word where
  | operand (text : Text)
  | flag (name : Text)
  | option (name : Text) (value : Option Text)
  | help
  | unknown

/-- What the operands and a request for help come to. -/
inductive Request where
  | help
  | operand (text : Text)

/-- Whether an argument asks for help: the long option alone, or the short one with anything after
it. -/
def Word.asksHelp : Text → Bool
  | '-' :: 'h' :: _ => true
  | text => text = "--help".toList

namespace OptionTable

/-- Reads a long option after its two dashes. -/
def longWord (table : OptionTable) (text : Text) : Word :=
  match Text.cutFirst '=' text with
  | some (name, value) => if name ∈ table.valued then .option name (some value) else .unknown
  | none =>
    if text ∈ table.valued then .option text none
    else if text ∈ table.flags then .flag text
    else .unknown

/-- Reads a short option after its dash. -/
def shortWord (table : OptionTable) (letter : Char) (rest : Text) : Word :=
  match table.letters.lookup letter, rest with
  | none, _ => .unknown
  | some name, [] => .option name none
  | some name, '=' :: value => .option name (some value)
  | some name, value => .option name (some value)

/-- Reads one argument. -/
def word (table : OptionTable) (text : Text) : Word :=
  if Word.asksHelp text then .help
  else
    match text with
    | '-' :: '-' :: rest => table.longWord rest
    | '-' :: letter :: rest => table.shortWord letter rest
    | text => .operand text

end OptionTable

namespace Arguments

/-- Whether an argument can be the value of the option before it. -/
def isValue (text : Text) : Bool := text.head? ≠ some '-' || text = ['-']

/-- Reads the arguments of a command; nothing if one of them is out of place. -/
def read (table : OptionTable) : List Text → Option Arguments
  | [] => some ⟨[], [], [], false⟩
  | text :: rest =>
    if text = ['-', '-'] then some ⟨rest, [], [], false⟩
    else
      match table.word text with
      | .unknown => none
      | .help => some ⟨[], [], [], true⟩
      | .operand text =>
        (read table rest).map fun a => { a with operands := text :: a.operands }
      | .flag name => (read table rest).map fun a => { a with flags := name :: a.flags }
      | .option name (some value) =>
        (read table rest).map fun a => { a with values := (name, value) :: a.values }
      | .option name none =>
        match rest with
        | value :: rest =>
          if isValue value then
            (read table rest).map fun a => { a with values := (name, value) :: a.values }
          else none
        | [] => none

/-- Whether no option is given twice. -/
def isPlain (a : Arguments) : Bool := a.flags.Nodup ∧ (a.values.map Prod.fst).Nodup

/-- The arguments, if no option is given twice. -/
def read? (table : OptionTable) (texts : List Text) : Option Arguments :=
  (read table texts).filter isPlain

/-- What is asked for: help, or what goes with the only operand. There is no second operand before
help either, and none is empty. -/
def request? (a : Arguments) : Option Request :=
  match a.operands with
  | [] => if a.wantsHelp then some .help else none
  | [text] =>
    if text.isEmpty then none else if a.wantsHelp then some .help else some (.operand text)
  | _ => none

/-- Whether a flag is given. -/
def hasFlag (a : Arguments) (name : Text) : Bool := name ∈ a.flags

/-- The value of an option, as `parse` reads it; `default` if it is not given, and nothing if the
value cannot be read. -/
def valueOf (a : Arguments) (name : Text) (parse : Text → Option α) (default : α) : Option α :=
  match a.values.lookup name with
  | some text => parse text
  | none => some default

end Arguments

end PadScript
