import PadScript.Fault
import PadScript.Text.Lines

/-!
# Lines of a script

A line is blank, or a directive that includes another script, or an input and its duration.
Comments start at `#` or `//`; inside a quoted include path they do not.
-/

namespace PadScript

/-- What a line asks for. -/
inductive Line where
  | skip
  | directive (target : Text)
  | input (body : Text)
  deriving DecidableEq, Repr

namespace Line

/-- The text before the first comment sign. -/
def stripComment : Text → Text
  | [] => []
  | '#' :: _ => []
  | '/' :: '/' :: _ => []
  | c :: s => c :: stripComment s

/-- The target of an include directive: up to the closing quote if it opens with a quote that is
closed, else up to a comment. -/
def target (rest : Text) : Text :=
  match rest with
  | '"' :: quoted =>
    match Text.cutFirst '"' quoted with
    | some (inner, _) => '"' :: inner ++ ['"']
    | none => Text.trim (stripComment rest)
  | _ => Text.trim (stripComment rest)

/-- Reads a line. -/
def classify (raw : Text) : Line :=
  match Text.trim raw with
  | '@' :: rest => .directive (target (Text.trimStart rest))
  | line =>
    let body := Text.trim (stripComment line)
    if body.isEmpty then .skip else .input body

/-- Cuts a text at its last comma outside parentheses, when `depth` parentheses are open before it:
nothing if the parentheses are not balanced, no cut if there is no such comma. -/
def cutTopLevel (depth : Nat) : Text → Option (Option (Text × Text))
  | [] => if depth = 0 then some none else none
  | c :: s =>
    if c = '(' then (cutTopLevel (depth + 1) s).map (·.map fun (a, b) => (c :: a, b))
    else if c = ')' then
      match depth with
      | 0 => none
      | depth + 1 => (cutTopLevel depth s).map (·.map fun (a, b) => (c :: a, b))
    else
      (cutTopLevel depth s).map fun cut =>
        match cut with
        | some (a, b) => some (c :: a, b)
        | none => if c = ',' ∧ depth = 0 then some ([], s) else none

/-- The expression and the duration of an input line. -/
def split (line : Text) : Except Fault (Text × Text) :=
  match cutTopLevel 0 line with
  | some (some (expression, duration)) => .ok (Text.trim expression, Text.trim duration)
  | _ => .error (.malformedLine line)

/-- Reads a duration: a numeral of at most 32 bits. -/
def duration (text : Text) : Except Fault Millis :=
  match Text.numeral (Text.trim text) with
  | none => .error (.invalidDuration text)
  | some n => if n < UInt32.size then .ok (UInt32.ofNat n) else .error (.durationTooLarge text)

end Line

end PadScript
