import PadScript.Fault
import PadScript.Symbol
import PadScript.Text.Lines

/-!
# Expressions

An expression lists, with `+` between them, the inputs that are held together: buttons, a direction
of the pad, and stick positions by name or by coordinates. Buttons add up; of two directions, or
two positions of one stick, the last counts.
-/

namespace PadScript

/-- What one part of an expression stands for. -/
inductive Token where
  | symbol (s : Symbol)
  | coordinate (stick : Stick) (position : StickPosition)
  | unknown (name : Text)
  deriving DecidableEq, Repr

/-- A coordinate that is a number: in range, or the text that is not. -/
inductive Axis where
  | value (v : UInt8)
  | outOfRange (text : Text)
  deriving DecidableEq, Repr

/-- Reads a coordinate: a numeral, which a minus sign or a value above 255 puts out of range. -/
def Axis.ofText (text : Text) : Option Axis :=
  let raw := Text.trim text
  match raw with
  | '-' :: digits => (Text.numeral (Text.trim digits)).map fun _ => .outOfRange raw
  | _ =>
    (Text.numeral raw).map fun n =>
      if n < UInt8.size then .value (UInt8.ofNat n) else .outOfRange raw

/-- The value of a coordinate of a token. -/
def Axis.get (token : Text) : Axis → Except Fault UInt8
  | .value v => .ok v
  | .outOfRange text => .error (.stickOutOfRange text token)

namespace Token

/-- What stands between an opening parenthesis at the start and a closing one at the end. -/
def parenthesised : Text → Option Text
  | '(' :: rest => if rest.getLast? = some ')' then some rest.dropLast else none
  | _ => none

/-- The stick and the two coordinates of a token such as `L(0,255)`. -/
def coordinate? (token : Text) : Option (Stick × Axis × Axis) := do
  let (stick, rest) ← Symbol.stickLetter token
  let inner ← parenthesised (Text.trimStart rest)
  let (x, y) ← Text.cutFirst ',' inner
  return (stick, ← Axis.ofText x, ← Axis.ofText y)

/-- Reads one part of an expression. -/
def classify (token : Text) : Except Fault Token :=
  match coordinate? token with
  | some (stick, x, y) => do
    let x ← x.get token
    let y ← y.get token
    return .coordinate stick ⟨x, y⟩
  | none =>
    match Symbol.lookup token with
    | some s => .ok (.symbol s)
    | none => .ok (.unknown token)

end Token

/-- The inputs that are held. -/
structure Held where
  buttons : UInt16
  direction : Direction
  left : StickPosition
  right : StickPosition
  deriving DecidableEq, Repr

namespace Held

/-- Nothing is held. -/
def nothing : Held := ⟨0, .centre, .centre, .centre⟩

/-- The report of the held inputs. -/
def packet (h : Held) : Packet := .ofParts h.buttons h.direction.value h.left h.right

/-- The inputs with a stick at another position. -/
def moveStick (h : Held) : Stick → StickPosition → Held
  | .left, position => { h with left := position }
  | .right, position => { h with right := position }

/-- The inputs with one symbol more. -/
def addSymbol (h : Held) : Symbol → Held
  | .button bit => { h with buttons := h.buttons ||| (1 <<< UInt16.ofNat bit) }
  | .direction d => { h with direction := d }
  | .cardinal stick position => h.moveStick stick position

/-- The inputs with one part of `expression` more. -/
def add (expression : Text) (h : Held) (token : Text) : Except Fault Held := do
  match ← Token.classify token with
  | .symbol s => return h.addSymbol s
  | .coordinate stick position => return h.moveStick stick position
  | .unknown name => .error (.unknownToken name expression)

end Held

namespace Expression

/-- The parts of an expression; empty ones do not count. -/
def tokens (expression : Text) : List Text :=
  ((Text.pieces '+' expression).map Text.trim).filter (· ≠ [])

/-- The report that an expression stands for. -/
def encode (expression : Text) : Except Fault Packet :=
  let expression := Text.trim expression
  if expression.isEmpty || Symbol.isRestWord expression then .ok .neutral
  else return ((← (tokens expression).foldlM (Held.add expression) Held.nothing).packet)

end Expression

end PadScript
