import PadScript.Packet
import PadScript.Text.Blank

/-!
# Names of inputs

The names that a script may use for buttons, for directions of the pad and for the cardinal
positions of the sticks. Names are compared without regard to the case of ASCII letters.
-/

namespace PadScript

/-- One of the two sticks. -/
inductive Stick where
  | left
  | right
  deriving DecidableEq, Repr

/-- A direction of the pad. -/
inductive Direction where
  | up | upRight | right | downRight | down | downLeft | left | upLeft | centre
  deriving DecidableEq, Repr

/-- The byte of a direction: eighths of a turn, clockwise from the top, and 8 for none. -/
def Direction.value : Direction → UInt8
  | .up => 0
  | .upRight => 1
  | .right => 2
  | .downRight => 3
  | .down => 4
  | .downLeft => 5
  | .left => 6
  | .upLeft => 7
  | .centre => Packet.dpadCentre

/-- What a name stands for. -/
inductive Symbol where
  | button (bit : Nat)
  | direction (d : Direction)
  | cardinal (stick : Stick) (position : StickPosition)
  deriving DecidableEq, Repr

namespace Symbol

/-- The buttons and their bits. -/
def buttons : List (Text × Nat) :=
  [("Y".toList, 0), ("B".toList, 1), ("A".toList, 2), ("X".toList, 3), ("L".toList, 4),
    ("R".toList, 5), ("ZL".toList, 6), ("ZR".toList, 7), ("MINUS".toList, 8), ("PLUS".toList, 9),
    ("LCLICK".toList, 10), ("RCLICK".toList, 11), ("HOME".toList, 12), ("CAPTURE".toList, 13)]

/-- The directions of the pad. -/
def directions : List (Text × Direction) :=
  [("UP".toList, .up), ("UPRIGHT".toList, .upRight), ("RIGHT".toList, .right),
    ("DOWNRIGHT".toList, .downRight), ("DOWN".toList, .down), ("DOWNLEFT".toList, .downLeft),
    ("LEFT".toList, .left), ("UPLEFT".toList, .upLeft), ("CENTER".toList, .centre)]

/-- The cardinal positions of a stick. -/
def cardinals : List (Text × StickPosition) :=
  [("UP".toList, ⟨128, 255⟩), ("DOWN".toList, ⟨128, 0⟩), ("LEFT".toList, ⟨0, 128⟩),
    ("RIGHT".toList, ⟨255, 128⟩), ("UPLEFT".toList, ⟨0, 255⟩), ("UPRIGHT".toList, ⟨255, 255⟩),
    ("DOWNLEFT".toList, ⟨0, 0⟩), ("DOWNRIGHT".toList, ⟨255, 0⟩)]

/-- The words for a controller at rest. -/
def restWords : List Text :=
  ["NEUTRAL".toList, "NONE".toList, "WAIT".toList, "RELEASE".toList]

/-- The entry of a table under a name. -/
def find (table : List (Text × α)) (name : Text) : Option α :=
  (table.find? fun (n, _) => Text.sameLetters n name).map Prod.snd

/-- The stick that the first letter of a text names, and the text after it. -/
def stickLetter : Text → Option (Stick × Text)
  | c :: rest =>
    if c = 'L' ∨ c = 'l' then some (.left, rest)
    else if c = 'R' ∨ c = 'r' then some (.right, rest)
    else none
  | [] => none

/-- The cardinal position that a name stands for: the letter of a stick and a position. -/
def findCardinal (name : Text) : Option Symbol := do
  let (stick, rest) ← stickLetter name
  let position ← find cardinals rest
  return .cardinal stick position

/-- What a name stands for. -/
def lookup (name : Text) : Option Symbol :=
  match find buttons name with
  | some bit => some (.button bit)
  | none =>
    match find directions name with
    | some d => some (.direction d)
    | none => findCardinal name

/-- Whether a text is one of the words for a controller at rest. -/
def isRestWord (name : Text) : Bool := restWords.any fun w => Text.sameLetters w name

/-- Every name, in the order of the tables. -/
def allNames : List Text :=
  buttons.map Prod.fst ++ directions.map Prod.fst ++ cardinals.map ('L' :: ·.1) ++
    cardinals.map ('R' :: ·.1)

/-- The names of the buttons in a mask, lowest bit first. -/
def buttonNames (mask : UInt16) : List Text :=
  (buttons.filter fun (_, bit) => mask.toNat.testBit bit).map Prod.fst

/-- The name of a direction-pad byte. -/
def directionName (value : UInt8) : Option Text :=
  (directions.find? fun (_, d) => d.value = value).map Prod.fst

end Symbol

end PadScript
