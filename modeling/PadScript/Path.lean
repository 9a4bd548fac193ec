import PadScript.Text.Lines

/-!
# Paths

A path is kept as it was written, because messages show it that way. Two paths are the same if
their components are: repeated separators and inner `.` components do not count, and `..` is a
component like any other.
-/

namespace PadScript

/-- A path as it was written. -/
structure Path where
  text : Text
  deriving DecidableEq, Repr

namespace Path

/-- Where a path starts: at the root, at an explicit `.`, or at its first piece. -/
inductive Anchor where
  | root
  | here
  | plain
  deriving DecidableEq, Repr

/-- One step of a path. -/
inductive Component where
  | root
  | here
  | up
  | name (text : Text)
  deriving DecidableEq, Repr

/-- Whether the path starts at the root. -/
def isAbsolute (p : Path) : Bool := p.text.head? = some '/'

/-- The start of a path, and what stands between the separators after it. -/
def parts (p : Path) : Anchor × List Text :=
  match p.text with
  | '/' :: rest => (.root, Text.pieces '/' rest)
  | text =>
    match Text.pieces '/' text with
    | ['.'] :: rest => (.here, rest)
    | rest => (.plain, rest)

/-- The path with this start and these pieces. -/
def ofParts : Anchor → List Text → Path
  | .root, pieces => ⟨'/' :: Text.join ['/'] pieces⟩
  | .here, pieces => ⟨Text.join ['/'] (['.'] :: pieces)⟩
  | .plain, pieces => ⟨Text.join ['/'] pieces⟩

/-- Whether a piece is no step: nothing between two separators, or a `.`. -/
def isIdle (piece : Text) : Bool := piece = [] || piece = ['.']

/-- The component of a start. -/
def Anchor.components : Anchor → List Component
  | .root => [.root]
  | .here => [.here]
  | .plain => []

/-- The component of a piece that is a step. -/
def Component.ofPiece (piece : Text) : Component :=
  if piece = ['.', '.'] then .up else .name piece

/-- The steps of a path. -/
def components (p : Path) : List Component :=
  p.parts.1.components ++ (p.parts.2.filter (!isIdle ·)).map Component.ofPiece

/-- Whether two paths have the same steps. -/
def same (p q : Path) : Bool := p.components = q.components

/-- The pieces up to the last step; none if no piece is a step. -/
def dropIdleEnd (pieces : List Text) : List Text := (pieces.reverse.dropWhile isIdle).reverse

/-- The path without its last step, and without the separators before that; nothing for the root
and for the empty path. -/
def parent? (p : Path) : Option Path :=
  let (anchor, pieces) := p.parts
  match dropIdleEnd pieces, anchor with
  | [], .here => some ⟨[]⟩
  | [], _ => none
  | steps, _ => some (ofParts anchor (dropIdleEnd steps.dropLast))

/-- The path `q` seen from the directory `p`. -/
def append (p q : Path) : Path :=
  if q.isAbsolute || p.text = [] then q
  else if p.text.getLast? = some '/' then ⟨p.text ++ q.text⟩
  else ⟨p.text ++ '/' :: q.text⟩

/-- The pieces before the file name, and the file name: the last step, if it is a name. -/
def fileName? (p : Path) : Option (List Text × Text) :=
  let steps := dropIdleEnd p.parts.2
  match steps.getLast? with
  | some name => if name = ['.', '.'] then none else some (steps.dropLast, name)
  | none => none

/-- The part of a file name before its last dot, and the extension after it. A dot that opens the
name divides nothing. -/
def splitName (name : Text) : Text × Option Text :=
  match Text.cutLast '.' name with
  | some (stem, extension) => if stem.isEmpty then (name, none) else (stem, some extension)
  | none => (name, none)

/-- The extension of the file name. -/
def extension? (p : Path) : Option Text := do
  let (_, name) ← p.fileName?
  (splitName name).2

/-- The path with another extension; a path without a file name stays as it is. -/
def withExtension (p : Path) (extension : Text) : Path :=
  match p.fileName? with
  | some (before, name) => ofParts p.parts.1 (before ++ [(splitName name).1 ++ '.' :: extension])
  | none => p

end Path

end PadScript
