import PadScript.Text.Blank

/-!
# Cutting and joining text

`pieces` cuts a text at every separator and `join` puts the pieces together again. `lines` is the
reading of a source text as numbered lines: a line ends at a line feed, with one carriage return
before it, and a final line feed opens no further line.
-/

namespace PadScript.Text

/-- What stands between the separators of a text: one piece more than there are separators. -/
def pieces (sep : Char) : Text → List Text
  | [] => [[]]
  | c :: s =>
    if c = sep then [] :: pieces sep s
    else
      match pieces sep s with
      | [] => [[c]]
      | p :: ps => (c :: p) :: ps

/-- The texts one after the other, with `sep` between neighbours. -/
def join (sep : Text) : List Text → Text
  | [] => []
  | [p] => p
  | p :: q :: ps => p ++ sep ++ join sep (q :: ps)

/-- The text before the first `sep` and the text after it. -/
def cutFirst (sep : Char) : Text → Option (Text × Text)
  | [] => none
  | c :: s => if c = sep then some ([], s) else (cutFirst sep s).map fun (a, b) => (c :: a, b)

/-- The text before the last `sep` and the text after it. -/
def cutLast (sep : Char) : Text → Option (Text × Text)
  | [] => none
  | c :: s =>
    match cutLast sep s with
    | some (a, b) => some (c :: a, b)
    | none => if c = sep then some ([], s) else none

/-- The text without one carriage return at its end. -/
def dropReturn (s : Text) : Text :=
  if s.getLast? = some '\r' then s.dropLast else s

/-- The lines among pieces cut at line feeds: the last piece was ended by none, and is a line only
if it holds something. -/
def linesOfPieces : List Text → List Text
  | [] => []
  | [last] => if last.isEmpty then [] else [last]
  | p :: q :: ps => dropReturn p :: linesOfPieces (q :: ps)

/-- The lines of a source text. -/
def lines (s : Text) : List Text := linesOfPieces (pieces '\n' s)

theorem pieces_ne_nil (sep : Char) (s : Text) : pieces sep s ≠ [] := by
  cases s with
  | nil => simp [pieces]
  | cons c s =>
    unfold pieces
    split
    · simp
    · split <;> simp

end PadScript.Text
