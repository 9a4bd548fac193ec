import PadScript.Path
import PadScript.Text.Utf8

/-!
# File systems

What the program asks of a file system, and why it may refuse.
-/

namespace PadScript

/-- Why a file system refuses. -/
inductive FileFault where
  | notFound
  | notDirectory
  | isDirectory
  | nameTooLong
  | linkLoop
  | nulInPath
  | notText
  | other (message : Text)
  deriving DecidableEq, Repr

/-- The text of a refusal. -/
def FileFault.message : FileFault → Text
  | .notFound => "No such file or directory (os error 2)".toList
  | .notDirectory => "Not a directory (os error 20)".toList
  | .isDirectory => "Is a directory (os error 21)".toList
  | .nameTooLong => "File name too long (os error 36)".toList
  | .linkLoop => "Too many levels of symbolic links (os error 40)".toList
  | .nulInPath => "file name contained an unexpected NUL byte".toList
  | .notText => "stream did not contain valid UTF-8".toList
  | .other message => message

/-- A file system that is read. -/
structure FileSystem where
  /-- Whether the path leads to a regular file. -/
  isFile : Path → Bool
  /-- The absolute path, without links and `..`, of what the path leads to. -/
  canonical : Path → Except FileFault Path
  /-- The content of the file that the path leads to. -/
  read : Path → Except FileFault Bytes

namespace FileSystem

/-- The content of a file as text. -/
def readText (fs : FileSystem) (path : Path) : Except FileFault Text := do
  match Utf8.decode (← fs.read path) with
  | some text => .ok text
  | none => .error .notText

/-- The file system with nothing in it. -/
def empty : FileSystem where
  isFile _ := false
  canonical _ := .error .notFound
  read _ := .error .notFound

end FileSystem

end PadScript
