import PadScript.FileSystem

/-!
# File trees

A file tree is a file system held in memory: files, directories and symbolic links by location. A
path is walked step by step; links are followed, at most forty of them on one walk.
-/

namespace PadScript

/-- The names that lead from the root to a place in a tree. -/
abbrev Location := List Text

/-- What stands at a location. -/
inductive Entry where
  | file (content : Bytes)
  | link (target : Path)
  | directory
  deriving DecidableEq, Repr

/-- Files, links and directories by location, and the directory where relative paths start. -/
structure FileTree where
  entries : List (Location × Entry)
  home : Location
  deriving Repr

namespace FileTree

/-- The locations on the way from the root to a location, that location included. -/
def stages (place : Location) : List Location :=
  (List.range place.length).map fun n => place.take (n + 1)

/-- The tree with nothing but its home directory and the directories above it. -/
def ofHome (home : Location) : FileTree :=
  ⟨(stages home).map fun place => (place, .directory), home⟩

/-- What stands at a location. -/
def find? (tree : FileTree) (place : Location) : Option Entry :=
  if place = [] then some .directory
  else (tree.entries.find? fun (p, _) => p = place).map Prod.snd

/-- Whether there is a directory at a location. -/
def isDirectory (tree : FileTree) (place : Location) : Bool :=
  tree.find? place = some .directory

/-- The tree with an entry at a location, in place of what stood there. -/
def put (tree : FileTree) (place : Location) (entry : Entry) : FileTree :=
  { tree with entries := tree.entries.filter (fun (p, _) => p ≠ place) ++ [(place, entry)] }

theorem find?_put_self (tree : FileTree) {place : Location} (entry : Entry) (h : place ≠ []) :
    (tree.put place entry).find? place = some entry := by
  simp [find?, put, h, List.find?_append, List.find?_eq_none.mpr]

theorem find?_put_of_ne (tree : FileTree) {place other : Location} (entry : Entry)
    (h : other ≠ place) : (tree.put place entry).find? other = tree.find? other := by
  have keep : ∀ l : List (Location × Entry),
      (l.filter fun p => p.1 ≠ place).find? (fun p => p.1 = other) =
        l.find? (fun p => p.1 = other) := by
    intro l
    rw [List.find?_filter]
    congr 1
    funext p
    by_cases hp : p.1 = other <;> simp [hp, h]
  simp only [find?, put, List.find?_append, keep]
  simp [Ne.symm h]

/-- The tree with an entry at a location and directories above it. -/
def insert (tree : FileTree) (place : Location) (entry : Entry) : FileTree :=
  let above := (stages place).filter fun p => p ≠ place && (tree.find? p).isNone
  (above.foldl (fun t p => t.put p .directory) tree).put place entry

/-- The greatest length of a name, in bytes. -/
def maxName : Nat := 255

/-- The greatest length of a path, in bytes. -/
def maxPath : Nat := 4095

/-- How many links one walk may follow. -/
def maxLinks : Nat := 40

/-- The place where a path starts, and its pieces. -/
def start (base : Location) (path : Path) : Location × List Text :=
  match path.text with
  | '/' :: rest => ([], Text.pieces '/' rest)
  | text => (base, Text.pieces '/' text)

/-- What the last piece of a path must be: something that exists, or a file that may be new. -/
inductive Goal where
  | existing
  | writable
  deriving DecidableEq, Repr

/-- Walks the pieces of a path from a location. `follow` goes on behind a link. A path to a file
that may be new ends with a name and no separator after it. -/
def walkWith (tree : FileTree) (goal : Goal)
    (follow : Location → List Text → Except FileFault Location) (here : Location) :
    List Text → Except FileFault Location
  | [] => .ok here
  | piece :: rest =>
    let isLast := goal = .writable && rest.all (·.isEmpty)
    if !tree.isDirectory here then .error .notDirectory
    else if isLast && (!rest.isEmpty || Path.isIdle piece || piece = ['.', '.']) then
      .error .isDirectory
    else if Path.isIdle piece then walkWith tree goal follow here rest
    else if piece = ['.', '.'] then walkWith tree goal follow here.dropLast rest
    else if maxName < (Utf8.encode piece).length then .error .nameTooLong
    else
      match tree.find? (here ++ [piece]) with
      | none => if isLast then .ok (here ++ [piece]) else .error .notFound
      | some (.link target) =>
        let (base, pieces) := start here target
        follow base (pieces ++ rest)
      | some .directory =>
        if isLast then .error .isDirectory else walkWith tree goal follow (here ++ [piece]) rest
      | some (.file _) => walkWith tree goal follow (here ++ [piece]) rest

/-- Walks the pieces of a path from a location, behind at most so many links. -/
def walk (tree : FileTree) (goal : Goal) : Nat → Location → List Text → Except FileFault Location
  | 0 => walkWith tree goal fun _ _ => .error .linkLoop
  | links + 1 => walkWith tree goal (walk tree goal links)

/-- Refuses a path that names nothing. -/
def checkName (path : Path) : Except FileFault Unit :=
  if '\x00' ∈ path.text then .error .nulInPath
  else if path.text = [] then .error .notFound
  else .ok ()

/-- Refuses a path that cannot be opened. -/
def checkPath (path : Path) : Except FileFault Unit := do
  checkName path
  if maxPath < (Utf8.encode path.text).length then .error .nameTooLong
  else .ok ()

/-- The location that a path leads to, however long the path is. -/
def locate (tree : FileTree) (goal : Goal) (path : Path) : Except FileFault Location := do
  checkName path
  let (base, pieces) := start tree.home path
  walk tree goal maxLinks base pieces

/-- The absolute path of a location. -/
def pathOf (place : Location) : Path := ⟨'/' :: Text.join ['/'] place⟩

/-- The content of the file that a path leads to. -/
def read (tree : FileTree) (path : Path) : Except FileFault Bytes := do
  checkPath path
  match tree.find? (← tree.locate .existing path) with
  | some (.file content) => return content
  | some _ => .error .isDirectory
  | none => .error .notFound

/-- Whether a path leads to a file. -/
def isFile (tree : FileTree) (path : Path) : Bool :=
  match tree.read path with
  | .ok _ => true
  | .error _ => false

/-- The tree as a file system that is read. A path is made canonical piece by piece, so its length
does not matter there. -/
def fileSystem (tree : FileTree) : FileSystem where
  isFile := tree.isFile
  canonical path := return pathOf (← tree.locate .existing path)
  read := tree.read

/-- Writes a file. -/
def write (tree : FileTree) (path : Path) (content : Bytes) : Except FileFault FileTree := do
  checkPath path
  let place ← tree.locate .writable path
  return tree.put place (.file content)

/-- The files of a tree. -/
def files (tree : FileTree) : List (Location × Bytes) :=
  tree.entries.filterMap fun (place, entry) =>
    match entry with
    | .file content => some (place, content)
    | _ => none

/-- The files that are in a tree and were not in the tree before with the same content. -/
def changes (old new : FileTree) : List (Location × Bytes) :=
  new.files.filter fun (place, content) => old.find? place ≠ some (.file content)

end FileTree

end PadScript
