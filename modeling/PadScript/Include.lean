import PadScript.Fault

/-!
# Includes

The chain of files that are being expanded, and the file that an include directive leads to.
-/

namespace PadScript

/-- The files that are being expanded, the outermost first. -/
structure IncludeChain where
  paths : List Path
  deriving Repr

namespace IncludeChain

/-- No file is being expanded. -/
def empty : IncludeChain := ⟨[]⟩

/-- The chain with one file more. -/
def extend (chain : IncludeChain) (path : Path) : IncludeChain := ⟨chain.paths ++ [path]⟩

/-- Whether a file is being expanded. -/
def contains (chain : IncludeChain) (path : Path) : Bool := chain.paths.any (·.same path)

/-- The number of files. -/
def size (chain : IncludeChain) : Nat := chain.paths.length

@[simp] theorem size_extend (chain : IncludeChain) (path : Path) :
    (chain.extend path).size = chain.size + 1 := by simp [size, extend]

@[simp] theorem contains_extend_self (chain : IncludeChain) (path : Path) :
    (chain.extend path).contains path = true := by simp [contains, extend, Path.same]

/-- Whether two chains have the same files in the same order. -/
def same (chain other : IncludeChain) : Bool :=
  chain.paths.map Path.components = other.paths.map Path.components

/-- The chain and the file after it, for messages. -/
def describe (chain : IncludeChain) (next : Path) : Text := describeTrail (chain.extend next).paths

end IncludeChain

namespace Include

/-- A target without the quotes around it. -/
def unquote (target : Text) : Text :=
  match target with
  | '"' :: rest => if rest.getLast? = some '"' then rest.dropLast else target
  | _ => target

/-- The path that a directive names, seen from the directory `base`. -/
def path (base : Option Path) (target : Text) : Except Fault Path :=
  let named := unquote (Text.trim target)
  if named.isEmpty then .error .missingTarget
  else if Path.isAbsolute ⟨named⟩ then .ok ⟨named⟩
  else
    match base with
    | some directory => .ok (directory.append ⟨named⟩)
    | none => .error (.baselessTarget named)

/-- The file that a directive leads to, seen from the directory `base`. -/
def resolve (fs : FileSystem) (base : Option Path) (target : Text) : Except Fault Path := do
  let full ← path base target
  if fs.isFile full then .ok full
  else .error (.targetNotFound full (unquote (Text.trim target)))

end Include

end PadScript
