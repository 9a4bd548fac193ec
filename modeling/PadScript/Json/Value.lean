import PadScript.Json.Bracket

/-!
# Values

`value` reads any JSON value whole, up to a limit of nesting. `mismatch` says what stands where
another type was expected: a plain value is read to its end first, a bracket is not entered.
-/

namespace PadScript.Json

/-- A JSON value. -/
inductive Value where
  | scalar (s : Scalar)
  | array (items : List Value)
  | object (members : List (Text × Value))

/-- How many brackets may be open at once. -/
def maxDepth : Nat := 127

/-- Reads a value that is no bracket; the first byte decides which. -/
def scalar (first : UInt8) (rest : Bytes) : Except Stop (Scalar × Bytes) :=
  if first = 0x6E then do
    let ((), rest) ← literal [0x75, 0x6C, 0x6C] rest
    return (.null, rest)
  else if first = 0x74 then do
    let ((), rest) ← literal [0x72, 0x75, 0x65] rest
    return (.bool true, rest)
  else if first = 0x66 then do
    let ((), rest) ← literal [0x61, 0x6C, 0x73, 0x65] rest
    return (.bool false, rest)
  else if startsNumber first then do
    let (n, rest) ← number (first :: rest)
    return (.number n, rest)
  else if first = 0x22 then do
    let (s, rest) ← string rest
    return (.string s, rest)
  else stopAt .expectedValue rest

/-- Reads members up to the end of an object. -/
def members (item : Reader α) : Nat → Bool → Reader (List (Text × α))
  | 0, _, rest => stopAt .endInObject rest
  | fuel + 1, isFirst, rest => do
    match ← nextKey isFirst rest with
    | none => .ok ([], rest)
    | some start =>
      let (key, rest) ← string start
      let ((), rest) ← colon rest
      let (a, rest) ← item rest
      let (more, rest) ← members item fuel false rest
      return ((key, a) :: more, rest)

/-- Reads a value that may open so many brackets inside each other. -/
def value : Nat → Reader Value
  | depth, rest =>
    match skipSpace rest with
    | [] => stopAt .endInValue []
    | b :: after =>
      if b = 0x5B then
        match depth with
        | 0 => stopAt .tooDeep after
        | depth + 1 => do
          let (vs, rest) ← list (value depth) after
          return (.array vs, rest)
      else if b = 0x7B then
        match depth with
        | 0 => stopAt .tooDeep after
        | depth + 1 => do
          let parts := members (value depth) (after.length + 1) true
          let (ms, rest) ← Bracket.object.enclose parts after
          return (.object ms, rest)
      else do
        let (s, rest) ← scalar b after
        return (.scalar s, rest)

/-- Stops because the next value is not of the expected type. -/
def mismatch (expected : Text) (first : UInt8) (rest : Bytes) : Except Stop α :=
  if first = 0x5B then stopAt (.wrongType .sequence expected) (first :: rest)
  else if first = 0x7B then stopAt (.wrongType .map expected) (first :: rest)
  else do
    let (s, rest) ← scalar first rest
    stopAt (.wrongType (.scalar s) expected) rest

/-- Reads an integer below a bound. -/
def unsigned (bound : Nat) (expected : Text) : Reader Nat := fun rest =>
  match skipSpace rest with
  | [] => stopAt .endInValue []
  | b :: after =>
    if startsNumber b then do
      let (n, rest) ← number (b :: after)
      match n with
      | .natural k =>
        if k < bound then .ok (k, rest)
        else stopAt (.wrongValue (.scalar (.number n)) expected) rest
      | .negative _ => stopAt (.wrongValue (.scalar (.number n)) expected) rest
      | .real _ _ => stopAt (.wrongType (.scalar (.number n)) expected) rest
    else mismatch expected b after

/-- Reads a byte. -/
def byte : Reader UInt8 := fun rest => do
  let (n, rest) ← unsigned 256 "u8".toList rest
  return (UInt8.ofNat n, rest)

/-- Reads a list of anything, from its bracket on. -/
def array (expected : Text) (item : Reader α) : Reader (List α) := fun rest =>
  match skipSpace rest with
  | [] => stopAt .endInValue []
  | b :: after => if b = 0x5B then list item after else mismatch expected b after

/-- Reads to the end of the text, where nothing may follow. -/
def finish : Reader Unit := fun rest =>
  match skipSpace rest with
  | [] => .ok ((), [])
  | _ :: after => stopAt .trailingCharacters after

end PadScript.Json
