import PadScript.Json.Bracket

/-!
# Skipping a value

The value of an unknown key is passed over: its syntax is checked, but numbers are not limited,
surrogates are not paired, and any number of brackets may be open. The open brackets are a stack.
-/

namespace PadScript.Json

/-- Passes over an exponent after its mark. -/
def skipExponent (rest : Bytes) : Except Stop Bytes :=
  let rest :=
    match rest with
    | b :: after => if b = 0x2B ∨ b = 0x2D then after else rest
    | [] => []
  match rest with
  | [] => stopAt .invalidNumber []
  | b :: after =>
    if isDigit b then .ok (after.dropWhile isDigit) else stopAt .invalidNumber after

/-- Passes over the digits after a point, and an exponent if one follows. -/
def skipFraction (rest : Bytes) : Except Stop Bytes :=
  match rest with
  | [] => stopAt .invalidNumber []
  | b :: after =>
    if isDigit b then
      match after.dropWhile isDigit with
      | e :: tail => if isExponentMark e then skipExponent tail else .ok (e :: tail)
      | [] => .ok []
    else stopAt .invalidNumber after

/-- Passes over what follows the digits of an integer. -/
def skipNumberTail (rest : Bytes) : Except Stop Bytes :=
  match rest with
  | b :: after =>
    if b = 0x2E then skipFraction after
    else if isExponentMark b then skipExponent after
    else .ok rest
  | [] => .ok []

/-- Passes over a number after its sign. -/
def skipUnsigned (rest : Bytes) : Except Stop Bytes :=
  match rest with
  | [] => stopAt .invalidNumber []
  | b :: after =>
    if b = 0x30 then
      if (after.head?.map isDigit).getD false then stopPast .invalidNumber after
      else skipNumberTail after
    else if isDigit b then skipNumberTail (after.dropWhile isDigit)
    else stopAt .invalidNumber after

/-- Passes over a string after its opening quote. -/
def skipString : Bytes → Except Stop Bytes
  | [] => stopAt .endInString []
  | b :: rest =>
    if b = 0x22 then .ok rest
    else if b = 0x5C then
      match rest with
      | [] => stopAt .endInString []
      | e :: rest =>
        if e = 0x75 then
          match rest with
          | h1 :: h2 :: h3 :: h4 :: rest =>
            if (hexQuad? h1 h2 h3 h4).isSome then skipString rest
            else stopAt .invalidEscape rest
          | _ => stopAt .endInString []
        else if (escapedByte? e).isSome then skipString rest
        else stopAt .invalidEscape rest
    else if b < 0x20 then stopAt .controlCharacter (b :: rest)
    else skipString rest

/-- What may come next while a value is passed over. -/
inductive Awaited where
  | value
  | firstPart
  | nextPart
  deriving DecidableEq, Repr

/-- Passes over the key and the colon before a part of an object; a part of a list has neither. -/
def skipKey : Bracket → Bytes → Except Stop Bytes
  | .list, rest => .ok rest
  | .object, rest =>
    match skipSpace rest with
    | [] => stopAt .endInObject []
    | b :: after =>
      if b = 0x22 then do
        let rest ← skipString after
        let ((), rest) ← colon rest
        return rest
      else stopAt .keyNotString after

/-- Passes over a value that is no bracket. -/
def skipPlain (first : UInt8) (rest : Bytes) : Except Stop Bytes :=
  if first = 0x6E then return (← literal [0x75, 0x6C, 0x6C] rest).2
  else if first = 0x74 then return (← literal [0x72, 0x75, 0x65] rest).2
  else if first = 0x66 then return (← literal [0x61, 0x6C, 0x73, 0x65] rest).2
  else if first = 0x2D then skipUnsigned rest
  else if isDigit first then skipUnsigned (first :: rest)
  else if first = 0x22 then skipString rest
  else stopAt .expectedValue rest

/-- Passes over what is awaited while the given brackets are open, the innermost first. Two steps
take at least a byte. -/
def skipFrom : Nat → Awaited → List Bracket → Bytes → Except Stop Bytes
  | 0, _, _, rest => stopAt .endInValue rest
  | fuel + 1, .value, opened, rest =>
    match skipSpace rest with
    | [] => stopAt .endInValue []
    | b :: after =>
      if b = 0x5B then skipFrom fuel .firstPart (.list :: opened) after
      else if b = 0x7B then skipFrom fuel .firstPart (.object :: opened) after
      else do
        let rest ← skipPlain b after
        skipFrom fuel .nextPart opened rest
  | _ + 1, _, [], rest => .ok rest
  | fuel + 1, .firstPart, bracket :: opened, rest =>
    match skipSpace rest with
    | [] => stopAt bracket.endCause []
    | b :: after =>
      if b = bracket.closer then skipFrom fuel .nextPart opened after
      else do
        let rest ← skipKey bracket (b :: after)
        skipFrom fuel .value (bracket :: opened) rest
  | fuel + 1, .nextPart, bracket :: opened, rest =>
    match skipSpace rest with
    | [] => stopAt bracket.endCause []
    | b :: after =>
      if b = 0x2C then do
        let rest ← skipKey bracket after
        skipFrom fuel .value (bracket :: opened) rest
      else if b = bracket.closer then skipFrom fuel .nextPart opened after
      else stopAt bracket.commaCause after

/-- Passes over a value. -/
def skipValue (rest : Bytes) : Except Stop Bytes :=
  skipFrom (2 * rest.length + 2) .value [] rest

end PadScript.Json
