import PadScript.Json.Fault

/-!
# The words of JSON

Readers for blanks, literals, numbers and strings.
-/

namespace PadScript.Json

/-- The bytes between words: space, tab, line feed and carriage return. -/
def isSpace (b : UInt8) : Bool := b = 0x20 || b = 0x09 || b = 0x0A || b = 0x0D

/-- The bytes from the next word on. -/
def skipSpace (bytes : Bytes) : Bytes := bytes.dropWhile isSpace

/-- Whether a byte is a decimal digit. -/
def isDigit (b : UInt8) : Bool := 0x30 ≤ b && b ≤ 0x39

/-- The value of a decimal digit. -/
def digitOf (b : UInt8) : Nat := b.toNat - 0x30

/-- Reads the given bytes, of which each must come next. -/
def literal : Bytes → Reader Unit
  | [], rest => .ok ((), rest)
  | _ :: _, [] => stopAt .endInValue []
  | w :: word, b :: rest => if w = b then literal word rest else stopAt .expectedIdent rest

/-! ## Numbers -/

/-- The greatest significand that is kept exactly. -/
def greatestSignificand : Nat := UInt64.size - 1

/-- Takes the digits of an integer: its leading digits as far as they fit, and how many digits
after those were dropped. -/
def takeInteger : Bytes → Nat × Nat → Nat × Nat
  | [], state => state
  | b :: digits, (value, dropped) =>
    if dropped = 0 ∧ value * 10 + digitOf b ≤ greatestSignificand then
      takeInteger digits (value * 10 + digitOf b, 0)
    else takeInteger digits (value, dropped + 1)

/-- Takes the digits after the point, as long as they fit, and counts them. -/
def takeFraction : Bytes → Nat × Nat → Nat × Nat
  | [], state => state
  | b :: digits, (value, taken) =>
    if value * 10 + digitOf b ≤ greatestSignificand then
      takeFraction digits (value * 10 + digitOf b, taken + 1)
    else (value, taken)

/-- The value of decimal digits. -/
def decimalOf (digits : Bytes) : Nat := digits.foldl (fun n b => n * 10 + digitOf b) 0

/-- The rounded number with this significand and power of ten. -/
def realNumber (isNegative : Bool) (significand : Nat) (power : Int) : Reader Number := fun rest =>
  match Binary64.ofDecimal significand power with
  | some magnitude => .ok (.real isNegative magnitude, rest)
  | none => stopAt .numberOutOfRange rest

/-- Reads an exponent after its mark, for a number with this significand and power of ten. -/
def exponentPart (isNegative : Bool) (significand : Nat) (power : Int) : Reader Number :=
  fun rest =>
    let (sign, rest) : Int × Bytes :=
      match rest with
      | 0x2B :: rest => (1, rest)
      | 0x2D :: rest => (-1, rest)
      | rest => (1, rest)
    match rest with
    | [] => stopAt .endInValue []
    | b :: after =>
      if isDigit b then
        realNumber isNegative significand (power + sign * decimalOf (rest.takeWhile isDigit))
          (rest.dropWhile isDigit)
      else stopAt .invalidNumber after

/-- Whether a byte marks an exponent. -/
def isExponentMark (b : UInt8) : Bool := b = 0x65 || b = 0x45

/-- Reads the digits after a point, and an exponent if one follows. -/
def fractionPart (isNegative : Bool) (significand : Nat) (power : Int) : Reader Number :=
  fun rest =>
    let digits := rest.takeWhile isDigit
    let after := rest.dropWhile isDigit
    if digits.isEmpty then
      if rest.isEmpty then stopAt .endInValue [] else stopPast .invalidNumber rest
    else
      let (value, taken) := takeFraction digits (significand, 0)
      match after with
      | b :: tail =>
        if isExponentMark b then exponentPart isNegative value (power - taken) tail
        else realNumber isNegative value (power - taken) after
      | [] => realNumber isNegative value (power - taken) after

/-- The number of an integer that neither point nor exponent follows. A negative zero, and what
64 bits do not hold, is rounded. -/
def integerNumber (isNegative : Bool) (value dropped : Nat) : Reader Number :=
  if dropped = 0 ∧ !isNegative then fun rest => .ok (.natural value, rest)
  else if dropped = 0 ∧ 0 < value ∧ value ≤ UInt64.size / 2 then
    fun rest => .ok (.negative value, rest)
  else realNumber isNegative value dropped

/-- Reads what follows the digits of an integer. -/
def numberTail (isNegative : Bool) (value dropped : Nat) : Reader Number := fun rest =>
  match rest with
  | b :: tail =>
    if b = 0x2E then fractionPart isNegative value dropped tail
    else if isExponentMark b then exponentPart isNegative value dropped tail
    else integerNumber isNegative value dropped rest
  | [] => integerNumber isNegative value dropped []

/-- Reads a number after its sign. -/
def unsignedPart (isNegative : Bool) : Reader Number
  | [] => stopAt .endInValue []
  | b :: rest =>
    if b = 0x30 then
      if (rest.head?.map isDigit).getD false then stopPast .invalidNumber rest
      else numberTail isNegative 0 0 rest
    else if isDigit b then
      let (value, dropped) := takeInteger (b :: rest.takeWhile isDigit) (0, 0)
      numberTail isNegative value dropped (rest.dropWhile isDigit)
    else stopAt .invalidNumber rest

/-- Whether a byte starts a number. -/
def startsNumber (b : UInt8) : Bool := b = 0x2D || isDigit b

/-- Reads a number. -/
def number : Reader Number
  | 0x2D :: rest => unsignedPart true rest
  | rest => unsignedPart false rest

/-! ## Strings -/

/-- The value of a hexadecimal digit. -/
def hexDigit? (b : UInt8) : Option Nat := Text.digitValue (Char.ofNat b.toNat)

/-- The value of four hexadecimal digits. -/
def hexQuad? (a b c d : UInt8) : Option Nat := do
  return (((← hexDigit? a) * 16 + (← hexDigit? b)) * 16 + (← hexDigit? c)) * 16 + (← hexDigit? d)

/-- The byte that a letter after a backslash stands for. -/
def escapedByte? (b : UInt8) : Option UInt8 :=
  if b = 0x22 ∨ b = 0x5C ∨ b = 0x2F then some b
  else if b = 0x62 then some 0x08
  else if b = 0x66 then some 0x0C
  else if b = 0x6E then some 0x0A
  else if b = 0x72 then some 0x0D
  else if b = 0x74 then some 0x09
  else none

/-- Whether a code unit opens a surrogate pair. -/
def isHighSurrogate (n : Nat) : Bool := 0xD800 ≤ n && n ≤ 0xDBFF

/-- Whether a code unit closes a surrogate pair. -/
def isLowSurrogate (n : Nat) : Bool := 0xDC00 ≤ n && n ≤ 0xDFFF

/-- The code point of a surrogate pair. -/
def surrogatePair (high low : Nat) : Nat := (high - 0xD800) * 0x400 + (low - 0xDC00) + 0x10000

/-- Puts bytes before what was read. -/
def before (bytes : Bytes) (r : Except Stop (Bytes × Bytes)) : Except Stop (Bytes × Bytes) :=
  r.map fun (content, rest) => (bytes ++ content, rest)

/-- The bytes of a code point. -/
def codePointBytes (n : Nat) : Bytes := Utf8.encode [Char.ofNat n]

/-- Reads the content of a string after its opening quote, with the escapes resolved. -/
def stringContent : Reader Bytes
  | [] => stopAt .endInString []
  | b :: rest =>
    if b = 0x22 then .ok ([], rest)
    else if b = 0x5C then
      match rest with
      | [] => stopAt .endInString []
      | e :: rest =>
        if e = 0x75 then
          match rest with
          | h1 :: h2 :: h3 :: h4 :: rest =>
            match hexQuad? h1 h2 h3 h4 with
            | none => stopAt .invalidEscape rest
            | some high =>
              if isLowSurrogate high then stopAt .loneSurrogate rest
              else if isHighSurrogate high then
                match rest with
                | [] => stopAt .endInString []
                | s :: rest =>
                  if s = 0x5C then
                    match rest with
                    | [] => stopAt .endInString []
                    | u :: rest =>
                      if u = 0x75 then
                        match rest with
                        | l1 :: l2 :: l3 :: l4 :: rest =>
                          match hexQuad? l1 l2 l3 l4 with
                          | none => stopAt .invalidEscape rest
                          | some low =>
                            if isLowSurrogate low then
                              before (codePointBytes (surrogatePair high low)) (stringContent rest)
                            else stopAt .loneSurrogate rest
                        | _ => stopAt .endInString []
                      else stopAt .unpairedEscape rest
                  else stopAt .unpairedEscape rest
              else before (codePointBytes high) (stringContent rest)
          | _ => stopAt .endInString []
        else
          match escapedByte? e with
          | some c => before [c] (stringContent rest)
          | none => stopAt .invalidEscape rest
    else if b < 0x20 then stopAt .controlCharacter rest
    else before [b] (stringContent rest)

/-- Reads a string after its opening quote, as text. -/
def string : Reader Text := fun rest => do
  let (content, rest) ← stringContent rest
  match Utf8.decode content with
  | some text => .ok (text, rest)
  | none => stopAt .invalidCodePoint rest

end PadScript.Json
