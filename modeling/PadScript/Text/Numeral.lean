import PadScript.Text.Blank

/-!
# Numerals

Numerals are read at their full value, without a bound: decimal digits, or `0x` and hexadecimal
digits. They are written in decimal, or as a byte in two upper-case hexadecimal digits.
-/

namespace PadScript.Text

/-- The value of an ASCII digit or of a letter `a` to `f` in either case. -/
def digitValue (c : Char) : Option Nat :=
  let n := c.toNat
  if 48 ≤ n ∧ n ≤ 57 then some (n - 48)
  else if 97 ≤ n ∧ n ≤ 102 then some (n - 87)
  else if 65 ≤ n ∧ n ≤ 70 then some (n - 55)
  else none

/-- The value of a digit of the given base. -/
def digit? (base : Nat) (c : Char) : Option Nat :=
  (digitValue c).filter (· < base)

/-- The value of `acc` followed by the digits `s`; nothing if some character is no digit. -/
def readDigits (base acc : Nat) : Text → Option Nat
  | [] => some acc
  | c :: s =>
    match digit? base c with
    | some d => readDigits base (acc * base + d) s
    | none => none

/-- The value of a text that is one digit or more. -/
def readNat (base : Nat) (s : Text) : Option Nat :=
  if s.isEmpty then none else readDigits base 0 s

/-- The value of a numeral: `0x` or `0X` and hexadecimal digits, or decimal digits. -/
def numeral : Text → Option Nat
  | '0' :: 'x' :: digits => readNat 16 digits
  | '0' :: 'X' :: digits => readNat 16 digits
  | digits => readNat 10 digits

/-- The decimal digits of a number. -/
def ofNat (n : Nat) : Text := Nat.toDigits 10 n

/-- The hexadecimal digits of a number, in lower case. -/
def ofNatHex (n : Nat) : Text := Nat.toDigits 16 n

/-- The upper-case hexadecimal digit of a value below sixteen. -/
def upperHexDigit (n : Nat) : Char :=
  if n < 10 then Char.ofNat (48 + n) else Char.ofNat (55 + n)

/-- A byte as two upper-case hexadecimal digits. -/
def ofByteHex (b : UInt8) : Text := [upperHexDigit (b.toNat / 16), upperHexDigit (b.toNat % 16)]

/-- The text with spaces before it, up to the given width. -/
def padLeft (width : Nat) (s : Text) : Text := List.replicate (width - s.length) ' ' ++ s

/-- The text with spaces after it, up to the given width. -/
def padRight (width : Nat) (s : Text) : Text := s ++ List.replicate (width - s.length) ' '

end PadScript.Text
