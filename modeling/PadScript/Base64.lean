import PadScript.Text.Numeral
import PadScript.Text.Utf8

/-!
# Base64

The standard alphabet with padding. Text is taken in groups of four symbols; only the last group
may be padded, it must be padded to four, and the bits that it does not use must be zero.
-/

namespace PadScript.Base64

/-- Why a text is no base64. Offsets count bytes. -/
inductive Fault where
  | invalidSymbol (symbol : UInt8) (offset : Nat)
  | invalidLength (length : Nat)
  | invalidPadding
  | invalidLastSymbol (symbol : UInt8) (offset : Nat)
  deriving DecidableEq, Repr

/-- The text of a fault. -/
def Fault.message : Fault → Text
  | .invalidSymbol symbol offset =>
    "Invalid symbol ".toList ++ Text.ofNat symbol.toNat ++ ", offset ".toList ++
      Text.ofNat offset ++ ".".toList
  | .invalidLength length => "Invalid input length: ".toList ++ Text.ofNat length
  | .invalidPadding => "Invalid padding".toList
  | .invalidLastSymbol symbol offset =>
    "Invalid last symbol ".toList ++ Text.ofNat symbol.toNat ++ ", offset ".toList ++
      Text.ofNat offset ++ ".".toList

/-- The padding symbol `=`. -/
def padding : UInt8 := 0x3D

/-- The six bits of a symbol of the alphabet. -/
def symbolValue? (b : UInt8) : Option Nat :=
  if 0x41 ≤ b ∧ b ≤ 0x5A then some (b.toNat - 0x41)
  else if 0x61 ≤ b ∧ b ≤ 0x7A then some (b.toNat - 0x61 + 26)
  else if 0x30 ≤ b ∧ b ≤ 0x39 then some (b.toNat - 0x30 + 52)
  else if b = 0x2B then some 62
  else if b = 0x2F then some 63
  else none

/-- The six bits of the symbol at an offset. -/
def symbolAt (offset : Nat) (b : UInt8) : Except Fault Nat :=
  match symbolValue? b with
  | some v => .ok v
  | none => .error (.invalidSymbol b offset)

/-- The three bytes of four symbols. -/
def groupBytes (w x y z : Nat) : Bytes :=
  [UInt8.ofNat (w * 4 + x / 16), UInt8.ofNat (x % 16 * 16 + y / 4), UInt8.ofNat (y % 4 * 64 + z)]

/-- The symbols of the last group, and how much padding follows them; `index` counts the bytes of
the group before these, and `pad` the offset in the group where padding began. -/
def lastSymbols (offset : Nat) : Nat → Option Nat → Bytes → Except Fault (List Nat × Nat)
  | _, _, [] => .ok ([], 0)
  | index, pad, b :: rest =>
    if b = padding then
      if index < 2 then .error (.invalidSymbol b (offset + index))
      else do
        let (values, count) ← lastSymbols offset (index + 1) (some (pad.getD index)) rest
        return (values, count + 1)
    else
      match pad with
      | some start => .error (.invalidSymbol padding (offset + start))
      | none => do
        let v ← symbolAt (offset + index) b
        let (values, count) ← lastSymbols offset (index + 1) none rest
        return (v :: values, count)

/-- The bytes of the last group, which has one to four bytes. -/
def lastGroup (offset : Nat) (group : Bytes) : Except Fault Bytes := do
  let (values, count) ← lastSymbols offset 0 none group
  let last := (group.take values.length).getLast?.getD 0
  match values, count with
  | [w, x], 2 =>
    if x % 16 = 0 then return [UInt8.ofNat (w * 4 + x / 16)]
    else .error (.invalidLastSymbol last (offset + 1))
  | [w, x, y], 1 =>
    if y % 4 = 0 then return (groupBytes w x y 0).take 2
    else .error (.invalidLastSymbol last (offset + 2))
  | [w, x, y, z], 0 => return groupBytes w x y z
  | values, _ =>
    if values.length < 2 then .error (.invalidLength (offset + values.length))
    else .error .invalidPadding

/-- The bytes of the groups from an offset on. -/
def groups (offset : Nat) : Bytes → Except Fault Bytes
  | [] => .ok []
  | a :: b :: c :: d :: e :: rest => do
    let w ← symbolAt offset a
    let x ← symbolAt (offset + 1) b
    let y ← symbolAt (offset + 2) c
    let z ← symbolAt (offset + 3) d
    let more ← groups (offset + 4) (e :: rest)
    return groupBytes w x y z ++ more
  | group => lastGroup offset group

/-- The bytes that a base64 text stands for. A foreign symbol at the end of a text that is one
symbol too long is reported first. -/
def decode (text : Bytes) : Except Fault Bytes :=
  match text.getLast? with
  | some b =>
    if text.length % 4 = 1 ∧ b ≠ padding ∧ (symbolValue? b).isNone then
      .error (.invalidSymbol b (text.length - 1))
    else groups 0 text
  | none => .ok []

end PadScript.Base64
