import PadScript.Text.Blank

/-!
# UTF-8

Files hold bytes and sources are text. `Utf8.decode` accepts exactly the shortest forms of the
Unicode scalar values.
-/

namespace PadScript

/-- The content of a file. -/
abbrev Bytes := List UInt8

namespace Utf8

/-- The bytes of a text. -/
def encode (s : Text) : Bytes := s.flatMap String.utf8EncodeChar

/-- The six bits that a continuation byte carries. -/
def continuation? (b : UInt8) : Option Nat :=
  if 0x80 ≤ b ∧ b < 0xC0 then some (b.toNat - 0x80) else none

/-- The character of a code point that needs at least the code point `least`. -/
def scalar? (least n : Nat) : Option Char :=
  if h : least ≤ n ∧ n.isValidChar then some (Char.ofNatAux n h.2) else none

/-- The text of the bytes; nothing if they are not UTF-8. -/
def decode : Bytes → Option Text
  | [] => some []
  | a :: rest =>
    if a < 0x80 then (decode rest).map (Char.ofNat a.toNat :: ·)
    else
      match rest with
      | [] => none
      | b :: rest =>
        if a < 0xE0 then do
          let y ← continuation? b
          let c ← scalar? 0x80 ((a.toNat - 0xC0) * 64 + y)
          if a < 0xC0 then none
          (decode rest).map (c :: ·)
        else
          match rest with
          | [] => none
          | d :: rest =>
            if a < 0xF0 then do
              let y ← continuation? b
              let z ← continuation? d
              let c ← scalar? 0x800 (((a.toNat - 0xE0) * 64 + y) * 64 + z)
              (decode rest).map (c :: ·)
            else
              match rest with
              | [] => none
              | e :: rest => do
                let y ← continuation? b
                let z ← continuation? d
                let w ← continuation? e
                let c ← scalar? 0x10000 ((((a.toNat - 0xF0) * 64 + y) * 64 + z) * 64 + w)
                (decode rest).map (c :: ·)

end Utf8

end PadScript
