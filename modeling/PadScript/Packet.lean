/-!
# Controller reports

A packet is the report that a controller sends: two bytes of buttons, the direction pad, the two
sticks and a reserved byte, eight bytes in all.
-/

namespace PadScript

/-- The position of a stick; the centre is at 128 on both axes. -/
structure StickPosition where
  x : UInt8
  y : UInt8
  deriving DecidableEq, Repr

/-- The resting position. -/
def StickPosition.centre : StickPosition := ⟨128, 128⟩

/-- A controller report, with its fields in the order in which they are sent. -/
structure Packet where
  buttonsHigh : UInt8
  buttonsLow : UInt8
  dpad : UInt8
  left : StickPosition
  right : StickPosition
  reserved : UInt8
  deriving DecidableEq, Repr

namespace Packet

/-- The direction-pad value for no direction. -/
def dpadCentre : UInt8 := 8

/-- The report of a controller at rest. -/
def neutral : Packet := ⟨0, 0, dpadCentre, .centre, .centre, 0⟩

instance : Inhabited Packet := ⟨neutral⟩

/-- The report with these buttons, direction and sticks; button 8 is the lowest bit of the first
byte. -/
def ofParts (buttons : UInt16) (dpad : UInt8) (left right : StickPosition) : Packet :=
  ⟨(buttons / 256).toUInt8, buttons.toUInt8, dpad, left, right, 0⟩

/-- The button mask. -/
def buttons (p : Packet) : UInt16 := p.buttonsHigh.toUInt16 * 256 + p.buttonsLow.toUInt16

@[simp] theorem buttons_ofParts (buttons : UInt16) (dpad : UInt8) (left right : StickPosition) :
    (ofParts buttons dpad left right).buttons = buttons := by
  have h := buttons.toNat_lt
  apply UInt16.toNat_inj.mp
  simp [ofParts, Packet.buttons]
  omega

/-- Whether the report is that of a controller at rest. -/
def isNeutral (p : Packet) : Bool := p = neutral

/-- The eight bytes as they are sent. -/
def toBytes (p : Packet) : List UInt8 :=
  [p.buttonsHigh, p.buttonsLow, p.dpad, p.left.x, p.left.y, p.right.x, p.right.y, p.reserved]

/-- The report with these eight bytes; nothing for any other number of bytes. -/
def ofBytes? : List UInt8 → Option Packet
  | [b0, b1, b2, b3, b4, b5, b6, b7] => some ⟨b0, b1, b2, ⟨b3, b4⟩, ⟨b5, b6⟩, b7⟩
  | _ => none

/-- The number of bytes in a report. -/
def size : Nat := 8

@[simp] theorem length_toBytes (p : Packet) : p.toBytes.length = size := rfl

@[simp] theorem ofBytes?_toBytes (p : Packet) : ofBytes? p.toBytes = some p := rfl

theorem toBytes_of_ofBytes? {bs : List UInt8} {p : Packet} (h : ofBytes? bs = some p) :
    p.toBytes = bs := by
  unfold ofBytes? at h
  split at h
  · cases h; rfl
  · cases h

theorem ofBytes?_eq_none {bs : List UInt8} (h : bs.length ≠ size) : ofBytes? bs = none := by
  unfold ofBytes?
  split
  · exact absurd rfl h
  · rfl

theorem exists_toBytes_eq {bs : List UInt8} (h : bs.length = size) : ∃ p : Packet, p.toBytes = bs :=
  match bs, h with
  | [b0, b1, b2, b3, b4, b5, b6, b7], _ => ⟨⟨b0, b1, b2, ⟨b3, b4⟩, ⟨b5, b6⟩, b7⟩, rfl⟩

end Packet

end PadScript
