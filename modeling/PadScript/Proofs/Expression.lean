import Mathlib.Algebra.GroupWithZero.Nat
import PadScript.Expression
import PadScript.Proofs.Result

/-!
# Reports of expressions

Every report that an expression stands for is legal: it uses the fourteen buttons only, its
direction is one of the nine, and its reserved byte is zero.
-/

namespace PadScript

/-- A report that a controller can send. -/
structure Packet.Legal (p : Packet) : Prop where
  buttons : p.buttons.toNat < 2 ^ 14
  dpad : p.dpad ≤ 8
  reserved : p.reserved = 0

instance (p : Packet) : Decidable p.Legal :=
  decidable_of_iff (p.buttons.toNat < 2 ^ 14 ∧ p.dpad ≤ 8 ∧ p.reserved = 0)
    ⟨fun ⟨hb, hd, hr⟩ => ⟨hb, hd, hr⟩, fun h => ⟨h.buttons, h.dpad, h.reserved⟩⟩

theorem Packet.legal_neutral : Packet.neutral.Legal := ⟨by decide, by decide, rfl⟩

theorem Direction.value_le (d : Direction) : d.value ≤ 8 := by
  cases d <;> decide

/-! ## Symbols -/

theorem Symbol.mem_of_find {α : Type} {table : List (Text × α)} {name : Text} {entry : α}
    (h : Symbol.find table name = some entry) : ∃ key, (key, entry) ∈ table := by
  obtain ⟨⟨key, value⟩, hfind, rfl⟩ := Option.map_eq_some_iff.mp h
  exact ⟨key, List.mem_of_find?_eq_some hfind⟩

theorem Symbol.bit_lt_of_mem_buttons {entry : Text × Nat} (h : entry ∈ Symbol.buttons) :
    entry.2 < 14 := by
  have hall : ∀ bit ∈ Symbol.buttons.map Prod.snd, bit < 14 := by decide
  exact hall entry.2 (List.mem_map_of_mem h)

theorem Symbol.bit_lt_of_lookup {name : Text} {bit : Nat}
    (h : Symbol.lookup name = some (.button bit)) : bit < 14 := by
  unfold Symbol.lookup at h
  split at h
  · rename_i bit' hfind
    cases h
    obtain ⟨key, hmem⟩ := Symbol.mem_of_find hfind
    exact Symbol.bit_lt_of_mem_buttons hmem
  · split at h
    · cases h
    · unfold Symbol.findCardinal at h
      simp only [bind, pure, Option.bind_eq_some_iff, Option.some_inj] at h
      obtain ⟨_, _, _, _, h⟩ := h
      cases h

theorem Token.lookup_of_classify {token : Text} {s : Symbol}
    (h : Token.classify token = .ok (.symbol s)) : Symbol.lookup token = some s := by
  unfold Token.classify at h
  split at h
  · simp only [bind_eq_ok_iff] at h
    obtain ⟨_, _, _, _, h⟩ := h
    cases h
  · split at h
    · rename_i hlookup
      cases h
      exact hlookup
    · cases h

theorem or_shiftLeft_lt {mask : UInt16} (hmask : mask.toNat < 2 ^ 14) {bit : Nat}
    (hbit : bit < 14) : (mask ||| (1 <<< UInt16.ofNat bit)).toNat < 2 ^ 14 := by
  have hshift : ∀ b < 14, (1 <<< UInt16.ofNat b : UInt16).toNat < 2 ^ 14 := by decide
  rw [UInt16.toNat_or]
  exact Nat.or_lt_two_pow hmask (hshift bit hbit)

/-! ## Held inputs -/

namespace Held

theorem moveStick_buttons (h : Held) (stick : Stick) (position : StickPosition) :
    (h.moveStick stick position).buttons = h.buttons := by
  cases stick <;> rfl

theorem addSymbol_buttons_lt {h : Held} (hh : h.buttons.toNat < 2 ^ 14) {s : Symbol}
    (hs : ∀ bit, s = .button bit → bit < 14) : (h.addSymbol s).buttons.toNat < 2 ^ 14 := by
  cases s with
  | button bit => exact or_shiftLeft_lt hh (hs bit rfl)
  | direction d => exact hh
  | cardinal stick position =>
    show (h.moveStick stick position).buttons.toNat < 2 ^ 14
    rwa [moveStick_buttons]

theorem add_buttons_lt {expression token : Text} {h h' : Held} (hh : h.buttons.toNat < 2 ^ 14)
    (hadd : Held.add expression h token = .ok h') : h'.buttons.toNat < 2 ^ 14 := by
  unfold Held.add at hadd
  obtain ⟨t, ht, hadd⟩ := bind_eq_ok_iff.mp hadd
  cases t with
  | symbol s =>
    cases hadd
    apply addSymbol_buttons_lt hh
    rintro bit rfl
    exact Symbol.bit_lt_of_lookup (Token.lookup_of_classify ht)
  | coordinate stick position =>
    cases hadd
    rwa [moveStick_buttons]
  | unknown name => cases hadd

theorem foldlM_add_buttons_lt {expression : Text} {tokens : List Text} {h h' : Held}
    (hh : h.buttons.toNat < 2 ^ 14)
    (hfold : tokens.foldlM (Held.add expression) h = .ok h') : h'.buttons.toNat < 2 ^ 14 := by
  induction tokens generalizing h with
  | nil => cases hfold; exact hh
  | cons token tokens ih =>
    rw [List.foldlM_cons] at hfold
    obtain ⟨next, hadd, hrest⟩ := bind_eq_ok_iff.mp hfold
    exact ih (add_buttons_lt hh hadd) hrest

theorem legal_packet {h : Held} (hh : h.buttons.toNat < 2 ^ 14) : h.packet.Legal where
  buttons := by
    show (Packet.ofParts h.buttons h.direction.value h.left h.right).buttons.toNat < 2 ^ 14
    rwa [Packet.buttons_ofParts]
  dpad := h.direction.value_le
  reserved := rfl

end Held

theorem Expression.legal_of_encode {expression : Text} {p : Packet}
    (h : Expression.encode expression = .ok p) : p.Legal := by
  unfold Expression.encode at h
  simp only at h
  split at h
  · cases h
    exact Packet.legal_neutral
  · obtain ⟨held, hfold, hp⟩ := bind_eq_ok_iff.mp h
    cases hp
    have hnothing : Held.nothing.buttons.toNat < 2 ^ 14 := by decide
    exact Held.legal_packet (Held.foldlM_add_buttons_lt hnothing hfold)

end PadScript
