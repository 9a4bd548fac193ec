import PadScript.Text.Utf8

/-!
# ASCII text as bytes

An ASCII character is one byte, with its own number, so ASCII text has as many bytes as characters
and is read back from them.
-/

namespace PadScript.Utf8

@[simp] theorem encode_nil : encode [] = [] := rfl

@[simp] theorem encode_append (s t : Text) : encode (s ++ t) = encode s ++ encode t :=
  List.flatMap_append

/-- The byte of an ASCII character. -/
def asciiByte (c : Char) : UInt8 := UInt8.ofNat c.toNat

/-- The text holds ASCII characters only. -/
def IsAscii (s : Text) : Prop := ∀ c ∈ s, c.toNat < 128

theorem toNat_asciiByte {c : Char} (h : c.toNat < 128) : (asciiByte c).toNat = c.toNat :=
  UInt8.toNat_ofNat_of_lt' (Nat.lt_trans h (by decide))

theorem encodeChar_of_ascii {c : Char} (h : c.toNat < 128) :
    String.utf8EncodeChar c = [asciiByte c] :=
  if_pos (Nat.le_of_lt_succ h)

theorem encode_cons_of_ascii {c : Char} (h : c.toNat < 128) (s : Text) :
    encode (c :: s) = asciiByte c :: encode s := by
  unfold encode
  rw [List.flatMap_cons, encodeChar_of_ascii h, List.singleton_append]

theorem encode_of_ascii {s : Text} (h : IsAscii s) : encode s = s.map asciiByte := by
  induction s with
  | nil => rfl
  | cons c s ih =>
    rw [encode_cons_of_ascii (h c List.mem_cons_self),
      ih fun d hd => h d (List.mem_cons_of_mem _ hd), List.map_cons]

theorem decode_cons_of_ascii {b : UInt8} (h : b < 0x80) (rest : Bytes) :
    decode (b :: rest) = (decode rest).map (Char.ofNat b.toNat :: ·) := by
  rw [decode.eq_def]
  exact if_pos h

theorem decode_encode_of_ascii {s : Text} (h : IsAscii s) : decode (encode s) = some s := by
  induction s with
  | nil => rfl
  | cons c s ih =>
    have hc := h c List.mem_cons_self
    have hbyte : asciiByte c < 0x80 := by
      rw [UInt8.lt_iff_toNat_lt, toNat_asciiByte hc]
      exact hc
    rw [encode_cons_of_ascii hc, decode_cons_of_ascii hbyte,
      ih fun d hd => h d (List.mem_cons_of_mem _ hd), Option.map_some, toNat_asciiByte hc,
      Char.ofNat_toNat]

end PadScript.Utf8
