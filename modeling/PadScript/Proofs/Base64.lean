import PadScript.Base64
import PadScript.Proofs.Json.Word
import PadScript.Proofs.Text

/-!
# Base64, written and read

`encode` writes bytes in groups of three as four symbols each, and pads a shorter last group.

1. The six-bit values of a group give its bytes back (`lastGroup_groupText`), so decoding inverts
   encoding (`decode_encode`).
2. The text holds symbols that stand for themselves in a JSON string, and no blanks.
-/

namespace PadScript.Base64

/-! ## Writing -/

/-- The symbols, in the order of their values. -/
def alphabet : Text :=
  "ABCDEFGHIJKLMNOPQRSTUVWXYZ".toList ++ "abcdefghijklmnopqrstuvwxyz".toList ++
    "0123456789+/".toList

/-- The symbol of six bits. -/
def symbol (v : Nat) : Char := alphabet.getD v '='

/-- The values of the symbols of one, two or three bytes; bits that are missing are zero. -/
def sextets : Bytes → List Nat
  | [a] => [a.toNat / 4, a.toNat % 4 * 16]
  | [a, b] => [a.toNat / 4, a.toNat % 4 * 16 + b.toNat / 16, b.toNat % 16 * 4]
  | [a, b, c] =>
    [a.toNat / 4, a.toNat % 4 * 16 + b.toNat / 16, b.toNat % 16 * 4 + c.toNat / 64, c.toNat % 64]
  | _ => []

/-- The four symbols of one, two or three bytes. -/
def groupText (group : Bytes) : Text :=
  (sextets group).map symbol ++ List.replicate (3 - group.length) '='

/-- The base64 text of bytes. -/
def encode : Bytes → Text
  | [] => []
  | [a] => groupText [a]
  | [a, b] => groupText [a, b]
  | a :: b :: c :: rest => groupText [a, b, c] ++ encode rest

/-! ## Symbols -/

theorem lt_of_mem_sextets {group : Bytes} {v : Nat} (h : v ∈ sextets group) : v < 64 := by
  unfold sextets at h
  split at h
  · rename_i a
    have ha := a.toNat_lt
    simp only [List.mem_cons, List.not_mem_nil, or_false] at h
    omega
  · rename_i a b
    have ha := a.toNat_lt
    have hb := b.toNat_lt
    simp only [List.mem_cons, List.not_mem_nil, or_false] at h
    omega
  · rename_i a b c
    have ha := a.toNat_lt
    have hb := b.toNat_lt
    have hc := c.toNat_lt
    simp only [List.mem_cons, List.not_mem_nil, or_false] at h
    omega
  · exact absurd h List.not_mem_nil

/-- The character is a symbol of the alphabet or of padding. -/
def IsSymbol (c : Char) : Prop := c ∈ '=' :: alphabet

theorem IsSymbol.isPlain {c : Char} (h : IsSymbol c) : Json.isPlain c = true := by
  have hall : ('=' :: alphabet).all Json.isPlain = true := by decide +kernel
  exact List.all_eq_true.mp hall c h

theorem IsSymbol.isBlank {c : Char} (h : IsSymbol c) : Text.isBlank c = false := by
  have hall : ('=' :: alphabet).any Text.isBlank = false := by decide +kernel
  exact Bool.not_eq_true _ ▸ List.any_eq_false.mp hall c h

theorem isSymbol_of_mem_groupText {group : Bytes} {c : Char} (h : c ∈ groupText group) :
    IsSymbol c := by
  rcases List.mem_append.mp h with h | h
  · obtain ⟨v, hv, rfl⟩ := List.mem_map.mp h
    have hlt : v < alphabet.length := lt_of_mem_sextets hv
    unfold symbol
    rw [List.getD_eq_getElem?_getD, List.getElem?_eq_getElem hlt]
    exact List.mem_cons_of_mem _ (List.getElem_mem hlt)
  · rw [List.eq_of_mem_replicate h]
    exact List.mem_cons_self

theorem isSymbol_of_mem_encode {content : Bytes} {c : Char} (h : c ∈ encode content) :
    IsSymbol c := by
  fun_induction encode content with
  | case1 => exact absurd h List.not_mem_nil
  | case2 a => exact isSymbol_of_mem_groupText h
  | case3 a b => exact isSymbol_of_mem_groupText h
  | case4 a b d rest ih =>
    rcases List.mem_append.mp h with h | h
    · exact isSymbol_of_mem_groupText h
    · exact ih h

/-- The byte of the symbol of six bits. -/
def symbolByte (v : Nat) : UInt8 := Utf8.asciiByte (symbol v)

theorem symbolByte_ne_padding {v : Nat} (h : v < 64) : symbolByte v ≠ padding := by
  have hall : ∀ v < 64, symbolByte v ≠ padding := by decide +kernel
  exact hall v h

theorem symbolAt_symbolByte (offset : Nat) {v : Nat} (h : v < 64) :
    symbolAt offset (symbolByte v) = .ok v := by
  have hall : ∀ v < 64, symbolValue? (symbolByte v) = some v := by decide +kernel
  unfold symbolAt
  rw [hall v h]

/-- The bytes of the four symbols. -/
theorem encode_groupText (group : Bytes) : Utf8.encode (groupText group) =
    (sextets group).map symbolByte ++ List.replicate (3 - group.length) padding := by
  have hascii : Utf8.IsAscii (groupText group) := by
    have hplain : Json.Plain (groupText group) := fun c hc =>
      (isSymbol_of_mem_groupText hc).isPlain
    exact hplain.isAscii
  rw [Utf8.encode_of_ascii hascii, groupText, List.map_append, List.map_map, List.map_replicate]
  rfl

/-! ## Reading -/

theorem lastSymbols_padding (offset : Nat) {index : Nat} (h : 2 ≤ index) (pad : Option Nat)
    (count : Nat) :
    lastSymbols offset index pad (List.replicate count padding) = .ok ([], count) := by
  induction count generalizing index pad with
  | zero => rfl
  | succ count ih =>
    rw [List.replicate_succ, lastSymbols.eq_def]
    simp only
    rw [if_pos trivial, if_neg (by omega), ih (by omega)]
    rfl

theorem lastSymbols_symbols (offset : Nat) {index count : Nat} {values : List Nat}
    (hvalues : ∀ v ∈ values, v < 64) (h : 2 ≤ index + values.length) :
    lastSymbols offset index none (values.map symbolByte ++ List.replicate count padding) =
      .ok (values, count) := by
  induction values generalizing index with
  | nil => exact lastSymbols_padding offset h none count
  | cons v values ih =>
    have hv := hvalues v List.mem_cons_self
    rw [List.length_cons] at h
    have hrest := ih (fun u hu => hvalues u (List.mem_cons_of_mem _ hu))
      (show 2 ≤ index + 1 + values.length by omega)
    rw [List.map_cons, List.cons_append, lastSymbols, if_neg (symbolByte_ne_padding hv)]
    simp only
    rw [symbolAt_symbolByte _ hv]
    show (lastSymbols offset (index + 1) none _ >>= _) = _
    rw [hrest]
    rfl

theorem groupBytes_sextets (a b c : UInt8) :
    groupBytes (a.toNat / 4) (a.toNat % 4 * 16 + b.toNat / 16) (b.toNat % 16 * 4 + c.toNat / 64)
      (c.toNat % 64) = [a, b, c] := by
  have ha := a.toNat_lt
  have hb := b.toNat_lt
  have hc := c.toNat_lt
  unfold groupBytes
  rw [show a.toNat / 4 * 4 + (a.toNat % 4 * 16 + b.toNat / 16) / 16 = a.toNat by omega,
    show (a.toNat % 4 * 16 + b.toNat / 16) % 16 * 16 + (b.toNat % 16 * 4 + c.toNat / 64) / 4 =
      b.toNat by omega,
    show (b.toNat % 16 * 4 + c.toNat / 64) % 4 * 64 + c.toNat % 64 = c.toNat by omega,
    UInt8.ofNat_toNat, UInt8.ofNat_toNat, UInt8.ofNat_toNat]

/-- The bytes of the last group are read back from its symbols. -/
theorem lastGroup_groupText (offset : Nat) {group : Bytes} (hpos : 0 < group.length)
    (hle : group.length ≤ 3) :
    lastGroup offset (Utf8.encode (groupText group)) = .ok group := by
  have hsymbols (h : 2 ≤ (sextets group).length) :
      lastSymbols offset 0 none (Utf8.encode (groupText group)) =
        .ok (sextets group, 3 - group.length) := by
    rw [encode_groupText]
    exact lastSymbols_symbols offset (fun v => lt_of_mem_sextets) (by omega)
  unfold lastGroup
  match group with
  | [a] =>
    have ha := a.toNat_lt
    rw [hsymbols (by simp [sextets])]
    show (if a.toNat % 4 * 16 % 16 = 0 then _ else _) = _
    rw [if_pos (by omega), show a.toNat / 4 * 4 + a.toNat % 4 * 16 / 16 = a.toNat by omega,
      UInt8.ofNat_toNat]
    rfl
  | [a, b] =>
    rw [hsymbols (by simp [sextets])]
    have hgroup := groupBytes_sextets a b 0
    rw [show UInt8.toNat 0 = 0 from rfl, Nat.zero_div, Nat.zero_mod, Nat.add_zero] at hgroup
    show (if b.toNat % 16 * 4 % 4 = 0 then _ else _) = _
    rw [if_pos (by omega), hgroup]
    rfl
  | [a, b, c] =>
    rw [hsymbols (by simp [sextets])]
    exact congrArg Except.ok (groupBytes_sextets a b c)

/-- A text of one group is its last. -/
theorem groups_groupText (offset : Nat) {group : Bytes} (hpos : 0 < group.length)
    (hle : group.length ≤ 3) :
    groups offset (Utf8.encode (groupText group)) = .ok group := by
  rw [← lastGroup_groupText offset hpos hle, encode_groupText]
  match group with
  | [a] => rfl
  | [a, b] => rfl
  | [a, b, c] => rfl

/-- A group of three bytes is read before the groups that follow it. -/
theorem groups_groupText_append (offset : Nat) (a b c : UInt8) {rest : Bytes} (hrest : rest ≠ []) :
    groups offset (Utf8.encode (groupText [a, b, c]) ++ rest) =
      groups (offset + 4) rest >>= fun more => .ok ([a, b, c] ++ more) := by
  have hsymbol {v : Nat} (hv : v ∈ sextets [a, b, c]) (place : Nat) :
      symbolAt place (symbolByte v) = .ok v := symbolAt_symbolByte place (lt_of_mem_sextets hv)
  obtain ⟨e, tail, rfl⟩ := List.exists_cons_of_ne_nil hrest
  rw [encode_groupText]
  show groups offset (symbolByte _ :: symbolByte _ :: symbolByte _ :: symbolByte _ :: e :: tail) = _
  rw [groups, hsymbol (by simp [sextets]), hsymbol (by simp [sextets]),
    hsymbol (by simp [sextets]), hsymbol (by simp [sextets]), ← groupBytes_sextets a b c]
  rfl

theorem length_groupText (group : Bytes) (hpos : 0 < group.length) (hle : group.length ≤ 3) :
    (Utf8.encode (groupText group)).length = 4 := by
  rw [encode_groupText]
  match group with
  | [a] => rfl
  | [a, b] => rfl
  | [a, b, c] => rfl

theorem length_encode (content : Bytes) :
    (Utf8.encode (encode content)).length = (content.length + 2) / 3 * 4 := by
  fun_induction encode content with
  | case1 => rfl
  | case2 a => simp [length_groupText [a]]
  | case3 a b => simp [length_groupText [a, b]]
  | case4 a b c rest ih =>
    rw [Utf8.encode_append, List.length_append, length_groupText [a, b, c] (by simp) (by simp), ih,
      List.length_cons, List.length_cons, List.length_cons]
    omega

theorem groups_encode (offset : Nat) (content : Bytes) :
    groups offset (Utf8.encode (encode content)) = .ok content := by
  fun_induction encode content generalizing offset with
  | case1 => rfl
  | case2 a => exact groups_groupText offset (by simp) (by simp)
  | case3 a b => exact groups_groupText offset (by simp) (by simp)
  | case4 a b c rest ih =>
    rw [Utf8.encode_append]
    cases hrest : rest with
    | nil =>
      rw [show encode [] = [] from rfl, Utf8.encode_nil, List.append_nil]
      exact groups_groupText offset (by simp) (by simp)
    | cons d tail =>
      have hne : Utf8.encode (encode (d :: tail)) ≠ [] := by
        intro hnil
        have hlength := length_encode (d :: tail)
        rw [hnil, List.length_nil, List.length_cons] at hlength
        omega
      rw [groups_groupText_append offset a b c hne, ← hrest, ih]
      rfl

/-- Decoding inverts encoding. -/
theorem decode_encode (content : Bytes) :
    decode (Utf8.encode (encode content)) = .ok content := by
  have hlength : (Utf8.encode (encode content)).length % 4 = 0 := by
    rw [length_encode, Nat.mul_mod_left]
  unfold decode
  split
  · rw [if_neg (by omega)]
    exact groups_encode 0 content
  · rename_i hlast
    rw [List.getLast?_eq_none_iff] at hlast
    have hgroups := groups_encode 0 content
    rw [hlast] at hgroups
    exact hgroups

end PadScript.Base64
