import PadScript.Json.Bracket
import PadScript.Proofs.Numeral
import PadScript.Proofs.Result
import PadScript.Proofs.Utf8

/-!
# Words of JSON, written and read

The words that JSON text is made of, as far as tables and recordings use them: brackets, commas,
colons, natural numbers and strings without escapes.

1. A natural number is read as itself from its decimal digits, if 64 bits hold it and nothing
   follows that could belong to it (`number_digits`).
2. A plain string is read as itself from between its quotes (`string_plain`).
-/

namespace PadScript.Json

/-! ## Words -/

/-- A word of JSON text. -/
inductive Word where
  | opening (bracket : Bracket)
  | closing (bracket : Bracket)
  | comma
  | colon
  | natural (n : Nat)
  | string (content : Text)
  deriving DecidableEq, Repr

namespace Word

/-- How a word is written. -/
def text : Word → Text
  | .opening .list => ['[']
  | .opening .object => ['\x7b']
  | .closing .list => [']']
  | .closing .object => ['\x7d']
  | .comma => [',']
  | .colon => [':']
  | .natural n => Text.ofNat n
  | .string content => '"' :: (content ++ ['"'])

/-- The bytes of a word. -/
def bytes (w : Word) : Bytes := Utf8.encode w.text

/-- Whether a word is a single character that belongs to no other word. -/
def isMark : Word → Bool
  | .natural _ | .string _ => false
  | _ => true

/-- Whether a value starts with the word. -/
def opensValue : Word → Bool
  | .opening _ | .natural _ | .string _ => true
  | _ => false

end Word

/-! ## Digits -/

/-- Nothing follows that could belong to a number. -/
def EndsNumber (rest : Bytes) : Prop :=
  ∀ b ∈ rest.head?, isDigit b = false ∧ b ≠ 0x2E ∧ isExponentMark b = false

theorem isDigit_iff {b : UInt8} : isDigit b = true ↔ 48 ≤ b.toNat ∧ b.toNat ≤ 57 := by
  unfold isDigit
  rw [Bool.and_eq_true, decide_eq_true_eq, decide_eq_true_eq, UInt8.le_iff_toNat_le,
    UInt8.le_iff_toNat_le]
  rfl

theorem isAscii_ofNat (n : Nat) : Utf8.IsAscii (Text.ofNat n) := fun c hc => by
  have := Text.toNat_of_mem_ofNat hc
  omega

theorem isDigit_of_mem_encode_ofNat {n : Nat} {b : UInt8} (h : b ∈ Utf8.encode (Text.ofNat n)) :
    isDigit b = true := by
  rw [Utf8.encode_of_ascii (isAscii_ofNat n)] at h
  obtain ⟨c, hc, rfl⟩ := List.mem_map.mp h
  rw [isDigit_iff, Utf8.toNat_asciiByte (isAscii_ofNat n c hc)]
  exact Text.toNat_of_mem_ofNat hc

theorem encode_ofNat_ne_nil (n : Nat) : Utf8.encode (Text.ofNat n) ≠ [] := by
  rw [Utf8.encode_of_ascii (isAscii_ofNat n), Ne, List.map_eq_nil_iff]
  exact Text.ofNat_ne_nil n

/-- A number starts with a digit. -/
theorem exists_digit (n : Nat) :
    ∃ b tail, Utf8.encode (Text.ofNat n) = b :: tail ∧ isDigit b = true := by
  obtain ⟨b, tail, hbytes⟩ := List.exists_cons_of_ne_nil (encode_ofNat_ne_nil n)
  refine ⟨b, tail, hbytes, isDigit_of_mem_encode_ofNat (n := n) ?_⟩
  rw [hbytes]
  exact List.mem_cons_self

theorem startsNumber_of_isDigit {b : UInt8} (h : isDigit b = true) : startsNumber b = true := by
  unfold startsNumber
  rw [h, Bool.or_true]

theorem decimalOf_append (digits : Bytes) (b : UInt8) :
    decimalOf (digits ++ [b]) = decimalOf digits * 10 + digitOf b := by
  unfold decimalOf
  rw [List.foldl_append]
  rfl

theorem encode_digitChar {d : Nat} (h : d < 10) :
    Utf8.encode [Nat.digitChar d] = [UInt8.ofNat (48 + d)] := by
  have hall : ∀ d < 10, Utf8.encode [Nat.digitChar d] = [UInt8.ofNat (48 + d)] := by decide
  exact hall d h

theorem digitOf_digit {d : Nat} (h : d < 10) : digitOf (UInt8.ofNat (48 + d)) = d := by
  have hall : ∀ d < 10, digitOf (UInt8.ofNat (48 + d)) = d := by decide
  exact hall d h

theorem decimalOf_encode_ofNat (n : Nat) : decimalOf (Utf8.encode (Text.ofNat n)) = n := by
  induction n using Nat.strongRecOn with
  | ind n ih =>
    rw [Text.ofNat_eq]
    split
    · rename_i h
      rw [encode_digitChar h]
      show 0 * 10 + digitOf (UInt8.ofNat (48 + n)) = n
      rw [digitOf_digit h, Nat.zero_mul, Nat.zero_add]
    · have hlast : n % 10 < 10 := Nat.mod_lt n (by decide)
      rw [Utf8.encode_append, encode_digitChar hlast, decimalOf_append, ih (n / 10) (by omega),
        digitOf_digit hlast, Nat.div_add_mod']

/-- Only zero is written with a zero in front. -/
theorem head?_encode_ofNat {n : Nat} (h : n ≠ 0) :
    (Utf8.encode (Text.ofNat n)).head? ≠ some 0x30 := by
  induction n using Nat.strongRecOn with
  | ind n ih =>
    rw [Text.ofNat_eq]
    split
    · rename_i hlt
      rw [encode_digitChar hlt]
      have hall : ∀ d < 10, d ≠ 0 → [UInt8.ofNat (48 + d)].head? ≠ some 0x30 := by decide
      exact hall n hlt h
    · rw [Utf8.encode_append, List.head?_append_of_ne_nil _ (encode_ofNat_ne_nil _)]
      exact ih (n / 10) (by omega) (by omega)

/-! ## Reading a number -/

theorem le_foldl_digits (digits : Bytes) (value : Nat) :
    value ≤ digits.foldl (fun n b => n * 10 + digitOf b) value := by
  induction digits generalizing value with
  | nil => exact Nat.le_refl value
  | cons b digits ih =>
    have := ih (value * 10 + digitOf b)
    rw [List.foldl_cons]
    omega

theorem takeInteger_eq {digits : Bytes} {value : Nat}
    (h : digits.foldl (fun n b => n * 10 + digitOf b) value ≤ greatestSignificand) :
    takeInteger digits (value, 0) = (digits.foldl (fun n b => n * 10 + digitOf b) value, 0) := by
  induction digits generalizing value with
  | nil => rfl
  | cons b digits ih =>
    -- the value only grows, so a value that fits at the end fits all along
    rw [List.foldl_cons] at h ⊢
    have hfits := (le_foldl_digits digits (value * 10 + digitOf b)).trans h
    rw [takeInteger, if_pos ⟨rfl, hfits⟩, ih h]

theorem numberTail_natural {rest : Bytes} (hrest : EndsNumber rest) (value : Nat) :
    numberTail false value 0 rest = .ok (.natural value, rest) := by
  cases rest with
  | nil => rfl
  | cons b tail =>
    obtain ⟨-, hpoint, hexponent⟩ := hrest b rfl
    rw [numberTail, if_neg hpoint, if_neg (by rw [hexponent]; exact Bool.false_ne_true)]
    rfl

theorem EndsNumber.dropWhile {rest : Bytes} (h : EndsNumber rest) :
    rest.dropWhile isDigit = rest ∧ rest.takeWhile isDigit = [] := by
  cases rest with
  | nil => exact ⟨rfl, rfl⟩
  | cons b tail =>
    have hb : ¬ isDigit b = true := by
      rw [(h b rfl).1]
      exact Bool.false_ne_true
    exact ⟨List.dropWhile_cons_of_neg hb, List.takeWhile_cons_of_neg hb⟩

/-- Digits have no sign in front. -/
theorem number_of_isDigit {d : UInt8} (h : isDigit d = true) (rest : Bytes) :
    number (d :: rest) = unsignedPart false (d :: rest) := by
  unfold number
  split
  · rename_i hminus
    rw [(List.cons.inj hminus).1] at h
    exact absurd h (by decide)
  · rfl

/-- Digits without a zero in front are read at their value. -/
theorem number_digits {d : UInt8} {digits rest : Bytes}
    (hdigits : ∀ b ∈ d :: digits, isDigit b = true) (hzero : d = 0x30 → digits = [])
    (hfits : decimalOf (d :: digits) ≤ greatestSignificand) (hrest : EndsNumber rest) :
    number (d :: digits ++ rest) = .ok (.natural (decimalOf (d :: digits)), rest) := by
  have hd : isDigit d = true := hdigits d List.mem_cons_self
  rw [List.cons_append, number_of_isDigit hd, unsignedPart]
  by_cases hlead : d = 0x30
  · obtain rfl := hzero hlead
    subst hlead
    have hstop : (rest.head?.map isDigit).getD false = false := by
      cases rest with
      | nil => rfl
      | cons b tail => exact (hrest b rfl).1
    rw [if_pos rfl, List.nil_append, hstop, if_neg Bool.false_ne_true]
    exact numberTail_natural hrest 0
  · have hmore : ∀ b ∈ digits, isDigit b = true := fun b hb =>
      hdigits b (List.mem_cons_of_mem _ hb)
    rw [if_neg hlead, if_pos hd, List.takeWhile_append_of_pos hmore,
      List.dropWhile_append_of_pos hmore, hrest.dropWhile.1, hrest.dropWhile.2, List.append_nil,
      takeInteger_eq hfits]
    exact numberTail_natural hrest _

theorem number_natural {n : Nat} (hn : n ≤ greatestSignificand) {rest : Bytes}
    (hrest : EndsNumber rest) :
    number (Utf8.encode (Text.ofNat n) ++ rest) = .ok (.natural n, rest) := by
  have hvalue := decimalOf_encode_ofNat n
  have hdigits : ∀ b ∈ Utf8.encode (Text.ofNat n), isDigit b = true := fun b =>
    isDigit_of_mem_encode_ofNat
  cases hbytes : Utf8.encode (Text.ofNat n) with
  | nil => exact absurd hbytes (encode_ofNat_ne_nil n)
  | cons d digits =>
    rw [hbytes] at hvalue hdigits
    have hzero : d = 0x30 → digits = [] := by
      rintro rfl
      by_cases hn : n = 0
      · subst hn
        have : Utf8.encode (Text.ofNat 0) = [0x30] := by decide
        rw [hbytes] at this
        exact (List.cons.inj this).2
      · exact absurd (by rw [hbytes]; rfl) (head?_encode_ofNat hn)
    rw [number_digits hdigits hzero (by rwa [hvalue]) hrest, hvalue]

/-! ## Reading a string -/

/-- The characters that stand for themselves in a string: visible ASCII and the space, other than
quotes and backslashes. -/
def isPlain (c : Char) : Bool := (0x20 ≤ c.toNat && c.toNat ≤ 0x7E) && c ≠ '"' && c ≠ '\\'

/-- The text stands for itself in a string. -/
def Plain (s : Text) : Prop := ∀ c ∈ s, isPlain c = true

instance (s : Text) : Decidable (Plain s) := List.decidableBAll _ s

theorem Plain.isAscii {s : Text} (h : Plain s) : Utf8.IsAscii s := by
  intro c hc
  have hplain := h c hc
  unfold isPlain at hplain
  simp only [Bool.and_eq_true, decide_eq_true_eq] at hplain
  omega

theorem isPlain_asciiByte {c : Char} (h : isPlain c = true) :
    Utf8.asciiByte c ≠ 0x22 ∧ Utf8.asciiByte c ≠ 0x5C ∧ ¬ Utf8.asciiByte c < 0x20 := by
  have hall : ∀ n < 128, isPlain (Char.ofNat n) = true →
      Utf8.asciiByte (Char.ofNat n) ≠ 0x22 ∧ Utf8.asciiByte (Char.ofNat n) ≠ 0x5C ∧
        ¬ Utf8.asciiByte (Char.ofNat n) < 0x20 := by decide
  have hc := hall c.toNat (Plain.isAscii (s := [c]) (by simpa [Plain] using h) c (by simp))
  rw [Char.ofNat_toNat] at hc
  exact hc h

theorem stringContent_plain {s : Text} (h : Plain s) (rest : Bytes) :
    stringContent (Utf8.encode s ++ 0x22 :: rest) = .ok (Utf8.encode s, rest) := by
  induction s with
  | nil => rw [Utf8.encode_nil, List.nil_append, stringContent.eq_def]; rfl
  | cons c s ih =>
    have hascii := h.isAscii c List.mem_cons_self
    obtain ⟨hquote, hbackslash, hcontrol⟩ := isPlain_asciiByte (h c List.mem_cons_self)
    have hrest := ih fun d hd => h d (List.mem_cons_of_mem _ hd)
    rw [Utf8.encode_cons_of_ascii hascii, List.cons_append, stringContent.eq_def]
    simp only
    rw [if_neg hquote, if_neg hbackslash, if_neg hcontrol, hrest]
    rfl

theorem string_plain {s : Text} (h : Plain s) (rest : Bytes) :
    string (Utf8.encode s ++ 0x22 :: rest) = .ok (s, rest) := by
  unfold string
  rw [stringContent_plain h]
  simp only [bind, Except.bind, Utf8.decode_encode_of_ascii h.isAscii]

end PadScript.Json
