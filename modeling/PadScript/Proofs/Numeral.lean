import Mathlib.Data.List.Forall2
import Mathlib.Data.Nat.Digits.Defs
import Mathlib.Tactic.Ring
import PadScript.Proofs.Text
import PadScript.Text.Numeral

/-!
# Numerals and their values

The decimal digits of a number are one digit or more, all of them decimal. They are the digits of a
tenth of it and its last digit (`ofNat_eq`), so reading them gives the number again.

What is read as a numeral is decimal digits, or `0x` and hexadecimal digits, however many, and it is
read at its positional value (`numeral_eq_some_iff`).

Digits that are gathered in a word of 64 bits overflow it at some digit exactly if the whole number
does not fit (`foldlM_pushDigit`), because a number never gets smaller by a further digit. So a
numeral is read in such a word as at its full value, if that fits (`wordNumeral_eq`).
-/

namespace PadScript.Text

theorem ofNat_eq (n : Nat) :
    ofNat n = if n < 10 then [Nat.digitChar n] else ofNat (n / 10) ++ [Nat.digitChar (n % 10)] :=
  Nat.toDigits_eq_if (by decide)

theorem ofNat_ne_nil (n : Nat) : ofNat n ≠ [] := Nat.toDigits_ne_nil

theorem toNat_of_mem_ofNat {n : Nat} {c : Char} (h : c ∈ ofNat n) :
    48 ≤ c.toNat ∧ c.toNat ≤ 57 := by
  have hdigit : c.isDigit = true := Nat.isDigit_of_mem_toDigits (by decide) (by decide) h
  unfold Char.isDigit at hdigit
  rw [Bool.and_eq_true, decide_eq_true_eq, decide_eq_true_eq, ge_iff_le,
    UInt32.le_iff_toNat_le, UInt32.le_iff_toNat_le] at hdigit
  exact hdigit

theorem not_mem_ofNat {c : Char} (hc : ¬ (48 ≤ c.toNat ∧ c.toNat ≤ 57)) (n : Nat) :
    c ∉ ofNat n := fun h => hc (toNat_of_mem_ofNat h)

/-! ## Reading -/

theorem digit?_digitChar {d : Nat} (h : d < 10) : digit? 10 (Nat.digitChar d) = some d := by
  have hall : ∀ d < 10, digit? 10 (Nat.digitChar d) = some d := by decide
  exact hall d h

theorem readDigits_append (base acc : Nat) (s t : Text) :
    readDigits base acc (s ++ t) = (readDigits base acc s).bind fun n => readDigits base n t := by
  induction s generalizing acc with
  | nil => rfl
  | cons c s ih =>
    rw [List.cons_append, readDigits, readDigits]
    cases digit? base c with
    | none => rfl
    | some d => exact ih _

theorem readDigits_ofNat (n : Nat) : readDigits 10 0 (ofNat n) = some n := by
  induction n using Nat.strongRecOn with
  | ind n ih =>
    rw [ofNat_eq]
    split
    · rename_i h
      rw [readDigits, digit?_digitChar h]
      show some (0 * 10 + n) = some n
      rw [Nat.zero_mul, Nat.zero_add]
    · rename_i h
      have hlast : n % 10 < 10 := Nat.mod_lt n (by decide)
      rw [readDigits_append, ih (n / 10) (by omega), Option.bind_some, readDigits,
        digit?_digitChar hlast]
      show some (n / 10 * 10 + n % 10) = some n
      rw [Nat.div_add_mod']

theorem readNat_ofNat (n : Nat) : readNat 10 (ofNat n) = some n := by
  unfold readNat
  rw [List.isEmpty_eq_false_iff.mpr (ofNat_ne_nil n), if_neg Bool.false_ne_true, readDigits_ofNat]

@[simp] theorem numeral_ofNat (n : Nat) : numeral (ofNat n) = some n := by
  unfold numeral
  split
  · rename_i digits h
    exact absurd (by rw [h]; simp) (not_mem_ofNat (c := 'x') (by decide) n)
  · rename_i digits h
    exact absurd (by rw [h]; simp) (not_mem_ofNat (c := 'X') (by decide) n)
  · exact readNat_ofNat n

/-! ## Values of numerals -/

/-- The digits in the order of their values, in either case. -/
def digitSigns : List Text := ["0123456789abcdef".toList, "0123456789ABCDEF".toList]

/-- The character is the digit `d` of the base. -/
def IsDigit (base : Nat) (c : Char) (d : Nat) : Prop :=
  d < base ∧ ∃ signs ∈ digitSigns, signs[d]? = some c

/-- One digit or more, the first one counting most. -/
def IsDigits (base : Nat) (s : Text) (n : Nat) : Prop :=
  s ≠ [] ∧ ∃ ds, List.Forall₂ (IsDigit base) s ds ∧ n = Nat.ofDigits base ds.reverse

/-- Decimal digits, or `0x` or `0X` and hexadecimal digits, and their value. -/
inductive IsNumeral : Text → Nat → Prop
  | decimal {s : Text} {n : Nat} : IsDigits 10 s n → IsNumeral s n
  | hexadecimal {x : Char} {s : Text} {n : Nat} :
      x = 'x' ∨ x = 'X' → IsDigits 16 s n → IsNumeral ('0' :: x :: s) n

theorem digitValue_eq_some_iff {c : Char} {d : Nat} :
    digitValue c = some d ↔ ∃ signs ∈ digitSigns, signs[d]? = some c := by
  constructor
  · intro h
    have hall : ∀ n < 128, ((digitValue (Char.ofNat n)).all fun d =>
        digitSigns.any fun signs => signs[d]? == some (Char.ofNat n)) = true := by decide
    have hascii : c.toNat < 128 := by
      by_contra hc
      unfold digitValue at h
      simp only at h
      rw [if_neg (by omega), if_neg (by omega), if_neg (by omega)] at h
      cases h
    have hc := hall c.toNat hascii
    rw [Char.ofNat_toNat, h] at hc
    simpa using hc
  · rintro ⟨signs, hsigns, hd⟩
    have hall : ∀ signs ∈ digitSigns, ∀ d < signs.length,
        digitValue (signs.getD d ' ') = some d := by decide
    obtain ⟨hlt, -⟩ := List.getElem?_eq_some_iff.mp hd
    have hvalue := hall signs hsigns d hlt
    rwa [List.getD_eq_getElem?_getD, hd] at hvalue

theorem digit?_eq_some_iff {base d : Nat} {c : Char} :
    digit? base c = some d ↔ IsDigit base c d := by
  unfold digit? IsDigit
  rw [Option.filter_eq_some_iff, digitValue_eq_some_iff, decide_eq_true_eq]
  exact and_comm

theorem positional_cons (base acc d : Nat) (ds : List Nat) :
    acc * base ^ (d :: ds).length + Nat.ofDigits base (d :: ds).reverse =
      (acc * base + d) * base ^ ds.length + Nat.ofDigits base ds.reverse := by
  rw [List.reverse_cons, Nat.ofDigits_append, Nat.ofDigits_singleton, List.length_reverse,
    List.length_cons]
  ring

theorem readDigits_eq_some_iff {base acc n : Nat} {s : Text} :
    readDigits base acc s = some n ↔ ∃ ds, List.Forall₂ (IsDigit base) s ds ∧
      n = acc * base ^ ds.length + Nat.ofDigits base ds.reverse := by
  induction s generalizing acc with
  | nil =>
    simp only [readDigits, List.forall₂_nil_left_iff, exists_eq_left, List.length_nil,
      List.reverse_nil, Nat.ofDigits_nil, pow_zero, mul_one, add_zero, Option.some_inj]
    exact eq_comm
  | cons c s ih =>
    rw [readDigits]
    constructor
    · intro h
      split at h
      · rename_i d hd
        obtain ⟨ds, hds, rfl⟩ := ih.mp h
        exact ⟨d :: ds, .cons (digit?_eq_some_iff.mp hd) hds, (positional_cons ..).symm⟩
      · cases h
    · rintro ⟨_, hds, rfl⟩
      cases hds with
      | @cons _ d _ ds hd hds =>
        rw [digit?_eq_some_iff.mpr hd]
        exact ih.mpr ⟨ds, hds, positional_cons ..⟩

theorem readNat_eq_some_iff {base n : Nat} {s : Text} :
    readNat base s = some n ↔ IsDigits base s n := by
  unfold readNat IsDigits
  cases s with
  | nil => simp
  | cons c s => simp [readDigits_eq_some_iff]

/-- The second character of decimal digits is no letter. -/
theorem not_isDigits_letter {x : Char} (hx : digit? 10 x = none) {s : Text} {n : Nat} :
    ¬ IsDigits 10 ('0' :: x :: s) n := by
  rintro ⟨-, ds, hds, -⟩
  obtain ⟨d, ds', -, hrest, rfl⟩ := List.forall₂_cons_left_iff.mp hds
  obtain ⟨d', -, hd', -⟩ := List.forall₂_cons_left_iff.mp hrest
  rw [digit?_eq_some_iff.mpr hd'] at hx
  cases hx

theorem numeral_eq_some_iff {s : Text} {n : Nat} : numeral s = some n ↔ IsNumeral s n := by
  constructor
  · intro h
    unfold numeral at h
    split at h
    · exact .hexadecimal (.inl rfl) (readNat_eq_some_iff.mp h)
    · exact .hexadecimal (.inr rfl) (readNat_eq_some_iff.mp h)
    · exact .decimal (readNat_eq_some_iff.mp h)
  · intro h
    cases h with
    | hexadecimal hx h => rcases hx with rfl | rfl <;> exact readNat_eq_some_iff.mpr h
    | decimal h =>
      unfold numeral
      split
      · exact absurd h (not_isDigits_letter (by decide))
      · exact absurd h (not_isDigits_letter (by decide))
      · exact readNat_eq_some_iff.mpr h

theorem IsNumeral.unique {s : Text} {n m : Nat} (h : IsNumeral s n) (h' : IsNumeral s m) :
    n = m := by
  rw [← numeral_eq_some_iff] at h h'
  exact Option.some.inj (h.symm.trans h')

/-- The characters that numerals are made of. -/
def numeralSigns : Text := digitSigns.flatten ++ ['x', 'X']

theorem IsDigits.mem_numeralSigns {base n : Nat} {s : Text} (h : IsDigits base s n) :
    ∀ c ∈ s, c ∈ numeralSigns := by
  obtain ⟨-, ds, hds, -⟩ := h
  induction hds with
  | nil => exact fun c hc => absurd hc List.not_mem_nil
  | cons hd _ ih =>
    obtain ⟨-, signs, hsigns, hsign⟩ := hd
    have hmem := List.mem_flatten.mpr ⟨signs, hsigns, List.mem_of_getElem? hsign⟩
    exact List.forall_mem_cons.mpr ⟨List.mem_append_left _ hmem, ih⟩

theorem IsNumeral.mem_numeralSigns {n : Nat} {s : Text} (h : IsNumeral s n) :
    ∀ c ∈ s, c ∈ numeralSigns := by
  cases h with
  | decimal h => exact h.mem_numeralSigns
  | hexadecimal hx h =>
    refine List.forall_mem_cons.mpr ⟨by decide, List.forall_mem_cons.mpr ⟨?_, h.mem_numeralSigns⟩⟩
    rcases hx with rfl | rfl <;> decide

theorem IsNumeral.not_mem {n : Nat} {s : Text} (h : IsNumeral s n) {c : Char}
    (hc : c ∉ numeralSigns) : c ∉ s := fun hmem => hc (h.mem_numeralSigns c hmem)

theorem IsNumeral.isBlank {n : Nat} {s : Text} (h : IsNumeral s n) :
    ∀ c ∈ s, isBlank c = false := by
  have hall : (numeralSigns.all fun c => !Text.isBlank c) = true := by decide
  intro c hc
  simpa using List.all_eq_true.mp hall c (h.mem_numeralSigns c hc)

/-! ## Numerals in a word -/

/-- The number in a word of 64 bits, unless it does not fit. -/
def fit (n : Nat) : Option UInt64 := if n < UInt64.size then some (UInt64.ofNat n) else none

/-- The word with one digit more, unless that does not fit. -/
def pushDigit (base : Nat) (word : UInt64) (d : Nat) : Option UInt64 := fit (word.toNat * base + d)

/-- The value of one digit or more in a word: nothing if some character is no digit, no value if
it does not fit. -/
def readWord (base : Nat) (s : Text) : Option (Option UInt64) :=
  if s.isEmpty then none else (s.mapM (digit? base)).map fun ds => ds.foldlM (pushDigit base) 0

/-- The value of a numeral in a word. -/
def wordNumeral : Text → Option (Option UInt64)
  | '0' :: 'x' :: digits => readWord 16 digits
  | '0' :: 'X' :: digits => readWord 16 digits
  | digits => readWord 10 digits

/-- The number `acc` with further digits. -/
def addDigits (base acc : Nat) (ds : List Nat) : Nat := ds.foldl (fun n d => n * base + d) acc

theorem le_addDigits {base : Nat} (hbase : 0 < base) (acc : Nat) (ds : List Nat) :
    acc ≤ addDigits base acc ds := by
  induction ds generalizing acc with
  | nil => exact Nat.le_refl acc
  | cons d ds ih =>
    have hmul : acc * 1 ≤ acc * base := Nat.mul_le_mul_left acc hbase
    have hrest : acc * base + d ≤ addDigits base acc (d :: ds) := ih (acc * base + d)
    omega

theorem fit_of_lt {n : Nat} (h : n < UInt64.size) :
    ∃ word : UInt64, fit n = some word ∧ word.toNat = n :=
  ⟨UInt64.ofNat n, if_pos h, UInt64.toNat_ofNat_of_lt h⟩

theorem fit_of_le {n : Nat} (h : UInt64.size ≤ n) : fit n = none := if_neg (Nat.not_lt.mpr h)

/-- A word overflows at some digit exactly if the whole number does not fit. -/
theorem foldlM_pushDigit {base : Nat} (hbase : 0 < base) (word : UInt64) (ds : List Nat) :
    ds.foldlM (pushDigit base) word = fit (addDigits base word.toNat ds) := by
  induction ds generalizing word with
  | nil =>
    show some word = fit word.toNat
    rw [fit, if_pos word.toNat_lt_size, UInt64.ofNat_toNat]
  | cons d ds ih =>
    rw [List.foldlM_cons, pushDigit]
    rcases Nat.lt_or_ge (word.toNat * base + d) UInt64.size with hlt | hle
    · obtain ⟨next, hnext, hvalue⟩ := fit_of_lt hlt
      rw [hnext]
      show ds.foldlM (pushDigit base) next = fit (addDigits base (word.toNat * base + d) ds)
      rw [ih next, hvalue]
    · have hrest : word.toNat * base + d ≤ addDigits base word.toNat (d :: ds) :=
        le_addDigits hbase (word.toNat * base + d) ds
      rw [fit_of_le hle, fit_of_le (hle.trans hrest)]
      rfl

theorem readDigits_eq_addDigits (base acc : Nat) (s : Text) :
    readDigits base acc s = (s.mapM (digit? base)).map (addDigits base acc) := by
  induction s generalizing acc with
  | nil => rfl
  | cons c s ih =>
    rw [readDigits, List.mapM_cons]
    cases digit? base c with
    | none => rfl
    | some d =>
      show readDigits base (acc * base + d) s = _
      rw [ih]
      cases s.mapM (digit? base) <;> rfl

theorem readWord_eq {base : Nat} (hbase : 0 < base) (s : Text) :
    readWord base s = (readNat base s).map fit := by
  unfold readWord readNat
  split
  · rfl
  · rw [readDigits_eq_addDigits, Option.map_map]
    exact congrArg (Option.map · _) (funext fun ds => foldlM_pushDigit hbase 0 ds)

/-- A numeral is read in a word as it is read at its full value, if that fits. -/
theorem wordNumeral_eq (s : Text) : wordNumeral s = (numeral s).map fit := by
  fun_cases wordNumeral s with
  | case1 digits => exact readWord_eq (Nat.succ_pos 15) digits
  | case2 digits => exact readWord_eq (Nat.succ_pos 15) digits
  | case3 s hlower hupper =>
    rw [numeral.eq_3 s hlower hupper]
    exact readWord_eq (Nat.succ_pos 9) s

end PadScript.Text
