import PadScript.Line
import PadScript.Proofs.Numeral
import PadScript.Proofs.Result

/-!
# Durations

A duration is a numeral of at most 32 bits and is read at its exact value, however many digits it
has.

No more than 64 bits are needed on the way: a number that leaves such a word and a number that only
leaves 32 bits are refused alike (`Line.duration_eq_inWord`).
-/

namespace PadScript

namespace Line

/-! ## Verdicts on durations -/

/-- Reads a duration in a word of 64 bits, which is then narrowed to 32 bits. -/
def durationInWord (text : Text) : Except Fault Millis :=
  match Text.wordNumeral (Text.trim text) with
  | none => .error (.invalidDuration text)
  | some none => .error (.durationTooLarge text)
  | some (some word) =>
    if word.toNat < UInt32.size then .ok word.toUInt32 else .error (.durationTooLarge text)

theorem duration_eq_inWord (text : Text) : duration text = durationInWord text := by
  unfold duration durationInWord
  rw [Text.wordNumeral_eq]
  cases Text.numeral (Text.trim text) with
  | none => rfl
  | some n =>
    have hsizes : UInt32.size ≤ UInt64.size := by decide
    rcases Nat.lt_or_ge n UInt64.size with hlt | hle
    · obtain ⟨word, hword, rfl⟩ := Text.fit_of_lt hlt
      simp only [Option.map_some, hword]
      rfl
    · simp only [Option.map_some, Text.fit_of_le hle]
      rw [if_neg (by omega)]

theorem duration_of_isNumeral {text : Text} {n : Nat} (h : Text.IsNumeral (Text.trim text) n) :
    duration text =
      if n < UInt32.size then .ok (UInt32.ofNat n) else .error (.durationTooLarge text) := by
  unfold duration
  rw [Text.numeral_eq_some_iff.mpr h]

theorem duration_of_not_isNumeral {text : Text} (h : ∀ n, ¬ Text.IsNumeral (Text.trim text) n) :
    duration text = .error (.invalidDuration text) := by
  have hnone : Text.numeral (Text.trim text) = none :=
    Option.eq_none_iff_forall_ne_some.mpr fun n hn => h n (Text.numeral_eq_some_iff.mp hn)
  unfold duration
  rw [hnone]

theorem map_duration_eq_ok_iff {text : Text} {n : Nat} :
    (duration text).map UInt32.toNat = .ok n ↔
      Text.IsNumeral (Text.trim text) n ∧ n < UInt32.size := by
  constructor
  · intro h
    obtain ⟨millis, hmillis, rfl⟩ := map_eq_ok_iff.mp h
    refine ⟨?_, millis.toNat_lt_size⟩
    by_cases hnumeral : ∃ m, Text.IsNumeral (Text.trim text) m
    · obtain ⟨m, hm⟩ := hnumeral
      rw [duration_of_isNumeral hm] at hmillis
      split at hmillis
      · rename_i hlt
        cases hmillis
        rwa [UInt32.toNat_ofNat_of_lt' hlt]
      · cases hmillis
    · rw [duration_of_not_isNumeral (not_exists.mp hnumeral)] at hmillis
      cases hmillis
  · rintro ⟨hnumeral, hlt⟩
    rw [duration_of_isNumeral hnumeral, if_pos hlt]
    show Except.ok (UInt32.ofNat n).toNat = .ok n
    rw [UInt32.toNat_ofNat_of_lt' hlt]

/-- The text is refused as a duration, with this message and itself as the context. -/
def RefusedAs (text message : Text) : Prop :=
  ∃ fault, duration text = .error fault ∧ fault.code = "E1004".toList ∧ fault.message = message ∧
    fault.context = some text

theorem refusedAs_of_isNumeral {text message : Text} {n : Nat}
    (h : Text.IsNumeral (Text.trim text) n) :
    RefusedAs text message ↔
      UInt32.size ≤ n ∧ message = "duration too large: ".toList ++ text := by
  unfold RefusedAs
  rw [duration_of_isNumeral h]
  split
  · rename_i hlt
    constructor
    · rintro ⟨fault, hfault, -⟩
      cases hfault
    · rintro ⟨hle, -⟩
      omega
  · rename_i hnot
    constructor
    · rintro ⟨fault, hfault, -, rfl, -⟩
      cases hfault
      exact ⟨Nat.not_lt.mp hnot, rfl⟩
    · rintro ⟨-, rfl⟩
      exact ⟨_, rfl, rfl, rfl, rfl⟩

theorem refusedAs_of_not_isNumeral {text message : Text}
    (h : ∀ n, ¬ Text.IsNumeral (Text.trim text) n) :
    RefusedAs text message ↔ message = "invalid duration: ".toList ++ Text.quoted text := by
  unfold RefusedAs
  rw [duration_of_not_isNumeral h]
  constructor
  · rintro ⟨fault, hfault, -, rfl, -⟩
    cases hfault
    rfl
  · rintro rfl
    exact ⟨_, rfl, rfl, rfl, rfl⟩

theorem tooLarge_ne_invalid (s t : Text) :
    "duration too large: ".toList ++ s ≠ "invalid duration: ".toList ++ t := by
  intro h
  cases h

theorem refusedAs_tooLarge_iff {text : Text} :
    RefusedAs text ("duration too large: ".toList ++ text) ↔
      ∃ n, Text.IsNumeral (Text.trim text) n ∧ UInt32.size ≤ n := by
  by_cases hnumeral : ∃ m, Text.IsNumeral (Text.trim text) m
  · obtain ⟨m, hm⟩ := hnumeral
    rw [refusedAs_of_isNumeral hm]
    constructor
    · rintro ⟨hle, -⟩
      exact ⟨m, hm, hle⟩
    · rintro ⟨n, hn, hle⟩
      rw [hn.unique hm] at hle
      exact ⟨hle, rfl⟩
  · rw [not_exists] at hnumeral
    rw [refusedAs_of_not_isNumeral hnumeral]
    constructor
    · intro h
      exact absurd h (tooLarge_ne_invalid _ _)
    · rintro ⟨n, hn, -⟩
      exact absurd hn (hnumeral n)

theorem refusedAs_invalid_iff {text : Text} :
    RefusedAs text ("invalid duration: ".toList ++ Text.quoted text) ↔
      ∀ n, ¬ Text.IsNumeral (Text.trim text) n := by
  by_cases hnumeral : ∃ m, Text.IsNumeral (Text.trim text) m
  · obtain ⟨m, hm⟩ := hnumeral
    rw [refusedAs_of_isNumeral hm]
    constructor
    · rintro ⟨-, h⟩
      exact absurd h.symm (tooLarge_ne_invalid _ _)
    · intro h
      exact absurd hm (h m)
  · rw [not_exists] at hnumeral
    rw [refusedAs_of_not_isNumeral hnumeral]
    exact iff_of_true rfl hnumeral

/-- **Durations are read at their exact value.** A duration is accepted exactly if it is a numeral
of at most 32 bits between blanks, and then it is the value of the numeral. It is refused as too
large exactly if it is a numeral of a greater value, however great, and as invalid exactly if it is
no numeral. A word of 64 bits is enough to tell. -/
theorem duration_verdicts (text : Text) :
    (∀ n, (duration text).map UInt32.toNat = .ok n ↔
      Text.IsNumeral (Text.trim text) n ∧ n ≤ 2 ^ 32 - 1) ∧
    (RefusedAs text ("duration too large: ".toList ++ text) ↔
      ∃ n, Text.IsNumeral (Text.trim text) n ∧ 2 ^ 32 - 1 < n) ∧
    (RefusedAs text ("invalid duration: ".toList ++ Text.quoted text) ↔
      ∀ n, ¬ Text.IsNumeral (Text.trim text) n) ∧
    duration text = durationInWord text := by
  have hsize : UInt32.size = 2 ^ 32 := rfl
  refine ⟨fun n => ?_, ?_, refusedAs_invalid_iff, duration_eq_inWord text⟩
  · rw [map_duration_eq_ok_iff]
    exact and_congr_right fun _ => by omega
  · rw [refusedAs_tooLarge_iff]
    exact exists_congr fun n => and_congr_right fun _ => by omega

-- the greatest duration with zeros before it, the next number, and one that needs 65 bits
example : duration " 0004294967295".toList = .ok 4294967295 ∧
    duration "0X100000000".toList = .error (.durationTooLarge "0X100000000".toList) ∧
    duration "18446744073709551616".toList =
      .error (.durationTooLarge "18446744073709551616".toList) := by
  decide +kernel

end Line

end PadScript
