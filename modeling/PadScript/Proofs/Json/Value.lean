import PadScript.Proofs.Json.Layout

/-!
# Values, written and read

Natural numbers and plain strings are read as themselves, and so are lists of what is read, if
they may be opened.
-/

namespace PadScript.Json

/-! ## Plain values -/

theorem value_of_scalar {depth : Nat} {bytes after rest : Bytes} {b : UInt8} {s : Scalar}
    (hskip : skipSpace bytes = b :: after) (hlist : b ≠ 0x5B) (hobject : b ≠ 0x7B)
    (h : scalar b after = .ok (s, rest)) : value depth bytes = .ok (.scalar s, rest) := by
  rw [value.eq_def]
  simp only
  rw [hskip]
  simp only
  rw [if_neg hlist, if_neg hobject, h]
  rfl

/-- The first digit of a number tells it from all other values. -/
theorem scalar_of_isDigit {b : UInt8} (hb : isDigit b = true) {tail rest : Bytes} {n : Number}
    (h : number (b :: tail) = .ok (n, rest)) : scalar b tail = .ok (.number n, rest) := by
  have hnull : b ≠ 0x6E := by rintro rfl; exact absurd hb (by decide)
  have htrue : b ≠ 0x74 := by rintro rfl; exact absurd hb (by decide)
  have hfalse : b ≠ 0x66 := by rintro rfl; exact absurd hb (by decide)
  unfold scalar
  rw [if_neg hnull, if_neg htrue, if_neg hfalse, if_pos (startsNumber_of_isDigit hb),
    h]
  rfl

theorem takes_value_natural {n : Nat} (hn : n ≤ greatestSignificand) (depth : Nat) :
    Takes (value depth) [.natural n] (.scalar (.number (.natural n))) where
  opens := ⟨_, _, rfl, rfl⟩
  takes more text hmark hlaid := by
    obtain ⟨rest, hrest, hskip⟩ := hlaid.skipSpace
    obtain ⟨b, tail, hbytes, hb⟩ := exists_digit n
    have hnumber := number_natural hn (hrest.endsNumber hmark)
    rw [show Word.bytes (.natural n) = b :: tail from hbytes, List.cons_append] at hskip
    rw [hbytes, List.cons_append] at hnumber
    refine ⟨rest, hrest, value_of_scalar hskip ?_ ?_ (scalar_of_isDigit hb hnumber)⟩
    · rintro rfl
      exact absurd hb (by decide)
    · rintro rfl
      exact absurd hb (by decide)

theorem takes_value_string {s : Text} (hs : Plain s) (depth : Nat) :
    Takes (value depth) [.string s] (.scalar (.string s)) where
  opens := ⟨_, _, rfl, rfl⟩
  takes more text _ hlaid := by
    obtain ⟨rest, hrest, hskip⟩ := hlaid.skipSpace
    rw [string_bytes] at hskip
    refine ⟨rest, hrest, value_of_scalar hskip (by decide) (by decide) ?_⟩
    show (string (Utf8.encode s ++ 0x22 :: Utf8.encode rest) >>= _) = _
    rw [string_plain hs]
    rfl

/-! ## Lists -/

theorem takes_value_list {depth : Nat} {parts : List (List Word)} {values : List Value}
    (h : List.Forall₂ (Takes (value depth)) parts values) :
    Takes (value (depth + 1)) (listWords parts) (.array values) where
  opens := ⟨_, _, rfl, rfl⟩
  takes more text _ hlaid := by
    rw [listWords, List.cons_append, List.append_assoc] at hlaid
    obtain ⟨inner, hinner, hskip⟩ := hlaid.skipSpace
    obtain ⟨rest, hrest, hlist⟩ := list_separated h hinner
    refine ⟨rest, hrest, ?_⟩
    rw [value.eq_def]
    simp only
    rw [hskip]
    show (list (value depth) (Utf8.encode inner) >>= _) = _
    rw [hlist]
    rfl

end PadScript.Json
