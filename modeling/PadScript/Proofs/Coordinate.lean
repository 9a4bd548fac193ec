import PadScript.Expression
import PadScript.Proofs.Numeral
import PadScript.Proofs.Result

/-!
# Coordinates of a stick

A token gives the position of a stick by coordinates exactly if it has the shape of one, and every
other token is looked up by name.

1. A coordinate is a numeral, with a minus sign before it or without (`Axis.Written`), and it is in
   range if it has no minus sign and is at most 255 (`Axis.ofText_eq_value_iff`,
   `Axis.ofText_eq_outOfRange_iff`). A word of 64 bits is enough to tell (`Axis.ofText_eq_inWord`).
2. A number holds no comma, so the first comma between the parentheses is the one between the two
   coordinates (`Token.coordinate?_eq_some_iff`).
3. A token with two coordinates in range is the position, and a token with a coordinate out of range
   is refused with the first such coordinate.
-/

namespace PadScript

/-- The letters that name a stick. -/
def Stick.letters : Stick → List Char
  | .left => ['l', 'L']
  | .right => ['r', 'R']

theorem Symbol.stickLetter_eq_some_iff {token rest : Text} {stick : Stick} :
    Symbol.stickLetter token = some (stick, rest) ↔
      ∃ letter ∈ stick.letters, token = letter :: rest := by
  cases token with
  | nil => simp [Symbol.stickLetter]
  | cons c s =>
    by_cases hleft : c = 'L' ∨ c = 'l'
    · rcases hleft with rfl | rfl <;> cases stick <;> simp [Symbol.stickLetter, Stick.letters]
    by_cases hright : c = 'R' ∨ c = 'r'
    · rcases hright with rfl | rfl <;> cases stick <;> simp [Symbol.stickLetter, Stick.letters]
    · rw [not_or] at hleft hright
      cases stick <;> simp [Symbol.stickLetter, Stick.letters, hleft, hright]

/-! ## Numbers that may be out of range -/

namespace Axis

/-- A number and its sign, between blanks: a numeral, or a minus sign, blanks and a numeral. -/
inductive Written (text : Text) : (negative : Bool) → Nat → Prop
  | plain {n : Nat} : Text.IsNumeral (Text.trim text) n → Written text false n
  | minus {gap digits : Text} {n : Nat} : (∀ c ∈ gap, Text.isBlank c = true) →
      Text.IsNumeral digits n → Text.trim text = '-' :: (gap ++ digits) → Written text true n

/-- The text is a number, with a minus sign or without. -/
def IsNumber (text : Text) : Prop := ∃ negative n, Written text negative n

/-- The text is a number that no coordinate can have. -/
def Exceeds (text : Text) : Prop :=
  ∃ negative n, Written text negative n ∧ (negative = true ∨ 255 < n)

theorem written_false_iff {text : Text} {n : Nat} :
    Written text false n ↔ Text.numeral (Text.trim text) = some n := by
  rw [Text.numeral_eq_some_iff]
  constructor
  · rintro ⟨h⟩
    exact h
  · exact .plain

theorem written_true_iff {text : Text} {n : Nat} :
    Written text true n ↔
      ∃ rest, Text.trim text = '-' :: rest ∧ Text.numeral (Text.trim rest) = some n := by
  constructor
  · rintro (_ | @⟨gap, digits, _, hgap, hdigits, htext⟩)
    refine ⟨gap ++ digits, htext, Text.numeral_eq_some_iff.mpr ?_⟩
    have htrim := @Text.trim_blanks_append gap digits [] hgap (by simp) hdigits.isBlank
    rw [List.append_nil] at htrim
    rwa [htrim]
  · rintro ⟨rest, htext, hnumeral⟩
    obtain ⟨gap, hgap, hrest⟩ := Text.exists_blanks_append_trimStart rest
    -- the number ends the text, which is trimmed, so there is nothing to trim after it
    have hend : Text.trimEnd (Text.trimStart rest) = Text.trimStart rest := by
      refine Text.trimEnd_eq_self_of_isSuffix ?_ (Text.trimEnd_trim text)
      rw [htext]
      exact (Text.trimStart_isSuffix rest).trans (List.suffix_cons '-' rest)
    refine .minus hgap (Text.numeral_eq_some_iff.mp hnumeral) ?_
    rw [htext, Text.trim, hend, ← hrest]

/-- A numeral has no minus sign. -/
theorem trim_ne_minus {text rest : Text} {n : Nat} (h : Text.numeral (Text.trim text) = some n) :
    Text.trim text ≠ '-' :: rest := by
  intro htext
  refine (Text.numeral_eq_some_iff.mp h).not_mem (c := '-') (by decide) ?_
  rw [htext]
  exact List.mem_cons_self

/-- A number is in range if it has no minus sign and fits into a byte. -/
theorem ofText_eq_some_iff {text : Text} {axis : Axis} :
    ofText text = some axis ↔ ∃ negative n, Written text negative n ∧
      axis = if negative = false ∧ n < UInt8.size then .value (UInt8.ofNat n)
        else .outOfRange (Text.trim text) := by
  unfold ofText
  simp only
  split
  · rename_i rest htext
    constructor
    · intro h
      obtain ⟨n, hn, rfl⟩ := Option.map_eq_some_iff.mp h
      exact ⟨true, n, written_true_iff.mpr ⟨rest, htext, hn⟩, by simp⟩
    · rintro ⟨negative, n, hwritten, rfl⟩
      cases negative with
      | false => exact absurd htext (trim_ne_minus (written_false_iff.mp hwritten))
      | true =>
        obtain ⟨rest', htext', hn⟩ := written_true_iff.mp hwritten
        cases htext.symm.trans htext'
        simp [hn]
  · rename_i htext
    constructor
    · intro h
      obtain ⟨n, hn, rfl⟩ := Option.map_eq_some_iff.mp h
      exact ⟨false, n, written_false_iff.mpr hn, by simp⟩
    · rintro ⟨negative, n, hwritten, rfl⟩
      cases negative with
      | false => simp [written_false_iff.mp hwritten]
      | true =>
        obtain ⟨rest, htext', -⟩ := written_true_iff.mp hwritten
        exact absurd htext' (htext rest)

theorem ofText_eq_value_iff {text : Text} {v : UInt8} :
    ofText text = some (.value v) ↔ Written text false v.toNat := by
  rw [ofText_eq_some_iff]
  constructor
  · rintro ⟨negative, n, hwritten, haxis⟩
    split at haxis
    · rename_i hrange
      obtain ⟨rfl, hn⟩ := hrange
      cases haxis
      rwa [UInt8.toNat_ofNat', Nat.mod_eq_of_lt hn]
    · cases haxis
  · intro hwritten
    refine ⟨false, v.toNat, hwritten, ?_⟩
    rw [if_pos ⟨rfl, v.toNat_lt_size⟩, UInt8.ofNat_toNat]

theorem ofText_eq_outOfRange_iff {text raw : Text} :
    ofText text = some (.outOfRange raw) ↔ Exceeds text ∧ raw = Text.trim text := by
  have hsize : UInt8.size = 256 := rfl
  rw [ofText_eq_some_iff]
  constructor
  · rintro ⟨negative, n, hwritten, haxis⟩
    split at haxis
    · cases haxis
    · rename_i hrange
      cases haxis
      refine ⟨⟨negative, n, hwritten, ?_⟩, rfl⟩
      cases negative with
      | false =>
        have hn : ¬ n < UInt8.size := fun hn => hrange ⟨rfl, hn⟩
        exact .inr (by omega)
      | true => exact .inl rfl
  · rintro ⟨⟨negative, n, hwritten, hexceeds⟩, rfl⟩
    refine ⟨negative, n, hwritten, (if_neg ?_).symm⟩
    rintro ⟨rfl, hn⟩
    rcases hexceeds with h | h
    · cases h
    · omega

theorem isNumber_iff {text : Text} : IsNumber text ↔ ∃ axis, ofText text = some axis := by
  simp only [ofText_eq_some_iff]
  constructor
  · rintro ⟨negative, n, h⟩
    exact ⟨_, negative, n, h, rfl⟩
  · rintro ⟨axis, negative, n, h, -⟩
    exact ⟨negative, n, h⟩

theorem not_exceeds_iff {text : Text} (h : IsNumber text) :
    ¬ Exceeds text ↔ ∃ v, ofText text = some (.value v) := by
  obtain ⟨axis, haxis⟩ := isNumber_iff.mp h
  cases axis with
  | value v =>
    refine iff_of_true (fun hexceeds => ?_) ⟨v, haxis⟩
    rw [ofText_eq_outOfRange_iff.mpr ⟨hexceeds, rfl⟩] at haxis
    cases haxis
  | outOfRange raw =>
    refine iff_of_false (not_not_intro (ofText_eq_outOfRange_iff.mp haxis).1) ?_
    rintro ⟨v, hv⟩
    rw [haxis] at hv
    cases hv

/-- A number holds no comma. -/
theorem comma_not_mem {text : Text} {axis : Axis} (h : ofText text = some axis) : ',' ∉ text := by
  intro hmem
  have htrim : ',' ∈ Text.trim text := Text.mem_trim_of_mem hmem (by decide)
  obtain ⟨negative, n, hwritten, -⟩ := ofText_eq_some_iff.mp h
  cases hwritten with
  | plain hnumeral => exact hnumeral.not_mem (by decide) htrim
  | minus hgap hnumeral htext =>
    rw [htext, List.mem_cons, List.mem_append] at htrim
    rcases htrim with h | h | h
    · cases h
    · exact absurd (hgap ',' h) (by decide)
    · exact hnumeral.not_mem (by decide) h

/-! ## Coordinates in a word -/

/-- Whether a minus sign starts the text, and the text without it. -/
def splitSign : Text → Bool × Text
  | '-' :: digits => (true, digits)
  | digits => (false, digits)

/-- The coordinate whose number was read in a word of 64 bits and is narrowed to a byte; nothing was
read if the number left the word. -/
def ofWord (raw : Text) (negative : Bool) : Option UInt64 → Axis
  | none => .outOfRange raw
  | some word =>
    if negative then .outOfRange raw
    else if word.toNat < UInt8.size then .value word.toUInt8 else .outOfRange raw

/-- Reads a coordinate in a word of 64 bits, which is then narrowed to a byte. -/
def ofTextInWord (text : Text) : Option Axis :=
  let raw := Text.trim text
  let (negative, digits) := splitSign raw
  (Text.wordNumeral (Text.trim digits)).map (ofWord raw negative)

theorem ofWord_fit_negative (raw : Text) (n : Nat) :
    ofWord raw true (Text.fit n) = .outOfRange raw := by
  cases Text.fit n <;> rfl

theorem ofWord_fit (raw : Text) (n : Nat) :
    ofWord raw false (Text.fit n) =
      if n < UInt8.size then .value (UInt8.ofNat n) else .outOfRange raw := by
  have hsizes : UInt8.size ≤ UInt64.size := by decide
  rcases Nat.lt_or_ge n UInt64.size with hlt | hle
  · obtain ⟨word, hword, rfl⟩ := Text.fit_of_lt hlt
    rw [hword]
    rfl
  · rw [Text.fit_of_le hle, if_neg (by omega)]
    rfl

/-- A number that leaves the word and a number that only leaves a byte are refused alike. -/
theorem ofText_eq_inWord (text : Text) : ofText text = ofTextInWord text := by
  unfold ofText ofTextInWord
  simp only [Text.wordNumeral_eq, Option.map_map]
  split
  · rename_i digits hsign
    rw [hsign]
    exact congrArg (Option.map · _) (funext fun n => (ofWord_fit_negative _ n).symm)
  · rename_i hsign
    rw [splitSign.eq_2 _ hsign, Text.trim_trim]
    exact congrArg (Option.map · _) (funext fun n => (ofWord_fit _ n).symm)

end Axis

/-! ## Tokens with two coordinates -/

namespace Token

/-- The letter of a stick, blanks, and in parentheses `a`, a comma and `b`. -/
def Shaped (token : Text) (stick : Stick) (a b : Text) : Prop :=
  ∃ letter ∈ stick.letters, ∃ gap, (∀ c ∈ gap, Text.isBlank c = true) ∧
    token = letter :: (gap ++ '(' :: (a ++ ',' :: (b ++ [')'])))

/-- The token has the shape of a position of a stick, and its numerals are the coordinates. -/
def Gives (token : Text) (stick : Stick) (position : StickPosition) : Prop :=
  ∃ a b, Shaped token stick a b ∧ Text.IsNumeral (Text.trim a) position.x.toNat ∧
    Text.IsNumeral (Text.trim b) position.y.toNat

/-- The token has the shape of a position of a stick, and `axis` is the first of its two numbers
that is out of range. -/
def FirstExceeding (token axis : Text) : Prop :=
  ∃ stick a b, Shaped token stick a b ∧ Axis.IsNumber a ∧ Axis.IsNumber b ∧
    (Axis.Exceeds a ∧ axis = a ∨ ¬ Axis.Exceeds a ∧ Axis.Exceeds b ∧ axis = b)

theorem parenthesised_eq_some_iff {s inner : Text} :
    parenthesised s = some inner ↔ s = '(' :: (inner ++ [')']) := by
  unfold parenthesised
  split
  · rename_i rest
    split
    · rename_i hlast
      obtain ⟨before, rfl⟩ := List.getLast?_eq_some_iff.mp hlast
      simp
    · rename_i hlast
      constructor
      · intro h; cases h
      · intro h
        cases h
        exact absurd List.getLast?_concat hlast
  · rename_i hs
    constructor
    · intro h; cases h
    · intro h
      exact absurd h (hs _)

theorem coordinate?_eq_some_iff {token : Text} {stick : Stick} {x y : Axis} :
    coordinate? token = some (stick, x, y) ↔
      ∃ a b, Shaped token stick a b ∧ Axis.ofText a = some x ∧ Axis.ofText b = some y := by
  unfold coordinate?
  simp only [bind, pure, Option.bind_eq_some_iff, Prod.exists, Symbol.stickLetter_eq_some_iff,
    parenthesised_eq_some_iff, Text.cutFirst_eq_some_iff, Option.some_inj, Prod.mk.injEq]
  constructor
  · rintro ⟨_, rest, ⟨letter, hletter, rfl⟩, inner, hinner, a, b, ⟨-, rfl⟩, x', hx, y', hy, rfl,
      rfl, rfl⟩
    obtain ⟨gap, hgap, hrest⟩ := Text.exists_blanks_append_trimStart rest
    refine ⟨a, b, ⟨letter, hletter, gap, hgap, ?_⟩, hx, hy⟩
    rw [hrest, hinner]
    simp
  · rintro ⟨a, b, ⟨letter, hletter, gap, hgap, rfl⟩, hx, hy⟩
    refine ⟨stick, _, ⟨letter, hletter, rfl⟩, a ++ ',' :: b, ?_, a, b,
      ⟨Axis.comma_not_mem hx, rfl⟩, x, hx, y, hy, rfl, rfl, rfl⟩
    unfold Text.trimStart
    rw [List.dropWhile_append_of_pos hgap, List.dropWhile_cons_of_neg (by decide)]
    simp

/-! ## What tokens are read as -/

theorem classify_of_coordinate? {token : Text} {stick : Stick} {x y : Axis}
    (h : coordinate? token = some (stick, x, y)) :
    classify token = (x.get token >>= fun x => y.get token >>= fun y =>
      .ok (.coordinate stick ⟨x, y⟩)) := by
  unfold classify
  rw [h]
  rfl

theorem classify_of_not_coordinate {token : Text} (h : coordinate? token = none) :
    classify token = .ok ((Symbol.lookup token).elim (.unknown token) .symbol) := by
  unfold classify
  rw [h]
  cases Symbol.lookup token <;> rfl

theorem classify_eq_coordinate_iff {token : Text} {stick : Stick} {position : StickPosition} :
    classify token = .ok (.coordinate stick position) ↔
      coordinate? token = some (stick, .value position.x, .value position.y) := by
  constructor
  · intro h
    cases hcoordinate : coordinate? token with
    | none =>
      rw [classify_of_not_coordinate hcoordinate] at h
      cases hlookup : Symbol.lookup token <;> rw [hlookup] at h <;> cases h
    | some parts =>
      obtain ⟨stick', x, y⟩ := parts
      rw [classify_of_coordinate? hcoordinate] at h
      cases x <;> cases y <;> cases h
      rfl
  · intro h
    rw [classify_of_coordinate? h]
    rfl

theorem classify_eq_error_iff {token : Text} {fault : Fault} :
    classify token = .error fault ↔ ∃ stick x y, coordinate? token = some (stick, x, y) ∧
      ∃ raw, (x = .outOfRange raw ∨ ∃ v, x = .value v ∧ y = .outOfRange raw) ∧
        fault = .stickOutOfRange raw token := by
  constructor
  · intro h
    cases hcoordinate : coordinate? token with
    | none =>
      rw [classify_of_not_coordinate hcoordinate] at h
      cases h
    | some parts =>
      obtain ⟨stick, x, y⟩ := parts
      rw [classify_of_coordinate? hcoordinate] at h
      refine ⟨stick, x, y, rfl, ?_⟩
      cases x with
      | outOfRange raw =>
        cases h
        exact ⟨raw, .inl rfl, rfl⟩
      | value v =>
        cases y with
        | outOfRange raw =>
          cases h
          exact ⟨raw, .inr ⟨v, rfl, rfl⟩, rfl⟩
        | value w => cases h
  · rintro ⟨stick, x, y, hcoordinate, raw, hraw, rfl⟩
    rw [classify_of_coordinate? hcoordinate]
    rcases hraw with rfl | ⟨v, rfl, rfl⟩ <;> rfl

/-- The position that a token is read as is the one that it gives. -/
theorem gives_iff {token : Text} {stick : Stick} {position : StickPosition} :
    Gives token stick position ↔
      coordinate? token = some (stick, .value position.x, .value position.y) := by
  rw [coordinate?_eq_some_iff]
  simp only [Axis.ofText_eq_value_iff, Axis.written_false_iff, Text.numeral_eq_some_iff]
  rfl

theorem classify_eq_error_iff_firstExceeding {token : Text} {fault : Fault} :
    classify token = .error fault ↔
      ∃ axis, FirstExceeding token axis ∧ fault = .stickOutOfRange (Text.trim axis) token := by
  rw [classify_eq_error_iff]
  constructor
  · rintro ⟨stick, x, y, hcoordinate, raw, hraw, rfl⟩
    obtain ⟨a, b, hshaped, hx, hy⟩ := coordinate?_eq_some_iff.mp hcoordinate
    have ha : Axis.IsNumber a := Axis.isNumber_iff.mpr ⟨x, hx⟩
    have hb : Axis.IsNumber b := Axis.isNumber_iff.mpr ⟨y, hy⟩
    rcases hraw with rfl | ⟨v, rfl, rfl⟩
    · obtain ⟨hexceeds, rfl⟩ := Axis.ofText_eq_outOfRange_iff.mp hx
      exact ⟨a, ⟨stick, a, b, hshaped, ha, hb, .inl ⟨hexceeds, rfl⟩⟩, rfl⟩
    · obtain ⟨hexceeds, rfl⟩ := Axis.ofText_eq_outOfRange_iff.mp hy
      have hfits := (Axis.not_exceeds_iff ha).mpr ⟨v, hx⟩
      exact ⟨b, ⟨stick, a, b, hshaped, ha, hb, .inr ⟨hfits, hexceeds, rfl⟩⟩, rfl⟩
  · rintro ⟨axis, ⟨stick, a, b, hshaped, ha, hb, hfirst⟩, rfl⟩
    obtain ⟨x, hx⟩ := Axis.isNumber_iff.mp ha
    obtain ⟨y, hy⟩ := Axis.isNumber_iff.mp hb
    refine ⟨stick, x, y, coordinate?_eq_some_iff.mpr ⟨a, b, hshaped, hx, hy⟩, _, ?_, rfl⟩
    rcases hfirst with ⟨hexceeds, rfl⟩ | ⟨hfits, hexceeds, rfl⟩
    · rw [Axis.ofText_eq_outOfRange_iff.mpr ⟨hexceeds, rfl⟩] at hx
      exact .inl (Option.some.inj hx).symm
    · obtain ⟨v, hv⟩ := (Axis.not_exceeds_iff ha).mp hfits
      rw [hv] at hx
      rw [Axis.ofText_eq_outOfRange_iff.mpr ⟨hexceeds, rfl⟩] at hy
      exact .inr ⟨v, (Option.some.inj hx).symm, (Option.some.inj hy).symm⟩

/-- **The coordinate grammar.** A token is the position of a stick exactly if it gives one by two
numerals of at most 255. It is refused exactly if it has that shape with two numbers of any size and
a number that is negative or above 255, and the message names the first such number. Every other
token is what its name stands for. -/
theorem classify_by_shape (token : Text) :
    (∀ stick position, classify token = .ok (.coordinate stick position) ↔
      Gives token stick position) ∧
    (∀ fault, classify token = .error fault ↔ ∃ axis, FirstExceeding token axis ∧
      fault = .stickOutOfRange (Text.trim axis) token ∧ fault.code = "E1003".toList ∧
      fault.message = "stick coordinate out of range 0..=255: ".toList ++ Text.trim axis ++
        " (context=".toList ++ token ++ ")".toList) ∧
    ((∀ stick position, ¬ Gives token stick position) → (∀ axis, ¬ FirstExceeding token axis) →
      classify token = .ok ((Symbol.lookup token).elim (.unknown token) .symbol)) := by
  refine ⟨fun stick position => ?_, fun fault => ?_, fun hgives hexceeding => ?_⟩
  · rw [classify_eq_coordinate_iff, gives_iff]
  · rw [classify_eq_error_iff_firstExceeding]
    refine exists_congr fun axis => and_congr_right fun _ => ?_
    constructor
    · rintro rfl
      exact ⟨rfl, rfl, rfl⟩
    · exact fun h => h.1
  · refine classify_of_not_coordinate (Option.eq_none_iff_forall_ne_some.mpr ?_)
    rintro ⟨stick, x, y⟩ hcoordinate
    have hrefused : ∀ fault, classify token ≠ .error fault := by
      intro fault hfault
      obtain ⟨axis, haxis, -⟩ := classify_eq_error_iff_firstExceeding.mp hfault
      exact hexceeding axis haxis
    rw [classify_of_coordinate? hcoordinate] at hrefused
    cases x with
    | outOfRange raw => exact hrefused _ rfl
    | value v =>
      cases y with
      | outOfRange raw => exact hrefused _ rfl
      | value w => exact hgives stick ⟨v, w⟩ (gives_iff.mpr hcoordinate)

/-- A position with blanks around its numerals, one with a minus sign and then a number of more than
64 bits, and one with a numeral too many. -/
theorem classify_by_shape_sticks :
    Gives "l (0x10, 255 )".toList .left ⟨16, 255⟩ ∧
      classify "l (0x10, 255 )".toList = .ok (.coordinate .left ⟨16, 255⟩) ∧
      FirstExceeding "R(- 0,99999999999999999999)".toList "- 0".toList ∧
      classify "R(- 0,99999999999999999999)".toList =
        .error (.stickOutOfRange "- 0".toList "R(- 0,99999999999999999999)".toList) ∧
      classify "L(1,2,3)".toList = .ok (.unknown "L(1,2,3)".toList) := by
  have hgives : Gives "l (0x10, 255 )".toList .left ⟨16, 255⟩ := gives_iff.mpr (by decide)
  have hexceeding : FirstExceeding "R(- 0,99999999999999999999)".toList "- 0".toList := by
    have hx : Axis.ofText "- 0".toList = some (.outOfRange "- 0".toList) := by decide
    have hy : Axis.ofText "99999999999999999999".toList =
        some (.outOfRange "99999999999999999999".toList) := by decide +kernel
    exact ⟨.right, _, _, ⟨'R', by decide, [], by simp, rfl⟩, Axis.isNumber_iff.mpr ⟨_, hx⟩,
      Axis.isNumber_iff.mpr ⟨_, hy⟩, .inl ⟨(Axis.ofText_eq_outOfRange_iff.mp hx).1, rfl⟩⟩
  have hnone : coordinate? "L(1,2,3)".toList = none := by decide
  have hrefused := (classify_by_shape "R(- 0,99999999999999999999)".toList).2.1
  refine ⟨hgives, ((classify_by_shape _).1 _ _).mpr hgives, hexceeding, ?_, ?_⟩
  · exact (hrefused _).mpr ⟨_, hexceeding, rfl, rfl, rfl⟩
  · refine (classify_by_shape "L(1,2,3)".toList).2.2 (fun stick position h => ?_) fun axis h => ?_
    · rw [gives_iff, hnone] at h
      cases h
    · obtain ⟨stick, a, b, hshaped, ha, hb, -⟩ := h
      obtain ⟨x, hx⟩ := Axis.isNumber_iff.mp ha
      obtain ⟨y, hy⟩ := Axis.isNumber_iff.mp hb
      have hsome := coordinate?_eq_some_iff.mpr ⟨a, b, hshaped, hx, hy⟩
      rw [hnone] at hsome
      cases hsome

end Token

end PadScript
