import PadScript.Proofs.Compiling
import PadScript.Proofs.Coordinate
import PadScript.Proofs.Line
import PadScript.Proofs.TokenOrder

/-!
# Upper and lower case

Input lines that differ in the case of ASCII letters only are compiled alike.

1. Lower-casing a text moves none of the signs that lines are cut at and none of its blanks, so it
   can be done before or after cutting and trimming (`Line.cutTopLevel_lower`, `Text.pieces_lower`,
   `Text.trim_lower`).
2. A numeral, a name and the letter of a stick mean the same in lower case (`Text.numeral_lower`,
   `Symbol.lookup_lower`, `Symbol.stickLetter_lower`), and a coordinate is in range in lower case if
   it is in range (`Token.coordinate?_lower`).
3. `SameVerdict` relates two results that say the same, up to what faults quote of the line. It is
   kept by doing one computation after another (`SameVerdict.bind`), so every line has the result of
   its lower case.
-/

namespace PadScript

namespace Text

/-! ## Characters -/

theorem toNat_toLower (c : Char) :
    c.toLower.toNat = if 65 ≤ c.toNat ∧ c.toNat ≤ 90 then c.toNat + 32 else c.toNat := by
  have hrange : (c.val ≥ 'A'.val ∧ c.val ≤ 'Z'.val) ↔ (65 ≤ c.toNat ∧ c.toNat ≤ 90) := by
    rw [ge_iff_le, UInt32.le_iff_toNat_le, UInt32.le_iff_toNat_le]
    rfl
  unfold Char.toLower
  split
  · rename_i h
    have hletter := hrange.mp h
    rw [if_pos hletter]
    show (c.val + 32).toNat = c.val.toNat + 32
    rw [UInt32.toNat_add]
    exact Nat.mod_eq_of_lt (by show c.toNat + 32 < 2 ^ 32; omega)
  · rename_i h
    rw [if_neg fun hletter => h (hrange.mpr hletter)]

/-- No other character becomes a sign that is no letter. -/
theorem toLower_eq_iff (sign : Char) (h : ¬ (65 ≤ sign.toNat ∧ sign.toNat ≤ 90))
    (h' : ¬ (97 ≤ sign.toNat ∧ sign.toNat ≤ 122)) (c : Char) : c.toLower = sign ↔ c = sign := by
  rw [← Char.toNat_inj, ← Char.toNat_inj, toNat_toLower]
  split <;> omega

/-- A small letter is what it and its capital become. -/
theorem toLower_eq_letter_iff (small capital : Char)
    (h : 65 ≤ capital.toNat ∧ capital.toNat ≤ 90) (h' : small.toNat = capital.toNat + 32)
    (c : Char) : c.toLower = small ↔ c = capital ∨ c = small := by
  rw [← Char.toNat_inj, ← Char.toNat_inj, ← Char.toNat_inj, toNat_toLower]
  split <;> omega

theorem toLower_ne_capital {capital : Char} (h : 65 ≤ capital.toNat ∧ capital.toNat ≤ 90)
    (c : Char) : c.toLower ≠ capital := by
  rw [ne_eq, ← Char.toNat_inj, toNat_toLower]
  split <;> omega

theorem toLower_toLower (c : Char) : c.toLower.toLower = c.toLower := by
  rw [← Char.toNat_inj, toNat_toLower]
  refine if_neg ?_
  rw [toNat_toLower]
  split <;> omega

theorem isBlank_toLower (c : Char) : isBlank c.toLower = isBlank c := by
  by_cases h : 65 ≤ c.toNat ∧ c.toNat ≤ 90
  · have hlower : c.toLower.toNat = c.toNat + 32 := by rw [toNat_toLower, if_pos h]
    unfold isBlank
    rw [hlower, Bool.eq_iff_iff]
    simp only [Bool.or_eq_true, Bool.and_eq_true, decide_eq_true_eq, beq_iff_eq]
    omega
  · unfold isBlank
    rw [toNat_toLower, if_neg h]

theorem digitValue_toLower (c : Char) : digitValue c.toLower = digitValue c := by
  unfold digitValue
  rw [toNat_toLower]
  simp only
  split
  · rw [if_neg (by omega), if_neg (by omega : ¬ (48 ≤ c.toNat ∧ c.toNat ≤ 57)),
      if_neg (by omega : ¬ (97 ≤ c.toNat ∧ c.toNat ≤ 102))]
    by_cases h : c.toNat ≤ 70
    · rw [if_pos (by omega), if_pos (by omega)]
      exact congrArg some (by omega)
    · rw [if_neg (by omega), if_neg (by omega), if_neg (by omega)]
  · rfl

/-! ## Texts -/

/-- The text with its ASCII letters in lower case. -/
def lower (s : Text) : Text := s.map Char.toLower

@[simp] theorem lower_cons (c : Char) (s : Text) : lower (c :: s) = c.toLower :: lower s := rfl

@[simp] theorem lower_lower (s : Text) : lower (lower s) = lower s := by
  unfold lower
  rw [List.map_map]
  exact List.map_congr_left fun c _ => toLower_toLower c

@[simp] theorem lower_eq_nil_iff {s : Text} : lower s = [] ↔ s = [] := List.map_eq_nil_iff

@[simp] theorem isEmpty_lower (s : Text) : (lower s).isEmpty = s.isEmpty := List.isEmpty_map

theorem dropWhile_isBlank_lower (s : Text) :
    (lower s).dropWhile isBlank = lower (s.dropWhile isBlank) := by
  unfold lower
  rw [List.dropWhile_map, show isBlank ∘ Char.toLower = isBlank from funext isBlank_toLower]

theorem trimStart_lower (s : Text) : trimStart (lower s) = lower (trimStart s) :=
  dropWhile_isBlank_lower s

theorem reverse_lower (s : Text) : (lower s).reverse = lower s.reverse := List.map_reverse.symm

theorem trim_lower (s : Text) : trim (lower s) = lower (trim s) := by
  unfold trim trimEnd
  rw [trimStart_lower, reverse_lower, dropWhile_isBlank_lower, reverse_lower]

section Separators

variable {sep : Char} (hsep : ∀ c, c.toLower = sep ↔ c = sep)
include hsep

theorem pieces_lower (s : Text) : pieces sep (lower s) = (pieces sep s).map lower := by
  induction s with
  | nil => rfl
  | cons c s ih =>
    rw [lower_cons, pieces, pieces, ih]
    by_cases hc : c = sep
    · rw [if_pos ((hsep c).mpr hc), if_pos hc]
      rfl
    · rw [if_neg fun h => hc ((hsep c).mp h), if_neg hc]
      cases pieces sep s <;> rfl

theorem cutFirst_lower (s : Text) :
    cutFirst sep (lower s) = (cutFirst sep s).map (Prod.map lower lower) := by
  induction s with
  | nil => rfl
  | cons c s ih =>
    rw [lower_cons, cutFirst, cutFirst, ih]
    by_cases hc : c = sep
    · rw [if_pos ((hsep c).mpr hc), if_pos hc]
      rfl
    · rw [if_neg fun h => hc ((hsep c).mp h), if_neg hc]
      cases cutFirst sep s <;> rfl

end Separators

/-! ## Numerals -/

theorem readDigits_lower (base acc : Nat) (s : Text) :
    readDigits base acc (lower s) = readDigits base acc s := by
  induction s generalizing acc with
  | nil => rfl
  | cons c s ih =>
    rw [lower_cons, readDigits, readDigits]
    unfold digit?
    rw [digitValue_toLower]
    split
    · exact ih _
    · rfl

theorem readNat_lower (base : Nat) (s : Text) : readNat base (lower s) = readNat base s := by
  unfold readNat
  rw [isEmpty_lower, readDigits_lower]

theorem numeral_lower (s : Text) : numeral (lower s) = numeral s := by
  fun_cases numeral s with
  | case1 digits => exact readNat_lower 16 digits
  | case2 digits => exact readNat_lower 16 digits
  | case3 s hsmall hcapital =>
    have hzero := toLower_eq_iff '0' (by decide) (by decide)
    have hx := toLower_eq_letter_iff 'x' 'X' (by decide) (by decide)
    rw [numeral.eq_3, readNat_lower]
    · rintro digits hdigits
      obtain ⟨c, rest, rfl, hc, hrest⟩ := List.map_eq_cons_iff.mp hdigits
      obtain ⟨d, rest, rfl, hd, -⟩ := List.map_eq_cons_iff.mp hrest
      obtain rfl := (hzero c).mp hc
      rcases (hx d).mp hd with rfl | rfl
      · exact hcapital rest rfl
      · exact hsmall rest rfl
    · rintro digits hdigits
      obtain ⟨c, rest, rfl, -, hrest⟩ := List.map_eq_cons_iff.mp hdigits
      obtain ⟨d, rest, rfl, hd, -⟩ := List.map_eq_cons_iff.mp hrest
      exact toLower_ne_capital (by decide) d hd

end Text

/-! ## Lines -/

namespace Line

theorem cutTopLevel_lower (depth : Nat) (s : Text) :
    cutTopLevel depth (Text.lower s) =
      (cutTopLevel depth s).map (·.map (Prod.map Text.lower Text.lower)) := by
  have hopen := Text.toLower_eq_iff '(' (by decide) (by decide)
  have hclose := Text.toLower_eq_iff ')' (by decide) (by decide)
  have hcomma := Text.toLower_eq_iff ',' (by decide) (by decide)
  fun_induction cutTopLevel depth s with
  | case1 => rfl
  | case2 depth hdepth => exact if_neg hdepth
  | case3 depth s ih =>
    show cutTopLevel depth ('(' :: Text.lower s) = _
    rw [cutTopLevel_opening, ih]
    rcases cutTopLevel (depth + 1) s with - | - | cut <;> rfl
  | case4 s => rfl
  | case5 s depth _ ih =>
    show cutTopLevel (depth + 1) (')' :: Text.lower s) = _
    rw [cutTopLevel_closing, ih]
    rcases cutTopLevel depth s with - | - | cut <;> rfl
  | case6 depth c s hc hc' ih =>
    rw [Text.lower_cons, cutTopLevel_cons (mt (hopen c).mp hc) (mt (hclose c).mp hc'), ih]
    rcases cutTopLevel depth s with - | - | cut
    · rfl
    · simp only [Option.map_some, Option.map_none, hcomma]
      split <;> rfl
    · rfl

end Line

/-! ## Names and coordinates -/

namespace Symbol

theorem stickLetter_lower (s : Text) :
    stickLetter (Text.lower s) = (stickLetter s).map (Prod.map id Text.lower) := by
  cases s with
  | nil => rfl
  | cons c s =>
    have hleft : (c.toLower = 'L' ∨ c.toLower = 'l') ↔ (c = 'L' ∨ c = 'l') := by
      rw [or_iff_right (Text.toLower_ne_capital (by decide) c)]
      exact Text.toLower_eq_letter_iff 'l' 'L' (by decide) (by decide) c
    have hright : (c.toLower = 'R' ∨ c.toLower = 'r') ↔ (c = 'R' ∨ c = 'r') := by
      rw [or_iff_right (Text.toLower_ne_capital (by decide) c)]
      exact Text.toLower_eq_letter_iff 'r' 'R' (by decide) (by decide) c
    simp only [Text.lower_cons, stickLetter, hleft, hright]
    split
    · rfl
    · split <;> rfl

theorem find_lower {α : Type} (table : List (Text × α)) (name : Text) :
    find table (Text.lower name) = find table name := find_congr (Text.lower_lower name)

theorem lookup_lower (name : Text) : lookup (Text.lower name) = lookup name := by
  have hcardinal : findCardinal (Text.lower name) = findCardinal name := by
    unfold findCardinal
    rw [stickLetter_lower]
    cases stickLetter name with
    | none => rfl
    | some result =>
      show (find cardinals (Text.lower result.2) >>= _) = _
      rw [find_lower]
      rfl
  unfold lookup
  rw [find_lower, find_lower, hcardinal]

theorem isRestWord_lower (name : Text) : isRestWord (Text.lower name) = isRestWord name := by
  have hname : (Text.lower name).map Char.toLower = name.map Char.toLower := Text.lower_lower name
  unfold isRestWord Text.sameLetters
  rw [hname]

end Symbol

/-- The coordinate in lower case. -/
def Axis.lower : Axis → Axis
  | .value v => .value v
  | .outOfRange text => .outOfRange (Text.lower text)

theorem Axis.ofText_of_minus {text digits : Text} (h : Text.trim text = '-' :: digits) :
    ofText text =
      (Text.numeral (Text.trim digits)).map fun _ => .outOfRange (Text.trim text) := by
  simp only [ofText, h]

theorem Axis.ofText_of_not_minus {text : Text} (h : ∀ digits, Text.trim text ≠ '-' :: digits) :
    ofText text = (Text.numeral (Text.trim text)).map fun n =>
      if n < UInt8.size then .value (UInt8.ofNat n) else .outOfRange (Text.trim text) := by
  simp only [ofText]

theorem Axis.ofText_lower (text : Text) : ofText (Text.lower text) = (ofText text).map lower := by
  have hminus := Text.toLower_eq_iff '-' (by decide) (by decide)
  by_cases h : ∃ digits, Text.trim text = '-' :: digits
  · obtain ⟨digits, hdigits⟩ := h
    have hlower : Text.trim (Text.lower text) = '-' :: Text.lower digits := by
      rw [Text.trim_lower, hdigits]
      rfl
    rw [ofText_of_minus hdigits, ofText_of_minus hlower, Text.trim_lower, Text.trim_lower,
      Text.numeral_lower, Option.map_map]
    rfl
  · have hlower : ∀ digits, Text.trim (Text.lower text) ≠ '-' :: digits := by
      intro digits hdigits
      rw [Text.trim_lower] at hdigits
      obtain ⟨c, rest, hrest, hc, -⟩ := List.map_eq_cons_iff.mp hdigits
      rw [(hminus c).mp hc] at hrest
      exact h ⟨rest, hrest⟩
    rw [ofText_of_not_minus (not_exists.mp h), ofText_of_not_minus hlower, Text.trim_lower,
      Text.numeral_lower, Option.map_map]
    refine congrArg (Option.map · _) (funext fun n => ?_)
    simp only [Function.comp_apply]
    split <;> rfl

namespace Token

theorem parenthesised_lower (s : Text) :
    parenthesised (Text.lower s) = (parenthesised s).map Text.lower := by
  have hopen := Text.toLower_eq_iff '(' (by decide) (by decide)
  have hclose := Text.toLower_eq_iff ')' (by decide) (by decide)
  refine Option.ext fun inner => ?_
  rw [parenthesised_eq_some_iff, Option.map_eq_some_iff]
  simp only [parenthesised_eq_some_iff]
  constructor
  · intro h
    obtain ⟨c, rest, rfl, hc, hrest⟩ := List.map_eq_cons_iff.mp h
    obtain ⟨before, after, rfl, hbefore, hafter⟩ := List.map_eq_append_iff.mp hrest
    obtain ⟨d, rfl, hd⟩ := List.map_eq_singleton_iff.mp hafter
    obtain rfl := (hopen c).mp hc
    obtain rfl := (hclose d).mp hd
    exact ⟨before, rfl, hbefore⟩
  · rintro ⟨before, rfl, rfl⟩
    simp [Text.lower]

theorem coordinate?_lower (token : Text) :
    coordinate? (Text.lower token) =
      (coordinate? token).map fun (stick, x, y) => (stick, x.lower, y.lower) := by
  have hcomma := Text.toLower_eq_iff ',' (by decide) (by decide)
  simp only [coordinate?, bind, Symbol.stickLetter_lower, Option.bind_map, Option.map_bind,
    Function.comp_def, Prod.map, Text.trimStart_lower, parenthesised_lower,
    Text.cutFirst_lower hcomma, Axis.ofText_lower]
  rfl

end Token

/-! ## Results -/

/-- The results say the same: values that are related, or faults of one kind. -/
inductive SameVerdict {α β : Type} (R : α → β → Prop) :
    Except Fault α → Except Fault β → Prop
  | ok {a : α} {b : β} : R a b → SameVerdict R (.ok a) (.ok b)
  | error {f g : Fault} : f.kind = g.kind → SameVerdict R (.error f) (.error g)

namespace SameVerdict

variable {α β γ δ : Type} {R : α → β → Prop} {S : γ → δ → Prop}

theorem bind {x : Except Fault α} {y : Except Fault β} (h : SameVerdict R x y)
    {f : α → Except Fault γ} {g : β → Except Fault δ}
    (hfg : ∀ a b, R a b → SameVerdict S (f a) (g b)) : SameVerdict S (x >>= f) (y >>= g) := by
  cases h with
  | ok hab => exact hfg _ _ hab
  | error hkind => exact .error hkind

theorem symm {x y : Except Fault α} (h : SameVerdict Eq x y) : SameVerdict Eq y x := by
  cases h with
  | ok hab => exact .ok hab.symm
  | error hkind => exact .error hkind.symm

theorem trans {x y z : Except Fault α} (h : SameVerdict Eq x y) (h' : SameVerdict Eq y z) :
    SameVerdict Eq x z := by
  cases h with
  | ok hab =>
    cases h' with
    | ok hbc => exact .ok (hab.trans hbc)
  | error hkind =>
    cases h' with
    | error hkind' => exact .error (hkind.trans hkind')

/-- Steps that say the same make runs that say the same. -/
theorem foldlM {f g : α → γ → Except Fault α} (h : ∀ a c, SameVerdict Eq (f a c) (g a c))
    (l : List γ) (a : α) : SameVerdict Eq (l.foldlM f a) (l.foldlM g a) := by
  induction l generalizing a with
  | nil => exact .ok rfl
  | cons c l ih =>
    rw [List.foldlM_cons, List.foldlM_cons]
    refine (h a c).bind ?_
    rintro next _ rfl
    exact ih next

/-- Results that say the same are the same value, or faults with one code on the line that both are
put on. -/
theorem locate {x y : Except Fault α} (h : SameVerdict Eq x y) (number : Nat)
    (origin : Option Path) :
    (∃ a, x.mapError (·.locate number origin) = .ok a ∧
      y.mapError (·.locate number origin) = .ok a) ∨
    ∃ e e', x.mapError (·.locate number origin) = .error e ∧
      y.mapError (·.locate number origin) = .error e' ∧
      e.fault.code = e'.fault.code ∧ e.line = e'.line := by
  cases h with
  | @ok a b hab => exact .inl ⟨b, congrArg Except.ok hab, rfl⟩
  | error hkind => exact .inr ⟨_, _, rfl, rfl, congrArg Fault.Kind.code hkind, rfl⟩

end SameVerdict

/-! ## Expressions and durations -/

/-- The token in lower case. -/
def Token.lower : Token → Token
  | .unknown name => .unknown (Text.lower name)
  | t => t

theorem Axis.get_lower (token : Text) (axis : Axis) :
    SameVerdict Eq (axis.lower.get (Text.lower token)) (axis.get token) := by
  cases axis with
  | value v => exact .ok rfl
  | outOfRange text => exact .error rfl

theorem Token.classify_lower (token : Text) :
    SameVerdict (fun t t' => t = t'.lower) (classify (Text.lower token)) (classify token) := by
  cases hcoordinate : coordinate? token with
  | none =>
    have hlower : coordinate? (Text.lower token) = none := by
      rw [coordinate?_lower, hcoordinate]
      rfl
    rw [classify_of_not_coordinate hcoordinate, classify_of_not_coordinate hlower,
      Symbol.lookup_lower]
    cases Symbol.lookup token <;> exact .ok rfl
  | some parts =>
    obtain ⟨stick, x, y⟩ := parts
    have hlower : coordinate? (Text.lower token) = some (stick, x.lower, y.lower) := by
      rw [coordinate?_lower, hcoordinate]
      rfl
    rw [classify_of_coordinate? hcoordinate, classify_of_coordinate? hlower]
    refine (Axis.get_lower token x).bind ?_
    rintro x _ rfl
    refine (Axis.get_lower token y).bind ?_
    rintro y _ rfl
    exact .ok rfl

theorem Held.add_lower (expression : Text) (h : Held) (token : Text) :
    SameVerdict Eq (Held.add (Text.lower expression) h (Text.lower token))
      (Held.add expression h token) := by
  refine (Token.classify_lower token).bind ?_
  rintro _ t rfl
  cases t with
  | symbol s => exact .ok rfl
  | coordinate stick position => exact .ok rfl
  | unknown name => exact .error rfl

namespace Expression

theorem tokens_lower (expression : Text) :
    tokens (Text.lower expression) = (tokens expression).map Text.lower := by
  have hplus := Text.toLower_eq_iff '+' (by decide) (by decide)
  have htrim : Text.trim ∘ Text.lower = Text.lower ∘ Text.trim := funext Text.trim_lower
  unfold tokens
  rw [Text.pieces_lower hplus, List.map_map, htrim, ← List.map_map, List.filter_map]
  refine congrArg (List.map Text.lower) (List.filter_congr fun token _ => ?_)
  simp

theorem encode_lower (expression : Text) :
    SameVerdict Eq (encode (Text.lower expression)) (encode expression) := by
  unfold encode
  simp only [Text.trim_lower, Text.isEmpty_lower, Symbol.isRestWord_lower, tokens_lower,
    List.foldlM_map]
  split
  · exact .ok rfl
  · refine (SameVerdict.foldlM (Held.add_lower _) _ _).bind ?_
    rintro held _ rfl
    exact .ok rfl

end Expression

namespace Line

theorem split_lower (line : Text) :
    SameVerdict (fun p q => p = Prod.map Text.lower Text.lower q) (split (Text.lower line))
      (split line) := by
  unfold split
  rw [cutTopLevel_lower]
  rcases cutTopLevel 0 line with - | - | ⟨expression, duration⟩
  · exact .error rfl
  · exact .error rfl
  · refine .ok ?_
    simp only [Prod.map, Text.trim_lower]

theorem duration_lower (text : Text) :
    SameVerdict Eq (duration (Text.lower text)) (duration text) := by
  unfold duration
  rw [Text.trim_lower, Text.numeral_lower]
  split
  · exact .error rfl
  · split
    · exact .ok rfl
    · exact .error rfl

end Line

namespace Script

/-- A line is compiled as its lower case is. -/
theorem compileLine_lower (body : Text) (clock : Millis) :
    SameVerdict Eq (compileLine (Text.lower body) clock) (compileLine body clock) := by
  refine (Line.split_lower body).bind ?_
  rintro _ ⟨expression, duration⟩ rfl
  refine (Expression.encode_lower expression).bind ?_
  rintro packet _ rfl
  refine (Line.duration_lower duration).bind ?_
  rintro millis _ rfl
  cases Millis.add? clock millis with
  | some next => exact .ok rfl
  | none => exact .error rfl

/-- **Input lines do not tell upper from lower case.** Two lines that differ in the case of ASCII
letters only send the same frame and end at the same time, or they are refused on the same line with
the same code. -/
theorem compileLine_of_sameLetters {first second : Text}
    (h : Text.sameLetters first second = true) (number : Nat) (origin : Option Path)
    (clock : Millis) :
    (∃ result : Frame × Millis,
      (compileLine first clock).mapError (·.locate number origin) = .ok result ∧
      (compileLine second clock).mapError (·.locate number origin) = .ok result) ∨
    ∃ e e',
      (compileLine first clock).mapError (·.locate number origin) = .error e ∧
      (compileLine second clock).mapError (·.locate number origin) = .error e' ∧
      e.fault.code = e'.fault.code ∧ e.line = e'.line := by
  have hlower : Text.lower first = Text.lower second := eq_of_beq h
  have hfirst := (compileLine_lower first clock).symm
  rw [hlower] at hfirst
  exact (hfirst.trans (compileLine_lower second clock)).locate number origin

/-- Every kind of letter that a line can hold, and a line that is refused for a coordinate before
it is refused for a name. -/
theorem compileLine_of_sameLetters_mixed :
    Text.sameLetters "zl+lUp + r(0XfF, 3)+Left,0x1E".toList
        "ZL+LUP + R(0xFF, 3)+LEFT,0X1e".toList = true ∧
      (compileLine "zl+lUp + r(0XfF, 3)+Left,0x1E".toList 7).mapError (·.locate 4 none) =
        .ok (⟨7, .ofParts 64 6 ⟨128, 255⟩ ⟨255, 3⟩⟩, 37) ∧
      (compileLine "ZL+LUP + R(0xFF, 3)+LEFT,0X1e".toList 7).mapError (·.locate 4 none) =
        .ok (⟨7, .ofParts 64 6 ⟨128, 255⟩ ⟨255, 3⟩⟩, 37) ∧
      Text.sameLetters "a+l(0x1ff,0)+jump,5".toList "A+L(0X1FF,0)+JUMP,5".toList = true ∧
      ∃ e, (compileLine "A+L(0X1FF,0)+JUMP,5".toList 7).mapError (·.locate 4 none) = .error e ∧
        e.fault.code = "E1003".toList ∧ e.line = 4 := by
  have hmixed : Text.sameLetters "zl+lUp + r(0XfF, 3)+Left,0x1E".toList
      "ZL+LUP + R(0xFF, 3)+LEFT,0X1e".toList = true := by decide
  have hrefused : Text.sameLetters "a+l(0x1ff,0)+jump,5".toList
      "A+L(0X1FF,0)+JUMP,5".toList = true := by decide
  have hfirst : (compileLine "zl+lUp + r(0XfF, 3)+Left,0x1E".toList 7).mapError
      (·.locate 4 none) = .ok (⟨7, .ofParts 64 6 ⟨128, 255⟩ ⟨255, 3⟩⟩, 37) := by decide +kernel
  have hfault : (compileLine "a+l(0x1ff,0)+jump,5".toList 7).mapError (·.locate 4 none) =
      .error ⟨.stickOutOfRange "0x1ff".toList "l(0x1ff,0)".toList, 4, none⟩ := by decide +kernel
  refine ⟨hmixed, hfirst, ?_, hrefused, ?_⟩
  · obtain ⟨result, hresult, hsecond⟩ | ⟨e, e', he, -⟩ :=
      compileLine_of_sameLetters hmixed 4 none 7
    · rw [hfirst] at hresult
      rw [hsecond, hresult]
    · rw [hfirst] at he
      cases he
  · obtain ⟨result, hresult, -⟩ | ⟨e, e', he, he', hcode, hline⟩ :=
      compileLine_of_sameLetters hrefused 4 none 7
    · rw [hfault] at hresult
      cases hresult
    · rw [hfault] at he
      cases he
      exact ⟨e', he', hcode.symm, hline.symm⟩

end Script

end PadScript
