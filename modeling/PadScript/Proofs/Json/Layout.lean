import Mathlib.Data.List.Forall2
import PadScript.Json.Value
import PadScript.Proofs.Json.Word

/-!
# Words laid out in text

`Laid words text` says that the text holds the words in order, with any blanks before, between and
after them. `Takes reader words value` says that the reader reads the value from the words, however
they are laid out, and leaves the words after them.

1. Blanks before a word are passed over (`Laid.skipSpace`), and a word that a mark or a blank
   follows is read whole.
2. Brackets are read part by part: the parts of a list stand between commas (`separated`), and
   what is taken of each part is taken of the list (`takes_array`).
-/

namespace PadScript.Json

/-! ## Layouts -/

/-- The characters that may stand between words. -/
def isGap (c : Char) : Bool := c = ' ' || c = '\t' || c = '\n' || c = '\r'

/-- The text holds the words in order, with blanks before, between and after them. -/
inductive Laid : List Word → Text → Prop
  | done {gap : Text} : (∀ c ∈ gap, isGap c = true) → Laid [] gap
  | word {gap : Text} {w : Word} {words : List Word} {rest : Text} :
      (∀ c ∈ gap, isGap c = true) → Laid words rest → Laid (w :: words) (gap ++ w.text ++ rest)

theorem isGap_cases {c : Char} (h : isGap c = true) : c = ' ' ∨ c = '\t' ∨ c = '\n' ∨ c = '\r' := by
  unfold isGap at h
  simp only [Bool.or_eq_true, decide_eq_true_eq, or_assoc] at h
  exact h

theorem skipSpace_gap {gap : Text} (h : ∀ c ∈ gap, isGap c = true) (bytes : Bytes) :
    skipSpace (Utf8.encode gap ++ bytes) = skipSpace bytes := by
  induction gap with
  | nil => rfl
  | cons c gap ih =>
    have hrest := ih fun d hd => h d (List.mem_cons_of_mem _ hd)
    have hc : c.toNat < 128 ∧ isSpace (Utf8.asciiByte c) = true := by
      rcases isGap_cases (h c List.mem_cons_self) with rfl | rfl | rfl | rfl <;> decide
    rw [Utf8.encode_cons_of_ascii hc.1, List.cons_append, skipSpace,
      List.dropWhile_cons_of_pos hc.2]
    exact hrest

namespace Word

/-- A word starts with a byte that is no blank, and a value not with the end of a list. -/
theorem exists_byte (w : Word) : ∃ b tail, w.bytes = b :: tail ∧ isSpace b = false ∧
    (w.opensValue = true → b ≠ 0x5D) := by
  cases w with
  | opening bracket => cases bracket <;> exact ⟨_, _, rfl, by decide, by decide⟩
  | closing bracket => cases bracket <;> exact ⟨_, _, rfl, by decide, by decide⟩
  | comma => exact ⟨_, _, rfl, by decide, by decide⟩
  | colon => exact ⟨_, _, rfl, by decide, by decide⟩
  | natural n =>
    obtain ⟨b, tail, hbytes, hb⟩ := exists_digit n
    have hspace : isSpace b = false := by
      cases hspace : isSpace b with
      | false => rfl
      | true =>
        unfold isSpace at hspace
        simp only [Bool.or_eq_true, decide_eq_true_eq] at hspace
        rcases hspace with ((rfl | rfl) | rfl) | rfl <;> exact absurd hb (by decide)
    refine ⟨b, tail, hbytes, hspace, ?_⟩
    rintro - rfl
    exact absurd hb (by decide)
  | string content => exact ⟨_, _, rfl, by decide, fun _ => by decide⟩

theorem skipSpace_bytes (w : Word) (rest : Bytes) :
    skipSpace (w.bytes ++ rest) = w.bytes ++ rest := by
  obtain ⟨b, tail, hbytes, hb, -⟩ := w.exists_byte
  rw [hbytes, List.cons_append, skipSpace, List.dropWhile_cons_of_neg]
  rw [hb]
  exact Bool.false_ne_true

end Word

namespace Laid

variable {w : Word} {words more : List Word} {text : Text}

theorem skipSpace (h : Laid (w :: words) text) : ∃ rest, Laid words rest ∧
    Json.skipSpace (Utf8.encode text) = w.bytes ++ Utf8.encode rest := by
  cases h with
  | @word gap _ _ rest hgap hrest =>
    refine ⟨rest, hrest, ?_⟩
    rw [List.append_assoc, Utf8.encode_append, skipSpace_gap hgap, Utf8.encode_append]
    exact w.skipSpace_bytes _

theorem skipSpace_nil (h : Laid [] text) : Json.skipSpace (Utf8.encode text) = [] := by
  cases h with
  | done hgap =>
    have hskip := skipSpace_gap hgap []
    rw [List.append_nil] at hskip
    exact hskip

/-- Words may start without a blank. -/
theorem flush {rest : Text} (h : Laid words rest) (w : Word) : Laid (w :: words) (w.text ++ rest) :=
  @Laid.word [] w words rest (fun _ hc => absurd hc List.not_mem_nil) h

theorem gap_append {gap : Text} (hgap : ∀ c ∈ gap, isGap c = true) (h : Laid words text) :
    Laid words (gap ++ text) := by
  cases h with
  | done hdone => exact .done (List.forall_mem_append.mpr ⟨hgap, hdone⟩)
  | word hword hrest =>
    rw [← List.append_assoc, ← List.append_assoc]
    exact .word (List.forall_mem_append.mpr ⟨hgap, hword⟩) hrest

/-- Layouts one after the other lay out the words one after the other. -/
theorem append (h : Laid words text) {other : Text} (hmore : Laid more other) :
    Laid (words ++ more) (text ++ other) := by
  induction h with
  | done hgap => exact hmore.gap_append hgap
  | word hgap _ ih =>
    rw [List.append_assoc]
    exact .word hgap ih

theorem of_word (w : Word) : Laid [w] w.text := by
  have h := (Laid.done (fun _ hc => absurd hc List.not_mem_nil) : Laid [] []).flush w
  rwa [List.append_nil] at h

theorem length_le (h : Laid words text) : words.length ≤ (Utf8.encode text).length := by
  induction h with
  | done => exact Nat.zero_le _
  | @word gap w words rest _ _ ih =>
    obtain ⟨b, tail, hbytes, -⟩ := w.exists_byte
    have hw : (Utf8.encode w.text).length = tail.length + 1 := by
      rw [show Utf8.encode w.text = b :: tail from hbytes, List.length_cons]
    rw [Utf8.encode_append, Utf8.encode_append, List.length_append, List.length_append,
      List.length_cons]
    omega

end Laid

/-- Whether the text holds the words in order, with blanks around them. -/
def laysOut : List Word → Text → Bool
  | [], text => text.all isGap
  | w :: words, text =>
    w.text.isPrefixOf (text.dropWhile isGap) &&
      laysOut words ((text.dropWhile isGap).drop w.text.length)

theorem laid_of_laysOut {words : List Word} {text : Text} (h : laysOut words text = true) :
    Laid words text := by
  induction words generalizing text with
  | nil => exact .done (List.all_eq_true.mp h)
  | cons w words ih =>
    rw [laysOut, Bool.and_eq_true, List.isPrefixOf_iff_prefix] at h
    obtain ⟨⟨rest, hrest⟩, hwords⟩ := h
    rw [← hrest, List.drop_left] at hwords
    have hgap : ∀ c ∈ text.takeWhile isGap, isGap c = true := fun c hc =>
      List.mem_takeWhile_imp hc
    have hlaid : Laid (w :: words) (text.takeWhile isGap ++ w.text ++ rest) :=
      .word hgap (ih hwords)
    rwa [List.append_assoc, hrest, List.takeWhile_append_dropWhile] at hlaid

/-- The next word, if there is one, is a mark. -/
def MarkNext (more : List Word) : Prop := ∀ w ∈ more.head?, w.isMark = true

/-- What follows a number, be it a mark, a blank or the end, does not belong to it. -/
theorem Laid.endsNumber {more : List Word} {rest : Text} (h : Laid more rest)
    (hmark : MarkNext more) : EndsNumber (Utf8.encode rest) := by
  have hgap : ∀ c, isGap c = true → ∀ tail, EndsNumber (Utf8.encode (c :: tail)) := by
    intro c hc tail b hb
    have hascii : c.toNat < 128 := by
      rcases isGap_cases hc with rfl | rfl | rfl | rfl <;> decide
    rw [Utf8.encode_cons_of_ascii hascii, List.head?_cons, Option.mem_some_iff] at hb
    subst hb
    rcases isGap_cases hc with rfl | rfl | rfl | rfl <;> decide
  cases h with
  | done hdone =>
    cases rest with
    | nil => exact fun b hb => absurd hb (by simp)
    | cons c tail => exact hgap c (hdone c List.mem_cons_self) tail
  | @word gap w words rest hword _ =>
    cases gap with
    | nil =>
      have hw := hmark w rfl
      intro b hb
      cases w with
      | opening bracket => cases bracket <;> (cases hb; decide)
      | closing bracket => cases bracket <;> (cases hb; decide)
      | comma => cases hb; decide
      | colon => cases hb; decide
      | natural n => cases hw
      | string content => cases hw
    | cons c gap => exact hgap c (hword c List.mem_cons_self) _

/-! ## Taking words -/

/-- The reader reads the value from the words, if a mark or nothing follows them. -/
structure Takes {α : Type} (reader : Reader α) (words : List Word) (value : α) : Prop where
  opens : ∃ w rest, words = w :: rest ∧ w.opensValue = true
  takes : ∀ more text, MarkNext more → Laid (words ++ more) text →
    ∃ rest, Laid more rest ∧ reader (Utf8.encode text) = .ok (value, Utf8.encode rest)

variable {α β : Type}

/-- From the words alone the value is read, and reading ends behind them. -/
theorem Takes.whole {reader : Reader α} {words : List Word} {value : α}
    (h : Takes reader words value) {text : Text} (hlaid : Laid words text) :
    ∃ rest, reader (Utf8.encode text) = .ok (value, rest) ∧ finish rest = .ok ((), []) := by
  rw [← List.append_nil words] at hlaid
  obtain ⟨rest, hrest, hread⟩ := h.takes [] text (fun _ hw => by cases hw) hlaid
  refine ⟨Utf8.encode rest, hread, ?_⟩
  unfold finish
  rw [hrest.skipSpace_nil]

theorem Takes.map {reader : Reader α} {words : List Word} {value : α}
    (h : Takes reader words value) (f : α → β) :
    Takes (fun bytes => do
      let (a, rest) ← reader bytes
      return (f a, rest)) words (f value) where
  opens := h.opens
  takes more text hmark hlaid := by
    obtain ⟨rest, hrest, hread⟩ := h.takes more text hmark hlaid
    refine ⟨rest, hrest, ?_⟩
    simp only
    rw [hread]
    rfl

theorem takes_unsigned {n bound : Nat} (hn : n < bound) (hbound : bound ≤ UInt64.size)
    (expected : Text) : Takes (unsigned bound expected) [.natural n] n where
  opens := ⟨_, _, rfl, rfl⟩
  takes more text hmark hlaid := by
    obtain ⟨rest, hrest, hskip⟩ := hlaid.skipSpace
    obtain ⟨b, tail, hbytes, hb⟩ := exists_digit n
    have hnumber := number_natural (n := n) (Nat.le_sub_one_of_lt (hn.trans_le hbound))
      (hrest.endsNumber hmark)
    rw [hbytes, List.cons_append] at hnumber
    refine ⟨rest, hrest, ?_⟩
    unfold unsigned
    rw [hskip, show Word.bytes (.natural n) = b :: tail from hbytes, List.cons_append]
    simp only
    rw [if_pos (startsNumber_of_isDigit hb), hnumber]
    show (if n < bound then Except.ok (n, Utf8.encode rest) else _) = _
    rw [if_pos hn]

theorem takes_byte (b : UInt8) : Takes byte [.natural b.toNat] b := by
  have h := (takes_unsigned b.toNat_lt (by decide) "u8".toList).map UInt8.ofNat
  rw [UInt8.ofNat_toNat] at h
  exact h

/-! ## Marks -/

section Marks

variable {more : List Word} {text : Text}

theorem colon_laid (h : Laid (.colon :: more) text) :
    ∃ rest, Laid more rest ∧ colon (Utf8.encode text) = .ok ((), Utf8.encode rest) := by
  obtain ⟨rest, hrest, hskip⟩ := h.skipSpace
  refine ⟨rest, hrest, ?_⟩
  unfold colon
  rw [hskip]
  rfl

theorem Bracket.close_laid (bracket : Bracket) (h : Laid (.closing bracket :: more) text) :
    ∃ rest, Laid more rest ∧ bracket.close (Utf8.encode text) = .ok ((), Utf8.encode rest) := by
  obtain ⟨rest, hrest, hskip⟩ := h.skipSpace
  refine ⟨rest, hrest, ?_⟩
  unfold Bracket.close
  rw [hskip]
  cases bracket <;> rfl

/-- A bracket is read if its parts are, up to its end. -/
theorem Bracket.enclose_laid {bracket : Bracket} {parts : Reader α} {value : α} {bytes : Bytes}
    (hparts : parts bytes = .ok (value, Utf8.encode text))
    (h : Laid (.closing bracket :: more) text) :
    ∃ rest, Laid more rest ∧ bracket.enclose parts bytes = .ok (value, Utf8.encode rest) := by
  obtain ⟨rest, hrest, hclose⟩ := bracket.close_laid h
  refine ⟨rest, hrest, ?_⟩
  unfold Bracket.enclose
  rw [hparts]
  simp only
  rw [hclose]
  rfl

/-- The comma before a part of a bracket that is not the first. -/
def lead (isFirst : Bool) : List Word := if isFirst then [] else [.comma]

theorem nextItem_closing (isFirst : Bool) (h : Laid (.closing .list :: more) text) :
    nextItem isFirst (Utf8.encode text) = .ok none := by
  obtain ⟨rest, -, hskip⟩ := h.skipSpace
  unfold nextItem
  rw [hskip]
  rfl

theorem nextItem_opens {isFirst : Bool} {w : Word} (hw : w.opensValue = true)
    (h : Laid (lead isFirst ++ w :: more) text) :
    ∃ start, Laid (w :: more) start ∧
      nextItem isFirst (Utf8.encode text) = .ok (some (Utf8.encode start)) := by
  obtain ⟨b, tail, hbytes, -, hvalue⟩ := w.exists_byte
  have hb := hvalue hw
  cases isFirst with
  | true =>
    obtain ⟨rest, hrest, hskip⟩ := Laid.skipSpace h
    refine ⟨w.text ++ rest, hrest.flush w, ?_⟩
    unfold nextItem
    rw [hskip, Utf8.encode_append, show Utf8.encode w.text = b :: tail from hbytes, hbytes]
    simp only [List.cons_append]
    rw [if_neg hb, if_pos trivial]
  | false =>
    obtain ⟨middle, hmiddle, hcomma⟩ := Laid.skipSpace h
    obtain ⟨rest, hrest, hskip⟩ := hmiddle.skipSpace
    refine ⟨w.text ++ rest, hrest.flush w, ?_⟩
    unfold nextItem
    rw [hcomma, show Word.bytes .comma = [0x2C] from rfl, List.singleton_append]
    simp only
    rw [hskip, Utf8.encode_append, show Utf8.encode w.text = b :: tail from hbytes, hbytes]
    simp only [List.cons_append]
    rw [if_neg hb]
    rfl

theorem nextKey_closing (isFirst : Bool) (h : Laid (.closing .object :: more) text) :
    nextKey isFirst (Utf8.encode text) = .ok none := by
  obtain ⟨rest, -, hskip⟩ := h.skipSpace
  unfold nextKey
  rw [hskip]
  rfl

theorem string_bytes {s : Text} (rest : Text) :
    Word.bytes (.string s) ++ Utf8.encode rest =
      0x22 :: (Utf8.encode s ++ 0x22 :: Utf8.encode rest) := by
  show Utf8.encode ('"' :: (s ++ ['"'])) ++ Utf8.encode rest = _
  rw [Utf8.encode_cons_of_ascii (by decide), Utf8.encode_append, List.cons_append,
    List.append_assoc]
  rfl

/-- The next key is found and read. -/
theorem nextKey_string {isFirst : Bool} {key : Text} (hkey : Plain key)
    (h : Laid (lead isFirst ++ .string key :: more) text) :
    ∃ start rest, nextKey isFirst (Utf8.encode text) = .ok (some start) ∧
      string start = .ok (key, Utf8.encode rest) ∧ Laid more rest := by
  cases isFirst with
  | true =>
    obtain ⟨rest, hrest, hskip⟩ := Laid.skipSpace h
    rw [string_bytes] at hskip
    refine ⟨_, rest, ?_, string_plain hkey _, hrest⟩
    unfold nextKey
    rw [hskip]
    rfl
  | false =>
    obtain ⟨middle, hmiddle, hcomma⟩ := Laid.skipSpace h
    obtain ⟨rest, hrest, hskip⟩ := hmiddle.skipSpace
    rw [string_bytes] at hskip
    refine ⟨_, rest, ?_, string_plain hkey _, hrest⟩
    unfold nextKey
    rw [hcomma, show Word.bytes .comma = [0x2C] from rfl, List.singleton_append]
    simp only
    rw [hskip]
    rfl

end Marks

/-! ## Lists -/

/-- Parts of a bracket with commas between them; before the first as well if it is not the first
of the bracket. -/
def separated (isFirst : Bool) : List (List Word) → List Word
  | [] => []
  | part :: parts => lead isFirst ++ (part ++ separated false parts)

theorem markNext_separated (parts : List (List Word)) {more : List Word} (h : MarkNext more) :
    MarkNext (separated false parts ++ more) := by
  cases parts with
  | nil => exact h
  | cons part parts =>
    intro w hw
    cases hw
    rfl

theorem markNext_closing (bracket : Bracket) (more : List Word) :
    MarkNext (.closing bracket :: more) := by
  intro w hw
  cases hw
  rfl

theorem length_le_separated {item : Reader α} {parts : List (List Word)} {values : List α}
    (h : List.Forall₂ (Takes item) parts values) (isFirst : Bool) :
    parts.length ≤ (separated isFirst parts).length := by
  induction h generalizing isFirst with
  | nil => exact Nat.zero_le _
  | @cons part _ parts _ htakes _ ih =>
    obtain ⟨w, rest, rfl, -⟩ := htakes.opens
    have := ih false
    rw [separated, List.length_cons, List.length_append, List.length_append, List.length_cons]
    omega

/-- The first of separated parts is reached, and the reader takes it. -/
theorem nextItem_part {item : Reader α} {part : List Word} {value : α}
    (h : Takes item part value) {isFirst : Bool} {parts : List (List Word)} {more : List Word}
    {text : Text} (hmark : MarkNext more)
    (hlaid : Laid (separated isFirst (part :: parts) ++ more) text) :
    ∃ start rest, nextItem isFirst (Utf8.encode text) = .ok (some (Utf8.encode start)) ∧
      item (Utf8.encode start) = .ok (value, Utf8.encode rest) ∧
      Laid (separated false parts ++ more) rest := by
  obtain ⟨w, words, hwords, hw⟩ := h.opens
  rw [separated, List.append_assoc, List.append_assoc, hwords, List.cons_append] at hlaid
  obtain ⟨start, hstart, hnext⟩ := nextItem_opens hw hlaid
  rw [← List.cons_append, ← hwords] at hstart
  obtain ⟨rest, hrest, hread⟩ := h.takes _ _ (markNext_separated parts hmark) hstart
  exact ⟨start, rest, hnext, hread, hrest⟩

theorem items_separated {item : Reader α} {parts : List (List Word)} {values : List α}
    (h : List.Forall₂ (Takes item) parts values) {fuel : Nat} (hfuel : parts.length < fuel)
    (isFirst : Bool) {more : List Word} {text : Text}
    (hlaid : Laid (separated isFirst parts ++ .closing .list :: more) text) :
    ∃ rest, Laid (.closing .list :: more) rest ∧
      items item fuel isFirst (Utf8.encode text) = .ok (values, Utf8.encode rest) := by
  induction h generalizing fuel isFirst text with
  | nil =>
    cases fuel with
    | zero => exact absurd hfuel (Nat.not_lt_zero _)
    | succ fuel =>
      refine ⟨text, hlaid, ?_⟩
      rw [items, nextItem_closing isFirst hlaid]
      rfl
  | cons htakes _ ih =>
    cases fuel with
    | zero => exact absurd hfuel (Nat.not_lt_zero _)
    | succ fuel =>
      obtain ⟨start, middle, hnext, hread, hmiddle⟩ :=
        nextItem_part htakes (markNext_closing .list more) hlaid
      obtain ⟨rest, hrest, hitems⟩ := ih (Nat.lt_of_succ_lt_succ hfuel) false hmiddle
      refine ⟨rest, hrest, ?_⟩
      rw [items, hnext]
      show (item (Utf8.encode start) >>= _) = _
      rw [hread]
      show (items item fuel false (Utf8.encode middle) >>= _) = _
      rw [hitems]
      rfl

theorem list_separated {item : Reader α} {parts : List (List Word)} {values : List α}
    (h : List.Forall₂ (Takes item) parts values) {more : List Word} {text : Text}
    (hlaid : Laid (separated true parts ++ .closing .list :: more) text) :
    ∃ rest, Laid more rest ∧ list item (Utf8.encode text) = .ok (values, Utf8.encode rest) := by
  have hfuel : parts.length < (Utf8.encode text).length + 1 := by
    have hparts := length_le_separated h true
    have hwords := hlaid.length_le
    rw [List.length_append] at hwords
    omega
  obtain ⟨middle, hmiddle, hitems⟩ := items_separated h hfuel true hlaid
  exact Bracket.enclose_laid hitems hmiddle

/-- Parts that are written one by one are related to their values one by one. -/
theorem forall₂_map {ι : Type} {R : α → β → Prop} {l : List ι} {f : ι → α} {g : ι → β}
    (h : ∀ i ∈ l, R (f i) (g i)) : List.Forall₂ R (l.map f) (l.map g) := by
  rw [List.forall₂_map_left_iff, List.forall₂_map_right_iff, List.forall₂_same]
  exact h

/-- The words of a list with these parts. -/
def listWords (parts : List (List Word)) : List Word :=
  .opening .list :: (separated true parts ++ [.closing .list])

theorem takes_array {item : Reader α} {parts : List (List Word)} {values : List α}
    (h : List.Forall₂ (Takes item) parts values) (expected : Text) :
    Takes (array expected item) (listWords parts) values where
  opens := ⟨_, _, rfl, rfl⟩
  takes more text _ hlaid := by
    rw [listWords, List.cons_append, List.append_assoc] at hlaid
    obtain ⟨inner, hinner, hskip⟩ := hlaid.skipSpace
    obtain ⟨rest, hrest, hlist⟩ := list_separated h hinner
    refine ⟨rest, hrest, ?_⟩
    unfold array
    rw [hskip]
    exact hlist

end PadScript.Json
