import PadScript.Inspect
import PadScript.Proofs.Spelling

/-!
# Rows of the table for people

A row shows its frame without ambiguity: two frames have the same row exactly if they agree in all
that a row is meant to show (`row_eq_row_iff`).

1. The fields of a row are padded, and may be longer than their columns. But no field holds a space,
   so the words of a row are its fields and the bars between them, whatever the padding
   (`words_row`).
2. The names between the plus signs are the names of the held buttons (`namesIn_buttonsText`), and
   these tell every bit of the mask that is a button (`buttonNames_eq_iff`).
3. A direction without a name is shown after a question mark, which no name holds.
-/

namespace PadScript

/-! ## Words -/

namespace Text

/-- What stands between the spaces of a text. -/
def words (s : Text) : List Text := (pieces ' ' s).filter (· ≠ [])

theorem words_append_space (s t : Text) : words (s ++ ' ' :: t) = words s ++ words t := by
  unfold words
  rw [pieces_append_sep, List.filter_append]

theorem words_space (s : Text) : words (' ' :: s) = words s := words_append_space [] s

theorem words_of_not_mem {s : Text} (hne : s ≠ []) (h : ' ' ∉ s) : words s = [s] := by
  unfold words
  rw [pieces_of_not_mem h, List.filter_singleton, decide_eq_true hne]
  rfl

theorem words_padLeft (width : Nat) (s : Text) : words (padLeft width s) = words s := by
  unfold padLeft
  induction width - s.length with
  | zero => rfl
  | succ n ih => rw [List.replicate_succ, List.cons_append, words_space, ih]

theorem words_padRight (width : Nat) (s : Text) : words (padRight width s) = words s := by
  unfold padRight
  induction width - s.length with
  | zero => rw [List.replicate_zero, List.append_nil]
  | succ n ih =>
    rw [List.replicate_succ', ← List.append_assoc, words_append_space, ih]
    exact List.append_nil _

theorem words_append_bar (s t : Text) :
    words (s ++ " | ".toList ++ t) = words s ++ ['|'] :: words t := by
  have hsplit : s ++ " | ".toList ++ t = s ++ ' ' :: (['|'] ++ ' ' :: t) := by simp
  have hbar : words ['|'] = [['|']] := words_of_not_mem (by decide) (by decide)
  rw [hsplit, words_append_space, words_append_space, hbar]
  rfl

theorem words_ofNat (n : Nat) : words (ofNat n) = [ofNat n] :=
  words_of_not_mem (ofNat_ne_nil n) (not_mem_ofNat (by decide) n)

theorem ofNat_injective : Function.Injective ofNat := by
  intro m n h
  have hread := readDigits_ofNat m
  rw [h, readDigits_ofNat] at hread
  exact (Option.some.inj hread).symm

end Text

/-! ## Names -/

namespace Symbol

theorem buttonNames_congr {mask other : UInt16}
    (h : mask.toNat % 2 ^ 14 = other.toNat % 2 ^ 14) : buttonNames mask = buttonNames other := by
  unfold buttonNames
  congr 1
  refine List.filter_congr fun entry hentry => ?_
  have hbit := bit_lt_of_mem_buttons hentry
  have htest : (mask.toNat % 2 ^ 14).testBit entry.2 = (other.toNat % 2 ^ 14).testBit entry.2 := by
    rw [h]
  rw [Nat.testBit_mod_two_pow, Nat.testBit_mod_two_pow, decide_eq_true hbit] at htest
  exact htest

/-- A button is named exactly if its bit is set. -/
theorem mem_buttonNames_iff {entry : Text × Nat} (h : entry ∈ buttons) (mask : UInt16) :
    entry.1 ∈ buttonNames mask ↔ mask.toNat.testBit entry.2 = true := by
  have hnames : ∀ a ∈ buttons, ∀ b ∈ buttons, a.1 = b.1 → a = b := by decide
  unfold buttonNames
  rw [List.mem_map]
  constructor
  · rintro ⟨other, hother, hname⟩
    obtain ⟨hmem, hbit⟩ := List.mem_filter.mp hother
    obtain rfl := hnames other hmem entry h hname
    exact hbit
  · exact fun hbit => ⟨entry, List.mem_filter.mpr ⟨h, hbit⟩, rfl⟩

/-- The names of the buttons of two masks are the same if the masks agree on the buttons. -/
theorem buttonNames_eq_iff {mask other : UInt16} :
    buttonNames mask = buttonNames other ↔ mask.toNat % 2 ^ 14 = other.toNat % 2 ^ 14 := by
  refine ⟨fun h => Nat.eq_of_testBit_eq fun k => ?_, buttonNames_congr⟩
  rw [Nat.testBit_mod_two_pow, Nat.testBit_mod_two_pow]
  by_cases hk : k < 14
  · have hall : ∀ k < 14, k ∈ buttons.map Prod.snd := by decide
    obtain ⟨entry, hentry, rfl⟩ := List.mem_map.mp (hall k hk)
    have hbits := mem_buttonNames_iff hentry mask
    rw [h, mem_buttonNames_iff hentry other] at hbits
    rw [Bool.eq_iff_iff.mpr hbits]
  · simp [hk]

end Symbol

/-! ## Fields -/

namespace Inspect

/-- The names between the plus signs of a text, without the sign for no button. -/
def namesIn (text : Text) : List Text := (Text.pieces '+' text).filter (· ≠ ['-'])

theorem namesIn_buttonsText (packet : Packet) :
    namesIn (buttonsText packet) = Symbol.buttonNames packet.buttons := by
  unfold namesIn buttonsText
  split
  · rename_i hnone
    rw [hnone]
    decide
  · rename_i hsome
    have hnames : ∀ name ∈ Symbol.buttonNames packet.buttons, name ∈ Symbol.allNames :=
      fun _ => Symbol.mem_allNames_of_mem_buttonNames
    have hdash : ∀ name ∈ Symbol.allNames, name ≠ ['-'] := by decide
    rw [Text.pieces_join hsome fun name hname => (isPart_of_mem_allNames (hnames name hname)).plus,
      List.filter_eq_self]
    exact fun name hname => decide_eq_true (hdash name (hnames name hname))

theorem buttonsText_eq_iff {p q : Packet} :
    buttonsText p = buttonsText q ↔ p.buttons.toNat % 2 ^ 14 = q.buttons.toNat % 2 ^ 14 := by
  rw [← Symbol.buttonNames_eq_iff]
  constructor
  · intro h
    rw [← namesIn_buttonsText p, ← namesIn_buttonsText q, h]
  · intro h
    unfold buttonsText
    rw [h]

theorem words_buttonsText (packet : Packet) :
    Text.words (buttonsText packet) = [buttonsText packet] := by
  have hspelled : Text.Spelled (buttonsText packet) := by
    unfold buttonsText
    split
    · exact .cons (by decide) fun _ h => absurd h List.not_mem_nil
    · refine .join (.cons (by decide) fun _ h => absurd h List.not_mem_nil) fun name hname => ?_
      exact (isPart_of_mem_allNames (Symbol.mem_allNames_of_mem_buttonNames hname)).spelled
  refine Text.words_of_not_mem (fun hnil => ?_) (hspelled.not_mem (by decide))
  have hnames := namesIn_buttonsText packet
  have hnone : namesIn [] = [[]] := rfl
  rw [hnil, hnone] at hnames
  have hmem : [] ∈ Symbol.buttonNames packet.buttons := by
    rw [← hnames]
    exact List.mem_singleton_self _
  exact (isPart_of_mem_allNames (Symbol.mem_allNames_of_mem_buttonNames hmem)).ne_nil rfl

/-! ### Directions -/

theorem directionText_of_name {packet : Packet} {name : Text}
    (h : Symbol.directionName packet.dpad = some name) : directionText packet = name := by
  unfold directionText
  rw [h]
  rfl

theorem directionText_of_none {packet : Packet} (h : Symbol.directionName packet.dpad = none) :
    directionText packet = '?' :: Text.ofNat packet.dpad.toNat := by
  unfold directionText
  rw [h]
  rfl

theorem isPart_of_directionName {value : UInt8} {name : Text}
    (h : Symbol.directionName value = some name) : IsPart name := by
  obtain ⟨d, hmem, -⟩ := Symbol.mem_of_directionName h
  exact isPart_of_mem_allNames (Symbol.mem_allNames_of_mem_directions hmem)

theorem value_of_directionName {value other : UInt8} {name : Text}
    (h : Symbol.directionName value = some name) (h' : Symbol.directionName other = some name) :
    value = other := by
  have hnames : ∀ a ∈ Symbol.directions, ∀ b ∈ Symbol.directions, a.1 = b.1 → a = b := by decide
  obtain ⟨d, hmem, hvalue⟩ := Symbol.mem_of_directionName h
  obtain ⟨d', hmem', hvalue'⟩ := Symbol.mem_of_directionName h'
  cases hnames _ hmem _ hmem' rfl
  exact hvalue.symm.trans hvalue'

theorem question_not_mem_of_directionName {value : UInt8} {name : Text}
    (h : Symbol.directionName value = some name) : '?' ∉ name := by
  have hall : ∀ entry ∈ Symbol.directions, '?' ∉ entry.1 := by decide
  obtain ⟨d, hmem, -⟩ := Symbol.mem_of_directionName h
  exact hall _ hmem

theorem directionText_eq_iff {p q : Packet} :
    directionText p = directionText q ↔ p.dpad = q.dpad := by
  constructor
  · intro h
    cases hp : Symbol.directionName p.dpad with
    | none =>
      rw [directionText_of_none hp] at h
      cases hq : Symbol.directionName q.dpad with
      | none =>
        rw [directionText_of_none hq] at h
        exact UInt8.toNat_inj.mp (Text.ofNat_injective (List.cons.inj h).2)
      | some name =>
        rw [directionText_of_name hq] at h
        exact absurd (by rw [← h]; exact List.mem_cons_self) (question_not_mem_of_directionName hq)
    | some name =>
      rw [directionText_of_name hp] at h
      cases hq : Symbol.directionName q.dpad with
      | none =>
        rw [directionText_of_none hq] at h
        exact absurd (by rw [h]; exact List.mem_cons_self) (question_not_mem_of_directionName hp)
      | some other =>
        rw [directionText_of_name hq] at h
        exact value_of_directionName hp (h ▸ hq)
  · intro h
    unfold directionText
    rw [h]

theorem words_directionText (packet : Packet) :
    Text.words (directionText packet) = [directionText packet] := by
  cases h : Symbol.directionName packet.dpad with
  | none =>
    rw [directionText_of_none h]
    refine Text.words_of_not_mem (List.cons_ne_nil _ _) ?_
    exact List.not_mem_cons_of_ne_of_not_mem (by decide) (Text.not_mem_ofNat (by decide) _)
  | some name =>
    have hpart := isPart_of_directionName h
    rw [directionText_of_name h]
    exact Text.words_of_not_mem hpart.ne_nil (hpart.spelled.not_mem (by decide))

/-! ## Rows -/

theorem position_of_coordinates {p q : StickPosition} (hx : p.x = q.x) (hy : p.y = q.y) :
    p = q := by
  obtain ⟨x, y⟩ := p
  cases hx
  cases hy
  rfl

theorem words_stickText (position : StickPosition) :
    Text.words (stickText position) =
      [Text.ofNat position.x.toNat, Text.ofNat position.y.toNat] := by
  unfold stickText
  rw [Text.words_append_space, Text.words_padLeft, Text.words_padLeft, Text.words_ofNat,
    Text.words_ofNat]
  rfl

/-- The words of a row are its fields and the bars between them. -/
theorem words_row (frame : Frame) :
    Text.words (row frame) =
      [Text.ofNat frame.time.toNat, ['|'], buttonsText frame.packet, ['|'],
        directionText frame.packet, ['|'],
        Text.ofNat frame.packet.left.x.toNat, Text.ofNat frame.packet.left.y.toNat, ['|'],
        Text.ofNat frame.packet.right.x.toNat, Text.ofNat frame.packet.right.y.toNat] := by
  unfold row
  simp only [Text.join, Text.words_append_bar, Text.words_padLeft, Text.words_padRight,
    Text.words_ofNat, words_buttonsText, words_directionText, words_stickText, List.cons_append,
    List.nil_append]

/-- **A row shows its frame without ambiguity.** Two frames have the same row exactly if they agree
in their times, in the bits of their buttons, in the bytes of the direction pad, named or not, and
in the positions of their sticks. -/
theorem row_eq_row_iff (f g : Frame) :
    row f = row g ↔
      f.time = g.time ∧ f.packet.buttons.toNat % 2 ^ 14 = g.packet.buttons.toNat % 2 ^ 14 ∧
        f.packet.dpad = g.packet.dpad ∧ f.packet.left = g.packet.left ∧
        f.packet.right = g.packet.right := by
  constructor
  · intro h
    have hwords := words_row f
    rw [h, words_row g] at hwords
    simp only [List.cons.injEq, Text.ofNat_injective.eq_iff, UInt32.toNat_inj, UInt8.toNat_inj,
      buttonsText_eq_iff, directionText_eq_iff, true_and, and_true] at hwords
    obtain ⟨htime, hbuttons, hdpad, hlx, hly, hrx, hry⟩ := hwords
    refine ⟨htime.symm, hbuttons.symm, hdpad.symm, ?_, ?_⟩
    · exact position_of_coordinates hlx.symm hly.symm
    · exact position_of_coordinates hrx.symm hry.symm
  · rintro ⟨htime, hbuttons, hdpad, hleft, hright⟩
    unfold row
    rw [htime, buttonsText_eq_iff.mpr hbuttons, directionText_eq_iff.mpr hdpad, hleft, hright]

example : row ⟨100, .ofParts 0b110 3 ⟨0, 255⟩ .centre⟩ =
    "     100 | B+A                  | DOWNRIGHT |   0 255 | 128 128".toList := by decide

end Inspect

end PadScript
