import PadScript.Proofs.Contract
import PadScript.Proofs.Numeral

/-!
# Spelling frames

A frame is spelled as an input line: the names of its buttons, the name of its direction and the
coordinates of its sticks, and the time until the next frame.

1. What is spelled is `Spelled` text: visible ASCII without comment signs, so that neither
   trimming nor a comment takes anything away from it.
2. Every part of a spelled report is read as the input it names, and the parts together as the
   report (`Expression.encode_spell`): the names of the buttons of a mask set the bits of the mask.
3. The durations of spelled lines add up to the times of the frames (`sends_inputsOf`), so playable
   frames are what the script of their lines compiles to.
-/

namespace PadScript

/-! ## Spelled text -/

/-- Visible ASCII characters, other than those that start a comment or a directive. -/
def Text.isSpelled (c : Char) : Bool :=
  (0x21 ≤ c.toNat && c.toNat ≤ 0x7E) && c ≠ '#' && c ≠ '/' && c ≠ '@'

/-- The text is spelled in visible ASCII characters. -/
def Text.Spelled (s : Text) : Prop := ∀ c ∈ s, isSpelled c = true

namespace Text

theorem isBlank_of_isSpelled {c : Char} (h : isSpelled c = true) : isBlank c = false := by
  unfold isSpelled at h
  simp only [Bool.and_eq_true, decide_eq_true_eq] at h
  unfold isBlank
  simp only [Bool.or_eq_false_iff, Bool.and_eq_false_iff, decide_eq_false_iff_not,
    beq_eq_false_iff_ne]
  omega

theorem isSpelled_of_digit {c : Char} (h : 48 ≤ c.toNat ∧ c.toNat ≤ 57) : isSpelled c = true := by
  have hne : ∀ d : Char, d.toNat < 48 ∨ 57 < d.toNat → c ≠ d := by
    rintro d hd rfl
    omega
  unfold isSpelled
  simp only [Bool.and_eq_true, decide_eq_true_eq]
  exact ⟨⟨⟨⟨by omega, by omega⟩, hne '#' (by decide)⟩, hne '/' (by decide)⟩, hne '@' (by decide)⟩

namespace Spelled

variable {s t : Text}

theorem append (hs : Spelled s) (ht : Spelled t) : Spelled (s ++ t) :=
  List.forall_mem_append.mpr ⟨hs, ht⟩

theorem cons {c : Char} (hc : isSpelled c = true) (hs : Spelled s) : Spelled (c :: s) :=
  List.forall_mem_cons.mpr ⟨hc, hs⟩

theorem ofNat (n : Nat) : Spelled (Text.ofNat n) := fun _ hc =>
  isSpelled_of_digit (toNat_of_mem_ofNat hc)

theorem join {sep : Text} (hsep : Spelled sep) {ps : List Text} (h : ∀ p ∈ ps, Spelled p) :
    Spelled (Text.join sep ps) := by
  induction ps with
  | nil => exact fun _ hc => absurd hc List.not_mem_nil
  | cons p ps ih =>
    have hp := h p List.mem_cons_self
    cases ps with
    | nil => exact hp
    | cons q qs =>
      exact (hp.append hsep).append (ih fun r hr => h r (List.mem_cons_of_mem _ hr))

theorem trim (h : Spelled s) : Text.trim s = s :=
  trim_eq_self fun c hc => isBlank_of_isSpelled (h c hc)

theorem not_mem (h : Spelled s) {c : Char} (hc : isSpelled c = false) : c ∉ s := by
  intro hmem
  rw [h c hmem] at hc
  cases hc

end Spelled

end Text

/-- A spelled text is an input line as it stands. -/
theorem Script.isBody_of_spelled {body : Text} (h : Text.Spelled body) (hne : body ≠ []) :
    Script.IsBody body where
  isLine := by
    refine ⟨hne, h.not_mem (by decide), fun hlast => ?_⟩
    exact h.not_mem (c := '\r') (by decide) (List.mem_of_getLast? hlast)
  classify := by
    have hstrip : Line.stripComment body = body :=
      Line.stripComment_eq_self (h.not_mem (by decide)) (h.not_mem (by decide))
    refine Line.classify_eq_input_iff.mpr ⟨?_, by rw [h.trim, hstrip, h.trim], hne⟩
    rw [h.trim]
    intro hhead
    exact h.not_mem (c := '@') (by decide) (List.mem_of_head? hhead)

/-! ## Spelled reports -/

namespace StickPosition

/-- The coordinates of a position. -/
def coordinates (position : StickPosition) : Text :=
  Text.ofNat position.x.toNat ++ ',' :: Text.ofNat position.y.toNat

/-- The letter of a stick and the coordinates of its position. -/
def spell (letter : Char) (position : StickPosition) : Text :=
  letter :: '(' :: (position.coordinates ++ [')'])

theorem not_mem_coordinates {c : Char} (hc : ¬ (48 ≤ c.toNat ∧ c.toNat ≤ 57)) (hcomma : c ≠ ',')
    (position : StickPosition) : c ∉ position.coordinates := by
  unfold coordinates
  rw [List.mem_append, List.mem_cons]
  rintro (h | h | h)
  · exact Text.not_mem_ofNat hc _ h
  · exact hcomma h
  · exact Text.not_mem_ofNat hc _ h

theorem spelled_coordinates (position : StickPosition) : Text.Spelled position.coordinates :=
  .append (.ofNat _) (.cons (by decide) (.ofNat _))

end StickPosition

namespace Packet

/-- The parts of the expression for a report: its buttons, its direction and its sticks. -/
def parts (p : Packet) : List Text :=
  Symbol.buttonNames p.buttons ++ (Symbol.directionName p.dpad).toList ++
    [p.left.spell 'L', p.right.spell 'R']

/-- The expression for a report. -/
def spell (p : Packet) : Text := Text.join ['+'] p.parts

end Packet

/-- A part of an expression as it is spelled: it can stand between plus signs, and its parentheses
are balanced. -/
structure IsPart (part : Text) : Prop where
  ne_nil : part ≠ []
  spelled : Text.Spelled part
  plus : '+' ∉ part
  nesting : ∀ depth, Line.nesting depth part = some depth

theorem isPart_of_mem_allNames {name : Text} (h : name ∈ Symbol.allNames) : IsPart name := by
  have hall : ∀ name ∈ Symbol.allNames, name ≠ [] ∧ name.all Text.isSpelled = true ∧
      '+' ∉ name ∧ '(' ∉ name ∧ ')' ∉ name := by decide
  obtain ⟨hne, hspelled, hplus, hopen, hclose⟩ := hall name h
  exact ⟨hne, List.all_eq_true.mp hspelled, hplus, Line.nesting_eq_self hopen hclose⟩

theorem isPart_spell {letter : Char} (hspelled : Text.isSpelled letter = true)
    (hmarks : letter ∉ ['+', '(', ')']) (position : StickPosition) :
    IsPart (position.spell letter) := by
  simp only [List.mem_cons, List.not_mem_nil, or_false, not_or] at hmarks
  obtain ⟨hplus, hopen, hclose⟩ := hmarks
  have hnot : ∀ c ∈ ['+', '(', ')'], c ∉ position.coordinates := by
    intro c hc
    simp only [List.mem_cons, List.not_mem_nil, or_false] at hc
    rcases hc with rfl | rfl | rfl <;>
      exact position.not_mem_coordinates (by decide) (by decide)
  unfold StickPosition.spell
  refine ⟨List.cons_ne_nil _ _, ?_, ?_, fun depth => ?_⟩
  · refine .cons hspelled (.cons (by decide) (.append position.spelled_coordinates ?_))
    exact .cons (by decide) fun _ h => absurd h List.not_mem_nil
  · have hinner := hnot '+' (by decide)
    simp [hinner, Ne.symm hplus]
  · rw [Line.nesting_cons hopen hclose, Line.nesting_opening, Line.nesting_append,
      Line.nesting_eq_self (hnot '(' (by decide)) (hnot ')' (by decide)), Option.bind_some,
      Line.nesting_closing]
    rfl

theorem Symbol.mem_allNames_of_mem_buttonNames {mask : UInt16} {name : Text}
    (h : name ∈ Symbol.buttonNames mask) : name ∈ Symbol.allNames := by
  obtain ⟨entry, hentry, rfl⟩ := List.mem_map.mp h
  have hmem := List.mem_map_of_mem (f := Prod.fst) (List.mem_of_mem_filter hentry)
  unfold Symbol.allNames
  rw [List.append_assoc, List.append_assoc]
  exact List.mem_append_left _ hmem

theorem Symbol.mem_of_directionName {value : UInt8} {name : Text}
    (h : Symbol.directionName value = some name) :
    ∃ d : Direction, (name, d) ∈ Symbol.directions ∧ d.value = value := by
  obtain ⟨⟨key, d⟩, hfind, rfl⟩ := Option.map_eq_some_iff.mp h
  exact ⟨d, List.mem_of_find?_eq_some hfind, by simpa using List.find?_some hfind⟩

theorem Symbol.mem_allNames_of_mem_directions {entry : Text × Direction}
    (h : entry ∈ Symbol.directions) : entry.1 ∈ Symbol.allNames := by
  have hmem := List.mem_map_of_mem (f := Prod.fst) h
  unfold Symbol.allNames
  rw [List.append_assoc, List.append_assoc]
  exact List.mem_append_right _ (List.mem_append_left _ hmem)

theorem Packet.isPart_of_mem_parts {p : Packet} {part : Text} (h : part ∈ p.parts) :
    IsPart part := by
  unfold Packet.parts at h
  rcases List.mem_append.mp h with h | h
  · rcases List.mem_append.mp h with h | h
    · exact isPart_of_mem_allNames (Symbol.mem_allNames_of_mem_buttonNames h)
    · obtain ⟨d, hmem, -⟩ := Symbol.mem_of_directionName (Option.mem_toList.mp h)
      exact isPart_of_mem_allNames (Symbol.mem_allNames_of_mem_directions hmem)
  · rcases List.mem_cons.mp h with rfl | h
    · exact isPart_spell (by decide) (by decide) _
    · rw [List.mem_singleton.mp h]
      exact isPart_spell (by decide) (by decide) _

theorem Packet.spelled_spell (p : Packet) : Text.Spelled p.spell := by
  refine .join (.cons (by decide) fun _ h => absurd h List.not_mem_nil) fun part hpart => ?_
  exact (Packet.isPart_of_mem_parts hpart).spelled

theorem Line.nesting_join {ps : List Text} (h : ∀ p ∈ ps, IsPart p) (depth : Nat) :
    Line.nesting depth (Text.join ['+'] ps) = some depth := by
  induction ps with
  | nil => rfl
  | cons p ps ih =>
    have hp := (h p List.mem_cons_self).nesting depth
    cases ps with
    | nil => exact hp
    | cons q qs =>
      have hrest := ih fun r hr => h r (List.mem_cons_of_mem _ hr)
      rw [Text.join, List.append_assoc, List.singleton_append, Line.nesting_append, hp,
        Option.bind_some, Line.nesting_cons (by decide) (by decide), hrest]

/-! ## What spelled parts are read as -/

theorem Axis.ofText_ofNat (v : UInt8) : Axis.ofText (Text.ofNat v.toNat) = some (.value v) := by
  have htrim : Text.trim (Text.ofNat v.toNat) = Text.ofNat v.toNat :=
    (Text.Spelled.ofNat v.toNat).trim
  unfold Axis.ofText
  rw [htrim]
  simp only
  split
  · rename_i digits h
    exact absurd (by rw [h]; simp) (Text.not_mem_ofNat (c := '-') (by decide) v.toNat)
  · rw [Text.numeral_ofNat, Option.map_some, if_pos v.toNat_lt_size, UInt8.ofNat_toNat]

namespace Token

theorem classify_of_mem_buttons {entry : Text × Nat} (h : entry ∈ Symbol.buttons) :
    classify entry.1 = .ok (.symbol (.button entry.2)) := by
  have hall : ∀ entry ∈ Symbol.buttons, classify entry.1 = .ok (.symbol (.button entry.2)) := by
    decide +kernel
  exact hall entry h

theorem classify_of_mem_directions {entry : Text × Direction} (h : entry ∈ Symbol.directions) :
    classify entry.1 = .ok (.symbol (.direction entry.2)) := by
  have hall : ∀ entry ∈ Symbol.directions,
      classify entry.1 = .ok (.symbol (.direction entry.2)) := by
    decide +kernel
  exact hall entry h

theorem classify_spell (letter : Char) (stick : Stick)
    (h : ∀ rest, Symbol.stickLetter (letter :: rest) = some (stick, rest))
    (position : StickPosition) :
    classify (position.spell letter) = .ok (.coordinate stick position) := by
  have hcut : Text.cutFirst ',' position.coordinates =
      some (Text.ofNat position.x.toNat, Text.ofNat position.y.toNat) :=
    Text.cutFirst_append_cons (Text.not_mem_ofNat (by decide) _) _
  have hinner : parenthesised (Text.trimStart ('(' :: (position.coordinates ++ [')']))) =
      some position.coordinates := by
    unfold Text.trimStart
    rw [List.dropWhile_cons_of_neg (by decide), parenthesised, List.getLast?_concat, if_pos rfl,
      List.dropLast_concat]
  have hcoordinate : coordinate? (position.spell letter) =
      some (stick, .value position.x, .value position.y) := by
    unfold coordinate? StickPosition.spell
    simp only [h, hinner, hcut, Axis.ofText_ofNat, bind, pure, Option.bind_some]
  unfold classify
  rw [hcoordinate]
  rfl

end Token

/-! ## Masks of buttons -/

namespace Symbol

/-- The mask with the bits of buttons added to it. -/
def addBits (mask : UInt16) (entries : List (Text × Nat)) : UInt16 :=
  entries.foldl (fun mask entry => mask ||| (1 <<< UInt16.ofNat entry.2)) mask

theorem testBit_shiftLeft {bit : Nat} (h : bit < 14) (k : Nat) :
    (1 <<< UInt16.ofNat bit : UInt16).toNat.testBit k = decide (bit = k) := by
  have hall : ∀ bit < 14, (1 <<< UInt16.ofNat bit : UInt16).toNat = 2 ^ bit := by decide
  rw [hall bit h, Nat.testBit_two_pow]

theorem testBit_addBits {entries : List (Text × Nat)} (h : ∀ entry ∈ entries, entry.2 < 14)
    (mask : UInt16) (k : Nat) :
    (addBits mask entries).toNat.testBit k =
      (mask.toNat.testBit k || entries.any fun entry => decide (entry.2 = k)) := by
  induction entries generalizing mask with
  | nil => simp [addBits]
  | cons entry entries ih =>
    have hentry := h entry List.mem_cons_self
    have hrest := ih (fun other hother => h other (List.mem_cons_of_mem _ hother))
      (mask ||| (1 <<< UInt16.ofNat entry.2))
    rw [UInt16.toNat_or, Nat.testBit_or, testBit_shiftLeft hentry] at hrest
    rw [List.any_cons, ← Bool.or_assoc]
    exact hrest

/-- The buttons that a mask names set the bits of the mask. -/
theorem addBits_named {mask : UInt16} (h : mask.toNat < 2 ^ 14) :
    addBits 0 (buttons.filter fun (_, bit) => mask.toNat.testBit bit) = mask := by
  apply UInt16.toNat_inj.mp
  apply Nat.eq_of_testBit_eq
  intro k
  rw [testBit_addBits fun entry hentry => bit_lt_of_mem_buttons (List.mem_of_mem_filter hentry),
    UInt16.toNat_zero, Nat.zero_testBit, Bool.false_or, List.any_filter]
  by_cases hk : k < 14
  · have hall : ∀ k < 14, k ∈ buttons.map Prod.snd := by decide
    obtain ⟨entry, hentry, rfl⟩ := List.mem_map.mp (hall k hk)
    rw [Bool.eq_iff_iff, List.any_eq_true]
    constructor
    · rintro ⟨other, -, hother⟩
      rw [Bool.and_eq_true, decide_eq_true_eq] at hother
      rw [← hother.2]
      exact hother.1
    · intro hbit
      exact ⟨entry, hentry, by rw [Bool.and_eq_true, decide_eq_true_eq]; exact ⟨hbit, rfl⟩⟩
  · -- no button has so high a bit, and the mask has none either
    have hmask : mask.toNat.testBit k = false :=
      Nat.testBit_lt_two_pow (h.trans_le (Nat.pow_le_pow_right (by decide) (Nat.le_of_not_lt hk)))
    rw [hmask, List.any_eq_false]
    intro entry hentry hbit
    rw [Bool.and_eq_true, decide_eq_true_eq] at hbit
    have := bit_lt_of_mem_buttons hentry
    omega

theorem directionName_of_le {value : UInt8} (h : value ≤ 8) :
    ∃ name, directionName value = some name := by
  have hall : ∀ n < 9, (directionName (UInt8.ofNat n)).isSome = true := by decide
  have hvalue := hall value.toNat (Nat.lt_succ_of_le (UInt8.le_iff_toNat_le.mp h))
  rw [UInt8.ofNat_toNat] at hvalue
  exact Option.isSome_iff_exists.mp hvalue

end Symbol

/-! ## What spelled reports are read as -/

namespace Held

variable (expression : Text)

theorem add_symbol {token : Text} {s : Symbol} (h : Token.classify token = .ok (.symbol s))
    (held : Held) : Held.add expression held token = .ok (held.addSymbol s) := by
  unfold Held.add
  rw [h]
  rfl

theorem add_coordinate {token : Text} {stick : Stick} {position : StickPosition}
    (h : Token.classify token = .ok (.coordinate stick position)) (held : Held) :
    Held.add expression held token = .ok (held.moveStick stick position) := by
  unfold Held.add
  rw [h]
  rfl

theorem foldlM_add_buttons {entries : List (Text × Nat)}
    (h : ∀ entry ∈ entries, entry ∈ Symbol.buttons) (held : Held) :
    (entries.map Prod.fst).foldlM (Held.add expression) held =
      .ok { held with buttons := Symbol.addBits held.buttons entries } := by
  induction entries generalizing held with
  | nil => rfl
  | cons entry entries ih =>
    have hentry := Token.classify_of_mem_buttons (h entry List.mem_cons_self)
    rw [List.map_cons, List.foldlM_cons, add_symbol expression hentry]
    exact ih (fun other hother => h other (List.mem_cons_of_mem _ hother)) _

theorem foldlM_add_buttonNames {mask : UInt16} (h : mask.toNat < 2 ^ 14) :
    (Symbol.buttonNames mask).foldlM (Held.add expression) Held.nothing =
      .ok { Held.nothing with buttons := mask } := by
  have hbuttons : ∀ entry ∈ Symbol.buttons.filter fun (_, bit) => mask.toNat.testBit bit,
      entry ∈ Symbol.buttons := fun _ => List.mem_of_mem_filter
  have hfold := foldlM_add_buttons expression hbuttons Held.nothing
  rw [show Held.nothing.buttons = 0 from rfl, Symbol.addBits_named h] at hfold
  exact hfold

/-- The parts of a legal report, held together, are the report. -/
theorem foldlM_add_parts {p : Packet} (h : p.Legal) :
    ∃ d : Direction, d.value = p.dpad ∧ p.parts.foldlM (Held.add expression) Held.nothing =
      .ok ⟨p.buttons, d, p.left, p.right⟩ := by
  obtain ⟨name, hname⟩ := Symbol.directionName_of_le h.dpad
  obtain ⟨d, hmem, hvalue⟩ := Symbol.mem_of_directionName hname
  have hdirection := Token.classify_of_mem_directions hmem
  have hleft := Token.classify_spell 'L' .left (fun _ => rfl) p.left
  have hright := Token.classify_spell 'R' .right (fun _ => rfl) p.right
  refine ⟨d, hvalue, ?_⟩
  unfold Packet.parts
  rw [hname, Option.toList_some, List.append_assoc, List.foldlM_append,
    foldlM_add_buttonNames expression h.buttons]
  show List.foldlM (Held.add expression) { Held.nothing with buttons := p.buttons }
    [name, p.left.spell 'L', p.right.spell 'R'] = _
  simp only [List.foldlM_cons, List.foldlM_nil, add_symbol expression hdirection,
    add_coordinate expression hleft, add_coordinate expression hright]
  rfl

end Held

theorem Packet.ofParts_eq {p : Packet} (h : p.reserved = 0) :
    Packet.ofParts p.buttons p.dpad p.left p.right = p := by
  obtain ⟨high, low, dpad, left, right, reserved⟩ := p
  cases h
  have hhigh := high.toNat_lt
  have hlow := low.toNat_lt
  unfold Packet.ofParts Packet.buttons
  congr 1
  · apply UInt8.toNat_inj.mp
    simp
    omega
  · apply UInt8.toNat_inj.mp
    simp

namespace Expression

theorem tokens_spell (p : Packet) : tokens p.spell = p.parts := by
  have hne : p.parts ≠ [] := List.append_ne_nil_of_right_ne_nil _ (List.cons_ne_nil _ _)
  unfold tokens Packet.spell
  rw [Text.pieces_join hne fun part hpart => (Packet.isPart_of_mem_parts hpart).plus]
  have htrim : p.parts.map Text.trim = p.parts.map id :=
    List.map_congr_left fun part hpart => (Packet.isPart_of_mem_parts hpart).spelled.trim
  rw [htrim, List.map_id, List.filter_eq_self]
  intro part hpart
  simpa using (Packet.isPart_of_mem_parts hpart).ne_nil

theorem plus_mem_spell (p : Packet) : '+' ∈ p.spell := by
  obtain ⟨first, rest, hrest⟩ : ∃ first rest, p.parts = first :: rest ∧ rest ≠ [] := by
    unfold Packet.parts
    cases Symbol.buttonNames p.buttons ++ (Symbol.directionName p.dpad).toList with
    | nil => exact ⟨_, _, rfl, List.cons_ne_nil _ _⟩
    | cons name names =>
      exact ⟨_, _, rfl, List.append_ne_nil_of_right_ne_nil _ (List.cons_ne_nil _ _)⟩
  obtain ⟨second, others, rfl⟩ := List.exists_cons_of_ne_nil hrest.2
  unfold Packet.spell
  rw [hrest.1, Text.join]
  simp

/-- A spelled report is no word for a controller at rest: none of them holds a plus sign. -/
theorem isRestWord_spell (p : Packet) : Symbol.isRestWord p.spell = false := by
  have hall : ∀ w ∈ Symbol.restWords, '+' ∉ w.map Char.toLower := by decide
  unfold Symbol.isRestWord
  rw [List.any_eq_false]
  intro w hw hsame
  apply hall w hw
  rw [eq_of_beq hsame]
  exact List.mem_map_of_mem (f := Char.toLower) (plus_mem_spell p)

theorem encode_spell {p : Packet} (h : p.Legal) : encode p.spell = .ok p := by
  obtain ⟨d, hvalue, hfold⟩ := Held.foldlM_add_parts p.spell h
  have hne : p.spell.isEmpty = false :=
    List.isEmpty_eq_false_iff.mpr (List.ne_nil_of_mem (plus_mem_spell p))
  unfold encode
  simp only
  rw [p.spelled_spell.trim, hne, isRestWord_spell, tokens_spell, hfold]
  show Except.ok (Packet.ofParts p.buttons d.value p.left p.right) = .ok p
  rw [hvalue, Packet.ofParts_eq h.reserved]

end Expression

/-! ## Spelled scripts -/

namespace Script

/-- The input line of a report that is sent for some time. -/
def Input.spell (input : Input) : Text :=
  input.packet.spell ++ ',' :: Text.ofNat input.duration.toNat

/-- The inputs that frames stand for: each report is sent until the next frame, and the last frame
only says when that is. -/
def inputsOf : List Frame → List Input
  | frame :: next :: rest => ⟨frame.packet, next.time - frame.time⟩ :: inputsOf (next :: rest)
  | _ => []

/-- The lines that spell frames. -/
def spellLines (frames : List Frame) : List Text := (inputsOf frames).map Input.spell

/-- The script that spells frames. -/
def spell (frames : List Frame) : Text := Text.join ['\n'] (spellLines frames)

theorem Input.spelled_spell (input : Input) : Text.Spelled input.spell :=
  input.packet.spelled_spell.append (.cons (by decide) (.ofNat _))

theorem Input.isBody_spell (input : Input) : IsBody input.spell :=
  isBody_of_spelled input.spelled_spell
    (List.append_ne_nil_of_right_ne_nil _ (List.cons_ne_nil _ _))

theorem duration_ofNat (d : Millis) : Line.duration (Text.ofNat d.toNat) = .ok d := by
  unfold Line.duration
  rw [(Text.Spelled.ofNat d.toNat).trim, Text.numeral_ofNat]
  simp only
  rw [if_pos d.toNat_lt_size, UInt32.ofNat_toNat]

theorem Input.read_spell {input : Input} (h : input.packet.Legal) :
    Input.read input.spell = .ok input := by
  have hbalanced : Line.nesting 0 input.packet.spell = some 0 :=
    Line.nesting_join (fun _ => Packet.isPart_of_mem_parts) 0
  have hsplit : Line.split input.spell =
      .ok (input.packet.spell, Text.ofNat input.duration.toNat) := by
    unfold Input.spell
    rw [Line.split_append_comma hbalanced (Text.not_mem_ofNat (by decide) _)
      (Text.not_mem_ofNat (by decide) _) (Text.not_mem_ofNat (by decide) _),
      input.packet.spelled_spell.trim, (Text.Spelled.ofNat _).trim]
  unfold Input.read
  simp only [bind_eq_ok_iff]
  exact ⟨_, hsplit, _, Expression.encode_spell h, _, duration_ofNat input.duration, rfl⟩

theorem reads_spell {inputs : List Input} (h : ∀ input ∈ inputs, input.packet.Legal) :
    Reads (inputs.map Input.spell) inputs := by
  unfold Reads
  rw [List.forall₂_map_left_iff, List.forall₂_same]
  exact fun input hinput => Input.read_spell (h input hinput)

theorem packet_mem_of_mem_inputsOf {frames : List Frame} {input : Input}
    (h : input ∈ inputsOf frames) : ∃ frame ∈ frames, frame.packet = input.packet := by
  induction frames with
  | nil => exact absurd h List.not_mem_nil
  | cons frame rest ih =>
    cases rest with
    | nil => exact absurd h List.not_mem_nil
    | cons next rest =>
      rcases List.mem_cons.mp h with rfl | h
      · exact ⟨frame, List.mem_cons_self, rfl⟩
      · obtain ⟨other, hother, hpacket⟩ := ih h
        exact ⟨other, List.mem_cons_of_mem _ hother, hpacket⟩

/-- The inputs that frames stand for send the frames, up to the last one. -/
theorem sends_inputsOf {frame : Frame} {rest : List Frame} (h : Ordered (frame :: rest)) :
    ∃ played last, frame :: rest = played ++ [last] ∧
      Sends frame.time (inputsOf (frame :: rest)) played last.time := by
  induction rest generalizing frame with
  | nil => exact ⟨[], frame, rfl, sends_nil_iff.mpr ⟨rfl, rfl⟩⟩
  | cons next rest ih =>
    obtain ⟨played, last, hframes, hsends⟩ := ih h.of_cons
    have hle : frame.time ≤ next.time := List.rel_of_pairwise_cons h List.mem_cons_self
    have hadd : frame.time.toNat + (next.time - frame.time).toNat = next.time.toNat := by
      rw [UInt32.toNat_sub_of_le _ _ hle]
      rw [UInt32.le_iff_toNat_le] at hle
      omega
    refine ⟨frame :: played, last, by rw [hframes]; rfl, ?_⟩
    exact sends_cons_iff.mpr ⟨next.time, played, hadd, hsends, rfl⟩

theorem performs_inputsOf {frames : List Frame} (h : Playable frames) :
    Performs (inputsOf frames) frames := by
  obtain ⟨first, hfirst, hzero⟩ := h.first
  obtain ⟨rest, rfl⟩ := List.head?_eq_some_iff.mp hfirst
  obtain ⟨played, last, hframes, hsends⟩ := sends_inputsOf h.pairwise
  obtain ⟨frame, hlast, hneutral⟩ := h.last
  rw [hframes, List.getLast?_concat, Option.some_inj] at hlast
  rw [hzero] at hsends
  refine performs_iff_sends.mpr ⟨?_, played, last.time, hsends, ?_⟩
  · have htwo := h.two_le
    cases rest with
    | nil => exact absurd htwo (show ¬ 2 ≤ 1 by decide)
    | cons next rest => exact List.cons_ne_nil _ _
  · rw [hframes, Frame.neutral, ← hneutral, hlast]

/-- **Scripts express every playable timeline.** Playable frames are what the script that spells
them compiles to, however its lines are ended. -/
theorem compile_spell (fs : FileSystem) (options : Options) {frames : List Frame}
    (h : Playable frames) :
    ∃ t : Timeline, t.frames = frames ∧ compile fs options (spell frames) = .ok t ∧
      ∀ source, Text.lines source = spellLines frames → compile fs options source = .ok t := by
  have hbodies : ∀ body ∈ spellLines frames, IsBody body := by
    intro body hbody
    obtain ⟨input, -, rfl⟩ := List.mem_map.mp hbody
    exact input.isBody_spell
  have hlegal : ∀ input ∈ inputsOf frames, input.packet.Legal := by
    intro input hinput
    obtain ⟨frame, hframe, hpacket⟩ := packet_mem_of_mem_inputsOf hinput
    rw [← hpacket]
    exact h.legal frame hframe
  have hcompiles : Compiles (spellLines frames) frames :=
    (compiles_iff_performs h.ne_nil).mpr ⟨_, reads_spell hlegal, performs_inputsOf h⟩
  have hcompile : ∀ source, Text.lines source = spellLines frames →
      compile fs options source = .ok ⟨frames, h.ne_nil, h.pairwise⟩ := by
    intro source hsource
    exact (compile_eq_ok_iff_of_lines hsource hbodies).mpr hcompiles
  refine ⟨⟨frames, h.ne_nil, h.pairwise⟩, rfl, ?_, hcompile⟩
  exact hcompile _ (Text.lines_join fun body hbody => (hbodies body hbody).isLine)

/-- Every button at once, a step of the pad and a stick that take no time, and a pause. -/
def spelledFrames : List Frame :=
  [⟨0, .ofParts 0x3FFF 8 .centre .centre⟩, ⟨1500, .ofParts 0x30 7 ⟨0, 255⟩ .centre⟩,
    ⟨1500, .ofParts 0 0 .centre ⟨17, 4⟩⟩, ⟨4294967295, .neutral⟩]

theorem compile_spelledFrames :
    Playable spelledFrames ∧ spell (spelledFrames.drop 1) =
      "L+R+UPLEFT+L(0,255)+R(128,128),0\nUP+L(128,128)+R(17,4),4294965795".toList ∧
      ∃ t : Timeline, t.frames = spelledFrames ∧
        compile (scriptTree []).fileSystem .default (spell spelledFrames) = .ok t := by
  have hordered : Ordered spelledFrames := by decide
  have h : Playable spelledFrames :=
    ⟨by decide, ⟨_, rfl, rfl⟩, fun i j a b => hordered.le_of_getElem?, ⟨_, rfl, rfl⟩, by decide⟩
  obtain ⟨t, hframes, hcompile, -⟩ := compile_spell (scriptTree []).fileSystem .default h
  exact ⟨h, by decide +kernel, t, hframes, hcompile⟩

end Script

end PadScript
