import Mathlib.Data.List.Perm.Basic
import PadScript.Proofs.Coordinate
import PadScript.Proofs.Spelling

/-!
# The order of tokens

The report of an expression is made of four fields, and each of them is settled on its own.

1. Adding a token writes at most one field (`Held.put`): a button sets its bit, and a direction or a
   position of a stick takes the place of the one before it. So after all tokens a bit is set if
   some token is its button (`Held.testBit_foldl_put`), and every other field is what the last of
   its tokens says (`Held.field_foldl_put`).
2. An expression is accepted if every one of its tokens is known (`Expression.encode_eq_ok_iff`).
   Hence the order of tokens can only change which of several tokens for one field is the last.
-/

namespace PadScript

/-! ## What tokens write -/

namespace Token

/-- The token stands for an input. -/
def Known (token : Text) : Prop := ∃ t, classify token = .ok t ∧ ∀ name, t ≠ .unknown name

/-- The direction that a token stands for. -/
def directionOf (token : Text) : Option Direction :=
  match classify token with
  | .ok (.symbol (.direction d)) => some d
  | _ => none

/-- The position of the stick that a token stands for, by name or by coordinates. -/
def positionOf (stick : Stick) (token : Text) : Option StickPosition :=
  match classify token with
  | .ok (.symbol (.cardinal s position)) | .ok (.coordinate s position) =>
    if s = stick then some position else none
  | _ => none

end Token

namespace Held

/-- The inputs with what one token stands for, if it is known. -/
def put (h : Held) (token : Text) : Held :=
  match Token.classify token with
  | .ok (.symbol s) => h.addSymbol s
  | .ok (.coordinate stick position) => h.moveStick stick position
  | _ => h

theorem add_eq_ok_iff {expression token : Text} {h h' : Held} :
    Held.add expression h token = .ok h' ↔ Token.Known token ∧ h' = h.put token := by
  unfold Held.add Held.put Token.Known
  rcases Token.classify token with fault | t
  · simp [bind, Except.bind]
  · cases t <;> simp [bind, Except.bind, pure, Except.pure, eq_comm]

/-- Tokens are accepted if each of them is known, whatever the others are. -/
theorem foldlM_add_eq_ok_iff {expression : Text} {tokens : List Text} {h h' : Held} :
    tokens.foldlM (Held.add expression) h = .ok h' ↔
      (∀ token ∈ tokens, Token.Known token) ∧ h' = tokens.foldl Held.put h := by
  induction tokens generalizing h with
  | nil => simp [pure, Except.pure, eq_comm]
  | cons token tokens ih =>
    simp only [List.foldlM_cons, bind_eq_ok_iff, add_eq_ok_iff, ih, List.forall_mem_cons,
      List.foldl_cons]
    constructor
    · rintro ⟨_, ⟨htoken, rfl⟩, htokens, rfl⟩
      exact ⟨⟨htoken, htokens⟩, rfl⟩
    · rintro ⟨⟨htoken, htokens⟩, rfl⟩
      exact ⟨_, ⟨htoken, rfl⟩, htokens, rfl⟩

/-- The position of one of the sticks. -/
def stickAt (h : Held) : Stick → StickPosition
  | .left => h.left
  | .right => h.right

theorem direction_put (h : Held) (token : Text) :
    (h.put token).direction = (Token.directionOf token).getD h.direction := by
  unfold Held.put Token.directionOf
  rcases Token.classify token with fault | (s | ⟨stick, position⟩ | name)
  · rfl
  · rcases s with bit | d | ⟨stick, position⟩
    · rfl
    · rfl
    · cases stick <;> rfl
  · cases stick <;> rfl
  · rfl

theorem stickAt_put (stick : Stick) (h : Held) (token : Text) :
    (h.put token).stickAt stick = (Token.positionOf stick token).getD (h.stickAt stick) := by
  unfold Held.put Token.positionOf
  rcases Token.classify token with fault | (s | ⟨moved, position⟩ | name)
  · rfl
  · rcases s with bit | d | ⟨moved, position⟩
    · cases stick <;> rfl
    · cases stick <;> rfl
    · cases moved <;> cases stick <;> rfl
  · cases moved <;> cases stick <;> rfl
  · rfl

theorem testBit_put (h : Held) (token : Text) (k : Nat) :
    (h.put token).buttons.toNat.testBit k = true ↔
      h.buttons.toNat.testBit k = true ∨ Token.classify token = .ok (.symbol (.button k)) := by
  unfold Held.put
  cases hread : Token.classify token with
  | error fault => simp
  | ok t =>
    rcases t with s | ⟨stick, position⟩ | name
    · rcases s with bit | d | ⟨stick, position⟩
      · have hbit := Symbol.bit_lt_of_lookup (Token.lookup_of_classify hread)
        show (h.buttons ||| (1 <<< UInt16.ofNat bit)).toNat.testBit k = true ↔ _
        rw [UInt16.toNat_or, Nat.testBit_or, Symbol.testBit_shiftLeft hbit]
        simp
      · simp [Held.addSymbol]
      · simp [Held.addSymbol, moveStick_buttons]
    · simp [moveStick_buttons]
    · simp

theorem testBit_foldl_put (tokens : List Text) (h : Held) (k : Nat) :
    (tokens.foldl Held.put h).buttons.toNat.testBit k = true ↔
      h.buttons.toNat.testBit k = true ∨
        ∃ token ∈ tokens, Token.classify token = .ok (.symbol (.button k)) := by
  induction tokens generalizing h with
  | nil => simp
  | cons token tokens ih =>
    rw [List.foldl_cons, ih, testBit_put, List.exists_mem_cons_iff, or_assoc]

/-- A field that tokens overwrite is what the last token that sets it says. -/
theorem field_foldl_put {β : Type} (field : Held → β) {sets : Text → Option β}
    (hput : ∀ h token, field (Held.put h token) = (sets token).getD (field h)) (tokens : List Text)
    (h : Held) :
    field (tokens.foldl Held.put h) = ((tokens.filterMap sets).getLast?).getD (field h) := by
  induction tokens using List.reverseRecOn with
  | nil => rfl
  | append_singleton tokens token ih =>
    rw [List.foldl_append, List.foldl_cons, List.foldl_nil, hput, ih, List.filterMap_append]
    cases hsets : sets token <;> simp [hsets]

end Held

/-! ## Words for a controller at rest -/

theorem Symbol.find_congr {α : Type} {table : List (Text × α)} {name name' : Text}
    (h : name.map Char.toLower = name'.map Char.toLower) :
    Symbol.find table name = Symbol.find table name' := by
  unfold Symbol.find Text.sameLetters
  rw [h]

theorem Symbol.exists_restWord {name : Text} (h : Symbol.isRestWord name = true) :
    ∃ w ∈ Symbol.restWords, w.map Char.toLower = name.map Char.toLower := by
  obtain ⟨w, hw, hsame⟩ := List.any_eq_true.mp h
  exact ⟨w, hw, eq_of_beq hsame⟩

/-- A word for a controller at rest is the name of no input. -/
theorem Symbol.lookup_restWord {name : Text} (h : Symbol.isRestWord name = true) :
    Symbol.lookup name = none := by
  have hall : ∀ w ∈ Symbol.restWords, Symbol.find Symbol.buttons w = none ∧
      Symbol.find Symbol.directions w = none ∧ Symbol.find Symbol.cardinals w.tail = none := by
    decide
  obtain ⟨w, hw, hsame⟩ := Symbol.exists_restWord h
  obtain ⟨hbuttons, hdirections, hcardinals⟩ := hall w hw
  have hcardinal : Symbol.findCardinal name = none := by
    unfold Symbol.findCardinal
    cases hletter : Symbol.stickLetter name with
    | none => rfl
    | some result =>
      obtain ⟨stick, rest⟩ := result
      obtain ⟨letter, -, rfl⟩ := Symbol.stickLetter_eq_some_iff.mp hletter
      have htail : rest.map Char.toLower = w.tail.map Char.toLower := by
        rw [List.map_tail, hsame]
        rfl
      simp [Symbol.find_congr htail, hcardinals]
  unfold Symbol.lookup
  rw [Symbol.find_congr hsame.symm, hbuttons, Symbol.find_congr hsame.symm, hdirections, hcardinal]

theorem Symbol.not_mem_restWord {name : Text} (h : Symbol.isRestWord name = true) {c : Char}
    (hc : ∀ w ∈ Symbol.restWords, c.toLower ∉ w.map Char.toLower) : c ∉ name := by
  obtain ⟨w, hw, hsame⟩ := Symbol.exists_restWord h
  intro hmem
  apply hc w hw
  rw [hsame]
  exact List.mem_map_of_mem hmem

theorem Token.classify_restWord {name : Text} (h : Symbol.isRestWord name = true) :
    Token.classify name = .ok (.unknown name) := by
  have hnone : Token.coordinate? name = none := by
    refine Option.eq_none_iff_forall_ne_some.mpr ?_
    rintro ⟨stick, x, y⟩ hsome
    obtain ⟨a, b, ⟨letter, -, gap, -, rfl⟩, -⟩ := Token.coordinate?_eq_some_iff.mp hsome
    exact Symbol.not_mem_restWord h (c := '(') (by decide) (by simp)
  rw [Token.classify_of_not_coordinate hnone, Symbol.lookup_restWord h]
  rfl

/-! ## Reports of expressions, field by field -/

namespace Expression

/-- Nothing, or a word for a controller at rest. -/
def AtRest (expression : Text) : Prop :=
  Text.trim expression = [] ∨ Symbol.isRestWord (Text.trim expression) = true

/-- The report holds what the tokens of the expression say, field by field: every button of theirs
and no other one, and the last direction and the last position of either stick. -/
structure Combines (expression : Text) (p : Packet) : Prop where
  buttons : ∀ bit, p.buttons.toNat.testBit bit = true ↔
    ∃ token ∈ tokens expression, Token.classify token = .ok (.symbol (.button bit))
  dpad : p.dpad =
    (((tokens expression).filterMap Token.directionOf).getLast?.map Direction.value).getD 8
  left : p.left =
    ((tokens expression).filterMap (Token.positionOf .left)).getLast?.getD ⟨128, 128⟩
  right : p.right =
    ((tokens expression).filterMap (Token.positionOf .right)).getLast?.getD ⟨128, 128⟩

theorem tokens_trim (expression : Text) : tokens (Text.trim expression) = tokens expression := by
  unfold tokens
  rw [Text.map_trim_pieces_trim (by decide)]

/-- The inputs that the tokens of an expression stand for. -/
def held (expression : Text) : Held := (tokens expression).foldl Held.put Held.nothing

theorem combines_held (expression : Text) : Combines expression (held expression).packet where
  buttons bit := by
    show (Packet.ofParts _ _ _ _).buttons.toNat.testBit bit = true ↔ _
    rw [Packet.buttons_ofParts]
    refine (Held.testBit_foldl_put _ _ bit).trans (or_iff_right ?_)
    simp [Held.nothing]
  dpad := by
    show (held expression).direction.value = _
    rw [held, Held.field_foldl_put Held.direction Held.direction_put]
    cases ((tokens expression).filterMap Token.directionOf).getLast? <;> rfl
  left := Held.field_foldl_put (·.stickAt .left) (Held.stickAt_put .left) _ _
  right := Held.field_foldl_put (·.stickAt .right) (Held.stickAt_put .right) _ _

theorem encode_eq_ok_iff {expression : Text} (h : ¬ AtRest expression) {p : Packet} :
    encode expression = .ok p ↔
      (∀ token ∈ tokens expression, Token.Known token) ∧ p = (held expression).packet := by
  have hrest : ((Text.trim expression).isEmpty || Symbol.isRestWord (Text.trim expression)) =
      false := by
    rw [AtRest, not_or] at h
    simp [h.1, h.2]
  unfold encode
  simp only [hrest, tokens_trim, Bool.false_eq_true, if_false, bind_eq_ok_iff,
    Held.foldlM_add_eq_ok_iff, pure, Except.pure, Except.ok.injEq]
  constructor
  · rintro ⟨_, ⟨hknown, rfl⟩, rfl⟩
    exact ⟨hknown, rfl⟩
  · rintro ⟨hknown, rfl⟩
    exact ⟨_, ⟨hknown, rfl⟩, rfl⟩

theorem encode_of_atRest {expression : Text} (h : AtRest expression) :
    encode expression = .ok .neutral := by
  have hrest : ((Text.trim expression).isEmpty || Symbol.isRestWord (Text.trim expression)) =
      true := by
    rcases h with h | h <;> simp [h]
  unfold encode
  simp only [hrest, if_true]

/-- A word for a controller at rest holds nothing as a token either. -/
theorem held_of_atRest {expression : Text} (h : AtRest expression) :
    held expression = .nothing := by
  unfold held
  rw [← tokens_trim]
  rcases h with h | h
  · rw [h]
    rfl
  · have hpieces := Text.pieces_of_not_mem (Symbol.not_mem_restWord h (c := '+') (by decide))
    have hunknown := Token.classify_restWord h
    have hne : Text.trim expression ≠ [] := by
      intro hempty
      rw [hempty] at h
      exact absurd h (by decide)
    unfold tokens
    simp [hpieces, hne, Held.put, hunknown]

theorem eq_packet_of_encode {expression : Text} {p : Packet} (h : encode expression = .ok p) :
    p = (held expression).packet := by
  by_cases hrest : AtRest expression
  · rw [encode_of_atRest hrest] at h
    cases h
    rw [held_of_atRest hrest]
    rfl
  · exact ((encode_eq_ok_iff hrest).mp h).2

/-! ## Two expressions -/

/-- Where the tokens for a field are the same in the same order, so is what they say. -/
theorem filterMap_congr_of_filter {β : Type} {sets : Text → Option β} {first second : List Text}
    (h : first.filter (fun token => (sets token).isSome) =
      second.filter fun token => (sets token).isSome) :
    first.filterMap sets = second.filterMap sets := by
  have hfilter : ∀ tokens : List Text,
      (tokens.filter fun token => (sets token).isSome).filterMap sets = tokens.filterMap sets := by
    intro tokens
    rw [List.filterMap_filter]
    congr 1
    funext token
    cases sets token <;> rfl
  rw [← hfilter first, h, hfilter]

theorem Combines.buttons_eq {first second : Text} {p q : Packet} (hp : Combines first p)
    (hq : Combines second q) (h : (tokens first).Perm (tokens second)) :
    p.buttons = q.buttons := by
  apply UInt16.toNat_inj.mp
  apply Nat.eq_of_testBit_eq
  intro bit
  rw [Bool.eq_iff_iff, hp.buttons, hq.buttons]
  simp only [h.mem_iff]

/-- The tokens that set the direction, and those that set either stick, are the same in the same
order. -/
structure SameOrder (first second : List Text) : Prop where
  directions : first.filter (fun token => (Token.directionOf token).isSome) =
    second.filter fun token => (Token.directionOf token).isSome
  positions : ∀ stick, first.filter (fun token => (Token.positionOf stick token).isSome) =
    second.filter fun token => (Token.positionOf stick token).isSome

/-- **The order of tokens.** Two expressions with the same tokens in any order, neither of which is
a word for a controller at rest, are accepted alike and press the same buttons; if the tokens of
each other field are in the same order, their reports are the same. Every report holds the buttons
of all tokens, and of every other field what the last of its tokens says. -/
theorem encode_of_perm :
    (∀ first second, ¬ AtRest first → ¬ AtRest second → (tokens first).Perm (tokens second) →
      ((∃ p, encode first = .ok p) ↔ ∃ q, encode second = .ok q) ∧
      ∀ p q, encode first = .ok p → encode second = .ok q → p.buttons = q.buttons ∧
        (SameOrder (tokens first) (tokens second) → p = q)) ∧
    ∀ expression p, encode expression = .ok p → Combines expression p := by
  have hcombines : ∀ expression p, encode expression = .ok p → Combines expression p := by
    intro expression p h
    rw [eq_packet_of_encode h]
    exact combines_held expression
  refine ⟨fun first second hfirst hsecond hperm => ⟨?_, fun p q hp hq => ?_⟩, hcombines⟩
  · simp only [encode_eq_ok_iff hfirst, encode_eq_ok_iff hsecond, exists_and_left, exists_eq,
      and_true, hperm.mem_iff]
  · have hbuttons := (hcombines first p hp).buttons_eq (hcombines second q hq) hperm
    refine ⟨hbuttons, fun horder => ?_⟩
    obtain ⟨-, hdpad, hleft, hright⟩ := hcombines first p hp
    rw [filterMap_congr_of_filter horder.directions, ← (hcombines second q hq).dpad] at hdpad
    rw [filterMap_congr_of_filter (horder.positions .left), ← (hcombines second q hq).left] at hleft
    rw [filterMap_congr_of_filter (horder.positions .right),
      ← (hcombines second q hq).right] at hright
    rw [← Packet.ofParts_eq (legal_of_encode hp).reserved,
      ← Packet.ofParts_eq (legal_of_encode hq).reserved, hbuttons, hdpad, hleft, hright]

/-- Two buttons in the other order, and two directions and two positions of a stick that stay in
theirs. -/
theorem encode_of_perm_shuffled :
    (tokens "A+UP+LUP+B+L(0,255)+DOWN".toList).Perm
        (tokens "B + LUP+A++UP+L(0,255)+ DOWN".toList) ∧
      SameOrder (tokens "A+UP+LUP+B+L(0,255)+DOWN".toList)
        (tokens "B + LUP+A++UP+L(0,255)+ DOWN".toList) ∧
      encode "B + LUP+A++UP+L(0,255)+ DOWN".toList = .ok (.ofParts 6 4 ⟨0, 255⟩ .centre) ∧
      Combines "B + LUP+A++UP+L(0,255)+ DOWN".toList (.ofParts 6 4 ⟨0, 255⟩ .centre) := by
  have hfirst : ¬ AtRest "A+UP+LUP+B+L(0,255)+DOWN".toList := by
    unfold AtRest
    decide +kernel
  have hsecond : ¬ AtRest "B + LUP+A++UP+L(0,255)+ DOWN".toList := by
    unfold AtRest
    decide +kernel
  have hperm : (tokens "A+UP+LUP+B+L(0,255)+DOWN".toList).Perm
      (tokens "B + LUP+A++UP+L(0,255)+ DOWN".toList) := by decide +kernel
  have horder : SameOrder (tokens "A+UP+LUP+B+L(0,255)+DOWN".toList)
      (tokens "B + LUP+A++UP+L(0,255)+ DOWN".toList) :=
    ⟨by decide +kernel, fun stick => by cases stick <;> decide +kernel⟩
  have hencode : encode "A+UP+LUP+B+L(0,255)+DOWN".toList =
      .ok (.ofParts 6 4 ⟨0, 255⟩ .centre) := by decide +kernel
  obtain ⟨haccepted, hsame⟩ := encode_of_perm.1 _ _ hfirst hsecond hperm
  obtain ⟨q, hq⟩ := haccepted.mp ⟨_, hencode⟩
  obtain rfl := (hsame _ q hencode hq).2 horder
  exact ⟨hperm, horder, hq, encode_of_perm.2 _ _ hq⟩

end Expression

end PadScript
