import PadScript.Line
import PadScript.Proofs.Text

/-!
# What lines stand for

The body of an input line is a part of the line, and on a line of its own it is read as the same
input: neither its ends nor a comment can be cut off again, and it does not become a directive.

A text whose parentheses are balanced can stand before the comma of an input line as it is
(`split_append_comma`), whatever commas it holds inside them.
-/

namespace PadScript.Line

/-! ## Comments -/

theorem stripComment_isPrefix (s : Text) : stripComment s <+: s := by
  fun_induction stripComment s with
  | case1 => exact List.prefix_rfl
  | case2 => exact List.nil_prefix
  | case3 => exact List.nil_prefix
  | case4 c s _ _ ih => exact (List.prefix_cons_inj c).mpr ih

/-- A comment sign in the start of a text is one in the text. -/
theorem stripComment_eq_self_of_isPrefix {s t : Text} (h : t <+: s) (hs : stripComment s = s) :
    stripComment t = t := by
  fun_induction stripComment s generalizing t with
  | case1 =>
    rw [List.prefix_nil.mp h]
    rfl
  | case2 => cases hs
  | case3 => cases hs
  | case4 c s hash slashes ih =>
    cases t with
    | nil => rfl
    | cons d t =>
      obtain ⟨rfl, ht⟩ := List.cons_prefix_cons.mp h
      have hrest := ih ht (List.cons.inj hs).2
      have hslashes : ∀ more, d = '/' → t = '/' :: more → False := by
        rintro more rfl rfl
        obtain ⟨rest, rfl⟩ := ht
        exact slashes (more ++ rest) rfl rfl
      rw [stripComment.eq_4 _ _ hash hslashes, hrest]

theorem stripComment_stripComment (s : Text) : stripComment (stripComment s) = stripComment s := by
  fun_induction stripComment s with
  | case1 => rfl
  | case2 => rfl
  | case3 => rfl
  | case4 c s hash slashes ih =>
    have hslashes : ∀ more, c = '/' → stripComment s = '/' :: more → False := by
      intro more hc hs
      obtain ⟨rest, hrest⟩ := stripComment_isPrefix s
      rw [hs] at hrest
      exact slashes (more ++ rest) hc hrest.symm
    rw [stripComment.eq_4 _ _ hash hslashes, ih]

theorem stripComment_eq_self {s : Text} (hash : '#' ∉ s) (slash : '/' ∉ s) :
    stripComment s = s := by
  fun_induction stripComment s with
  | case1 => rfl
  | case2 s => exact absurd List.mem_cons_self hash
  | case3 s => exact absurd List.mem_cons_self slash
  | case4 c s _ _ ih =>
    rw [List.mem_cons, not_or] at hash slash
    rw [ih hash.2 slash.2]

/-! ## Reading lines -/

theorem classify_congr {raw raw' : Text} (h : Text.trim raw = Text.trim raw') :
    classify raw = classify raw' := by
  unfold classify
  rw [h]

theorem classify_nil : classify [] = .skip := rfl

/-! ## Inputs -/

theorem classify_eq_input_iff {raw body : Text} :
    classify raw = .input body ↔
      (Text.trim raw).head? ≠ some '@' ∧
        body = Text.trim (stripComment (Text.trim raw)) ∧ body ≠ [] := by
  unfold classify
  split
  · rename_i rest h
    constructor
    · intro h'; cases h'
    · rintro ⟨hat, -⟩
      rw [h] at hat
      exact absurd rfl hat
  · rename_i line hat
    have hhead : (Text.trim raw).head? ≠ some '@' := by
      intro h
      obtain ⟨rest, hrest⟩ := List.head?_eq_some_iff.mp h
      exact hat rest hrest
    simp only
    split
    · rename_i hempty
      constructor
      · intro h'; cases h'
      · rintro ⟨-, rfl, hne⟩
        exact absurd (List.isEmpty_iff.mp hempty) hne
    · rename_i hne
      constructor
      · intro h'
        cases h'
        exact ⟨hhead, rfl, fun h => hne (List.isEmpty_iff.mpr h)⟩
      · rintro ⟨-, rfl, -⟩
        rfl

/-- The body of an input line starts the trimmed line. -/
theorem body_isPrefix {raw body : Text} (h : classify raw = .input body) :
    body <+: stripComment (Text.trim raw) := by
  obtain ⟨-, rfl, -⟩ := classify_eq_input_iff.mp h
  have hstart : Text.trimStart (stripComment (Text.trim raw)) = stripComment (Text.trim raw) :=
    Text.trimStart_eq_self_of_isPrefix (stripComment_isPrefix _) (Text.trimStart_trim raw)
  rw [Text.trim_eq_trimEnd hstart]
  exact Text.trimEnd_isPrefix _

theorem body_ne_nil {raw body : Text} (h : classify raw = .input body) : body ≠ [] :=
  (classify_eq_input_iff.mp h).2.2

theorem trim_body {raw body : Text} (h : classify raw = .input body) : Text.trim body = body := by
  rw [(classify_eq_input_iff.mp h).2.1, Text.trim_trim]

/-- The body of an input line, on a line of its own, is read as itself. -/
theorem classify_body {raw body : Text} (h : classify raw = .input body) :
    classify body = .input body := by
  have hstarts := body_isPrefix h
  have htrim := trim_body h
  have hne := body_ne_nil h
  have hstrip : stripComment body = body :=
    stripComment_eq_self_of_isPrefix hstarts (stripComment_stripComment _)
  refine classify_eq_input_iff.mpr ⟨?_, by rw [htrim, hstrip, htrim], hne⟩
  rw [htrim]
  intro hhead
  obtain ⟨rest, hrest⟩ := hstarts.trans (stripComment_isPrefix _)
  obtain ⟨more, rfl⟩ := List.head?_eq_some_iff.mp hhead
  apply (classify_eq_input_iff.mp h).1
  rw [← hrest]
  rfl

/-- The body of a line of a source fits on a line. -/
theorem isLine_body {source raw body : Text} (hraw : raw ∈ Text.lines source)
    (h : classify raw = .input body) : Text.IsLine body where
  ne_nil := body_ne_nil h
  lineFeed hmem := by
    have hline := ((body_isPrefix h).trans (stripComment_isPrefix _)).subset hmem
    exact Text.lineFeed_not_mem_of_mem_lines hraw (Text.mem_of_mem_trim hline)
  last hlast := by
    have hblank : Text.isBlank '\r' = false := by
      apply Text.isBlank_of_mem_getLast?_trim (s := body)
      rw [trim_body h]
      exact hlast
    exact absurd hblank (by decide)

/-! ## The comma before the duration -/

/-- How many parentheses are open after a text, when `depth` are open before it; nothing if it
closes one that is not open. -/
def nesting (depth : Nat) : Text → Option Nat
  | [] => some depth
  | c :: s =>
    if c = '(' then nesting (depth + 1) s
    else if c = ')' then
      match depth with
      | 0 => none
      | depth + 1 => nesting depth s
    else nesting depth s

theorem nesting_opening (depth : Nat) (s : Text) :
    nesting depth ('(' :: s) = nesting (depth + 1) s := by
  rw [nesting.eq_def]
  rfl

theorem nesting_closing (depth : Nat) (s : Text) :
    nesting (depth + 1) (')' :: s) = nesting depth s := by
  rw [nesting.eq_def]
  rfl

theorem nesting_cons {c : Char} (hopen : c ≠ '(') (hclose : c ≠ ')') (depth : Nat) (s : Text) :
    nesting depth (c :: s) = nesting depth s := by
  rw [nesting.eq_def]
  simp only
  rw [if_neg hopen, if_neg hclose]

theorem nesting_append (depth : Nat) (s t : Text) :
    nesting depth (s ++ t) = (nesting depth s).bind fun d => nesting d t := by
  fun_induction nesting depth s with
  | case1 depth => rfl
  | case2 depth s ih => rw [List.cons_append, nesting_opening, ih]
  | case3 s hopen => rfl
  | case4 s hopen depth ih => rw [List.cons_append, nesting_closing, ih]
  | case5 depth c s hopen hclose ih => rw [List.cons_append, nesting_cons hopen hclose, ih]

theorem nesting_eq_self {s : Text} (hopen : '(' ∉ s) (hclose : ')' ∉ s) (depth : Nat) :
    nesting depth s = some depth := by
  induction s with
  | nil => rfl
  | cons c s ih =>
    rw [List.mem_cons, not_or] at hopen hclose
    rw [nesting_cons (Ne.symm hopen.1) (Ne.symm hclose.1), ih hopen.2 hclose.2]

theorem cutTopLevel_opening (depth : Nat) (s : Text) :
    cutTopLevel depth ('(' :: s) =
      (cutTopLevel (depth + 1) s).map (·.map fun (a, b) => ('(' :: a, b)) := by
  rw [cutTopLevel.eq_def]
  rfl

theorem cutTopLevel_closing (depth : Nat) (s : Text) :
    cutTopLevel (depth + 1) (')' :: s) =
      (cutTopLevel depth s).map (·.map fun (a, b) => (')' :: a, b)) := by
  rw [cutTopLevel.eq_def]
  rfl

theorem cutTopLevel_cons {c : Char} (hopen : c ≠ '(') (hclose : c ≠ ')') (depth : Nat)
    (s : Text) :
    cutTopLevel depth (c :: s) = (cutTopLevel depth s).map fun cut =>
      match cut with
      | some (a, b) => some (c :: a, b)
      | none => if c = ',' ∧ depth = 0 then some ([], s) else none := by
  rw [cutTopLevel.eq_def]
  exact (if_neg hopen).trans (if_neg hclose)

/-- A cut after a text is the last one, so nothing before it moves it. -/
theorem cutTopLevel_append {depth depth' : Nat} {s t a b : Text}
    (hs : nesting depth s = some depth') (ht : cutTopLevel depth' t = some (some (a, b))) :
    cutTopLevel depth (s ++ t) = some (some (s ++ a, b)) := by
  fun_induction nesting depth s with
  | case1 depth =>
    cases hs
    exact ht
  | case2 depth s ih => rw [List.cons_append, cutTopLevel_opening, ih hs]; rfl
  | case3 s hopen => cases hs
  | case4 s hopen depth ih => rw [List.cons_append, cutTopLevel_closing, ih hs]; rfl
  | case5 depth c s hopen hclose ih =>
    rw [List.cons_append, cutTopLevel_cons hopen hclose, ih hs]
    rfl

theorem cutTopLevel_eq_none {s : Text} (hopen : '(' ∉ s) (hclose : ')' ∉ s) (hcomma : ',' ∉ s) :
    cutTopLevel 0 s = some none := by
  induction s with
  | nil => rfl
  | cons c s ih =>
    rw [List.mem_cons, not_or] at hopen hclose hcomma
    rw [cutTopLevel_cons (Ne.symm hopen.1) (Ne.symm hclose.1), ih hopen.2 hclose.2 hcomma.2,
      Option.map_some, Option.some_inj]
    exact if_neg fun h => hcomma.1 h.1.symm

theorem split_append_comma {expression duration : Text} (hbalanced : nesting 0 expression = some 0)
    (hopen : '(' ∉ duration) (hclose : ')' ∉ duration) (hcomma : ',' ∉ duration) :
    split (expression ++ ',' :: duration) =
      .ok (Text.trim expression, Text.trim duration) := by
  have hcut : cutTopLevel 0 (',' :: duration) = some (some ([], duration)) := by
    rw [cutTopLevel_cons (by decide) (by decide), cutTopLevel_eq_none hopen hclose hcomma]
    rfl
  unfold split
  rw [cutTopLevel_append hbalanced hcut, List.append_nil]

end PadScript.Line
