import PadScript.Proofs.Line

/-!
# Parentheses and the last comma

An input line is cut where a grammar of parentheses says: at a comma with balanced text on either
side, after which no comma stands outside parentheses.

1. The scan that counts open parentheses says what the counts in all prefixes say
   (`nesting_eq_some_iff`), so it ends at zero exactly on balanced text (`balanced_iff_nesting`).
2. The scan for the comma makes no cut exactly if the parentheses are balanced and no comma stands
   outside them (`cutTopLevel_eq_some_none_iff`), and a cut exactly at such a comma that such text
   follows (`cutTopLevel_eq_cut_iff`).
-/

namespace PadScript

/-- Every parenthesis is closed, and none is closed that is not open. -/
structure Text.Balanced (s : Text) : Prop where
  prefixes : ∀ t, t <+: s → t.count ')' ≤ t.count '('
  counts : s.count '(' = s.count ')'

namespace Line

/-- The line is `a`, a comma and `b`, both balanced, and in `b` every comma is in parentheses. -/
structure CutAt (line a b : Text) : Prop where
  eq : line = a ++ ',' :: b
  before : Text.Balanced a
  after : Text.Balanced b
  last : ∀ u v, b = u ++ ',' :: v → u.count '(' ≠ u.count ')'

/-! ## Counting parentheses -/

theorem forall_isPrefix_cons {P : Text → Prop} {c : Char} {s : Text} :
    (∀ t, t <+: c :: s → P t) ↔ P [] ∧ ∀ t, t <+: s → P (c :: t) := by
  constructor
  · intro h
    exact ⟨h [] List.nil_prefix, fun t ht => h (c :: t) ((List.prefix_cons_inj c).mpr ht)⟩
  · rintro ⟨hnil, hcons⟩ t ht
    rcases List.prefix_cons_iff.mp ht with rfl | ⟨t', rfl, ht'⟩
    · exact hnil
    · exact hcons t' ht'

/-- The open parentheses are those that were open before and those that the text opens, less those
that it closes, if no start of it closes more than are open. -/
theorem nesting_eq_some_iff {depth depth' : Nat} {s : Text} :
    nesting depth s = some depth' ↔
      (∀ t, t <+: s → t.count ')' ≤ depth + t.count '(') ∧
        depth + s.count '(' = depth' + s.count ')' := by
  fun_induction nesting depth s with
  | case1 depth => simp
  | case2 depth s ih =>
    rw [ih, forall_isPrefix_cons]
    simp [Nat.add_assoc, Nat.add_comm 1]
  | case3 s hopen =>
    rw [forall_isPrefix_cons]
    constructor
    · intro h; cases h
    · rintro ⟨⟨-, hprefixes⟩, -⟩
      exact absurd (hprefixes [] List.nil_prefix) (by decide)
  | case4 s hopen depth ih =>
    have hcounts : ∀ t : Text, (')' :: t).count '(' = t.count '(' ∧
        (')' :: t).count ')' = t.count ')' + 1 := fun t => ⟨by simp, by simp⟩
    simp only [ih, forall_isPrefix_cons, hcounts]
    refine and_congr ⟨fun h => ⟨by simp, fun t ht => ?_⟩, fun h t ht => ?_⟩ (by omega)
    · have := h t ht
      omega
    · have := h.2 t ht
      omega
  | case5 depth c s hopen hclose ih =>
    rw [ih, forall_isPrefix_cons]
    simp [hopen, hclose]

theorem balanced_iff_nesting {s : Text} : Text.Balanced s ↔ nesting 0 s = some 0 := by
  rw [nesting_eq_some_iff]
  simp only [Nat.zero_add]
  exact ⟨fun h => ⟨h.prefixes, h.counts⟩, fun ⟨hprefixes, hcounts⟩ => ⟨hprefixes, hcounts⟩⟩

/-- A start of balanced text leaves none open exactly if it closes as many as it opens. -/
theorem nesting_start_iff {u v : Text} (h : Text.Balanced (u ++ v)) :
    nesting 0 u = some 0 ↔ u.count '(' = u.count ')' := by
  rw [nesting_eq_some_iff, Nat.zero_add, Nat.zero_add]
  refine and_iff_right fun t ht => ?_
  rw [Nat.zero_add]
  exact h.prefixes t (ht.trans (List.prefix_append u v))

/-! ## Commas outside parentheses -/

/-- With `depth` parentheses open before the text, none of its commas stands outside all of them. -/
def Sheltered (depth : Nat) (s : Text) : Prop :=
  ∀ u v, s = u ++ ',' :: v → nesting depth u ≠ some 0

theorem sheltered_nil (depth : Nat) : Sheltered depth [] := fun u v h =>
  absurd h (List.append_ne_nil_of_right_ne_nil u (List.cons_ne_nil ',' v)).symm

theorem sheltered_cons_iff {depth depth' : Nat} {c : Char} {s : Text}
    (h : ∀ u, nesting depth (c :: u) = nesting depth' u) :
    Sheltered depth (c :: s) ↔ ¬ (c = ',' ∧ depth = 0) ∧ Sheltered depth' s := by
  constructor
  · intro hs
    refine ⟨?_, fun u v huv => ?_⟩
    · rintro ⟨rfl, rfl⟩
      exact hs [] s rfl rfl
    · rw [← h]
      exact hs (c :: u) v (by rw [huv, List.cons_append])
  · rintro ⟨hc, hs⟩ u v huv
    cases u with
    | nil =>
      obtain ⟨rfl, rfl⟩ := List.cons.inj huv
      intro hdepth
      exact hc ⟨rfl, Option.some.inj hdepth⟩
    | cons d u =>
      obtain ⟨rfl, rfl⟩ := List.cons.inj huv
      rw [h]
      exact hs u v rfl

/-! ## The cut -/

/-- A cut of the text after `c` is one of the text from `c` on. -/
def cutAfter (c : Char) (cut : Option (Text × Text)) : Option (Text × Text) :=
  cut.map fun (a, b) => (c :: a, b)

theorem cutAfter_eq_some_iff {c : Char} {cut : Option (Text × Text)} {a b : Text} :
    cutAfter c cut = some (a, b) ↔ ∃ a', cut = some (a', b) ∧ a = c :: a' := by
  unfold cutAfter
  cases cut with
  | none => simp
  | some cut =>
    obtain ⟨a', b'⟩ := cut
    simp only [Option.map_some, Option.some_inj, Prod.mk.injEq]
    constructor
    · rintro ⟨rfl, rfl⟩
      exact ⟨a', ⟨rfl, rfl⟩, rfl⟩
    · rintro ⟨_, ⟨rfl, rfl⟩, rfl⟩
      exact ⟨rfl, rfl⟩

/-- What one character does to the scan: it closes a parenthesis that is not open, or it is a comma
outside parentheses, or it only changes how many are open. -/
inductive ScanStep (depth : Nat) (c : Char) (s : Text) : Prop
  | unopened (hnesting : nesting depth (c :: s) = none) (hcut : cutTopLevel depth (c :: s) = none)
  | comma (hc : c = ',') (hdepth : depth = 0)
      (hcut : cutTopLevel depth (c :: s) =
        (cutTopLevel 0 s).map fun cut => (cutAfter c cut).or (some ([], s)))
  | pass (depth' : Nat) (hnesting : ∀ u, nesting depth (c :: u) = nesting depth' u)
      (hc : ¬ (c = ',' ∧ depth = 0))
      (hcut : cutTopLevel depth (c :: s) = (cutTopLevel depth' s).map (cutAfter c))

theorem scanStep (depth : Nat) (c : Char) (s : Text) : ScanStep depth c s := by
  by_cases hopen : c = '('
  · subst hopen
    exact .pass (depth + 1) (nesting_opening depth) (by simp) (cutTopLevel_opening depth s)
  by_cases hclose : c = ')'
  · subst hclose
    cases depth with
    | zero => exact .unopened rfl rfl
    | succ depth =>
      exact .pass depth (nesting_closing depth) (by simp) (cutTopLevel_closing depth s)
  have hcut := cutTopLevel_cons hopen hclose depth s
  by_cases hcomma : c = ',' ∧ depth = 0
  · obtain ⟨rfl, rfl⟩ := hcomma
    refine .comma rfl rfl (hcut.trans (congrArg (Option.map · _) (funext fun cut => ?_)))
    cases cut <;> rfl
  · refine .pass depth (nesting_cons hopen hclose depth) hcomma
      (hcut.trans (congrArg (Option.map · _) (funext fun cut => ?_)))
    cases cut with
    | none => exact if_neg hcomma
    | some cut => rfl

theorem cutTopLevel_eq_some_none_iff {depth : Nat} {s : Text} :
    cutTopLevel depth s = some none ↔ nesting depth s = some 0 ∧ Sheltered depth s := by
  induction s generalizing depth with
  | nil =>
    by_cases hdepth : depth = 0
    · simp [cutTopLevel, nesting, hdepth, sheltered_nil]
    · simp [cutTopLevel, nesting, hdepth]
  | cons c s ih =>
    rcases scanStep depth c s with
      ⟨hnesting, hcut⟩ | ⟨rfl, rfl, hcut⟩ | ⟨depth', hnesting, hc, hcut⟩
    · simp [hcut, hnesting]
    · have hbare : ¬ Sheltered 0 (',' :: s) := fun h => h [] s rfl rfl
      simp [hcut, hbare]
    · have hnone : ∀ cut, cutAfter c cut = none ↔ cut = none := fun _ => Option.map_eq_none_iff
      rw [hcut, hnesting, sheltered_cons_iff hnesting, and_iff_right hc, ← ih]
      simp [hnone]

theorem eq_of_cutTopLevel {depth : Nat} {s a b : Text}
    (h : cutTopLevel depth s = some (some (a, b))) :
    s = a ++ ',' :: b ∧ nesting depth a = some 0 ∧ cutTopLevel 0 b = some none := by
  induction s generalizing depth a with
  | nil =>
    unfold cutTopLevel at h
    split at h <;> cases h
  | cons c s ih =>
    rcases scanStep depth c s with ⟨-, hcut⟩ | ⟨rfl, rfl, hcut⟩ | ⟨depth', hnesting, -, hcut⟩
    · rw [hcut] at h
      cases h
    · rw [hcut] at h
      obtain ⟨cut, hrest, hor⟩ := Option.map_eq_some_iff.mp h
      cases cut with
      | none =>
        cases hor
        exact ⟨rfl, rfl, hrest⟩
      | some cut =>
        obtain ⟨a', b'⟩ := cut
        cases hor
        obtain ⟨rfl, hnesting, hb⟩ := ih hrest
        exact ⟨rfl, hnesting, hb⟩
    · rw [hcut] at h
      obtain ⟨cut, hrest, hafter⟩ := Option.map_eq_some_iff.mp h
      obtain ⟨a', rfl, rfl⟩ := cutAfter_eq_some_iff.mp hafter
      obtain ⟨rfl, hdepth, hb⟩ := ih hrest
      exact ⟨rfl, (hnesting a').trans hdepth, hb⟩

theorem cutTopLevel_eq_cut_iff {depth : Nat} {s a b : Text} :
    cutTopLevel depth s = some (some (a, b)) ↔
      s = a ++ ',' :: b ∧ nesting depth a = some 0 ∧ nesting 0 b = some 0 ∧ Sheltered 0 b := by
  rw [← cutTopLevel_eq_some_none_iff]
  refine ⟨eq_of_cutTopLevel, ?_⟩
  rintro ⟨rfl, hbefore, hafter⟩
  have hcut : cutTopLevel 0 (',' :: b) = some (some ([], b)) := by
    rw [cutTopLevel_cons (by decide) (by decide), hafter]
    rfl
  rw [cutTopLevel_append hbefore hcut, List.append_nil]

theorem cutAt_iff_cutTopLevel {line a b : Text} :
    CutAt line a b ↔ cutTopLevel 0 line = some (some (a, b)) := by
  rw [cutTopLevel_eq_cut_iff, ← balanced_iff_nesting, ← balanced_iff_nesting]
  constructor
  · intro h
    refine ⟨h.eq, h.before, h.after, fun u v huv hnesting => h.last u v huv ?_⟩
    exact (nesting_start_iff (huv ▸ h.after)).mp hnesting
  · rintro ⟨hline, hbefore, hafter, hlast⟩
    refine ⟨hline, hbefore, hafter, fun u v huv hcounts => hlast u v huv ?_⟩
    exact (nesting_start_iff (huv ▸ hafter)).mpr hcounts

theorem split_eq_ok_iff {line e d : Text} :
    split line = .ok (e, d) ↔ ∃ a b, CutAt line a b ∧ e = Text.trim a ∧ d = Text.trim b := by
  simp only [cutAt_iff_cutTopLevel]
  unfold split
  split
  · rename_i a b hcut
    rw [Except.ok.injEq, Prod.mk.injEq]
    constructor
    · rintro ⟨rfl, rfl⟩
      exact ⟨a, b, hcut, rfl, rfl⟩
    · rintro ⟨_, _, h, rfl, rfl⟩
      rw [hcut] at h
      cases h
      exact ⟨rfl, rfl⟩
  · rename_i hcut
    constructor
    · intro h; cases h
    · rintro ⟨a, b, h, -⟩
      exact absurd h (hcut a b)

/-- **Where a line is cut.** A line is read as an expression and a duration exactly if it is cut at
a comma between balanced texts, the last one outside parentheses; there is at most one such cut, and
every other line is malformed as a whole. -/
theorem split_iff_cutAt (line : Text) :
    (∀ e d, split line = .ok (e, d) ↔
      ∃ a b, CutAt line a b ∧ e = Text.trim a ∧ d = Text.trim b) ∧
    (∀ a b a' b', CutAt line a b → CutAt line a' b' → a = a' ∧ b = b') ∧
    ((∀ a b, ¬ CutAt line a b) → ∃ fault, split line = .error fault ∧
      fault.code = "E1001".toList ∧ fault.context = some line) := by
  refine ⟨fun e d => split_eq_ok_iff, fun a b a' b' h h' => ?_, fun h => ?_⟩
  · rw [cutAt_iff_cutTopLevel] at h h'
    rw [h] at h'
    simpa using h'
  · refine ⟨.malformedLine line, ?_, rfl, rfl⟩
    unfold split
    split
    · rename_i a b hcut
      exact absurd (cutAt_iff_cutTopLevel.mpr hcut) (h a b)
    · rfl

/-- A line with three commas, one of them in parentheses, and a line whose comma comes before a
parenthesis that is not open. -/
theorem split_threeCommas :
    CutAt "L(0,255),A , 0x10".toList "L(0,255),A ".toList " 0x10".toList ∧
      split "L(0,255),A , 0x10".toList = .ok ("L(0,255),A".toList, "0x10".toList) ∧
      (∀ a b, CutAt "L(0,255),A , 0x10".toList a b → a = "L(0,255),A ".toList) ∧
      (∀ a b, ¬ CutAt "A,1)".toList a b) ∧
      ∃ fault, split "A,1)".toList = .error fault ∧ fault.code = "E1001".toList ∧
        fault.context = some "A,1)".toList := by
  have hcut : CutAt "L(0,255),A , 0x10".toList "L(0,255),A ".toList " 0x10".toList :=
    cutAt_iff_cutTopLevel.mpr (by decide +kernel)
  have hnone : cutTopLevel 0 "A,1)".toList = none := by decide
  have hrefused : ∀ a b, ¬ CutAt "A,1)".toList a b := by
    intro a b h
    rw [cutAt_iff_cutTopLevel, hnone] at h
    cases h
  have hok := (split_iff_cutAt "L(0,255),A , 0x10".toList).1 "L(0,255),A".toList "0x10".toList
  refine ⟨hcut, hok.mpr ⟨_, _, hcut, by decide, by decide⟩, fun a b h => ?_, hrefused, ?_⟩
  · exact ((split_iff_cutAt _).2.1 a b _ _ h hcut).1
  · exact (split_iff_cutAt _).2.2 hrefused

end Line

end PadScript
