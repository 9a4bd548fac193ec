import PadScript.Proofs.Line

/-!
# Blanks and comments of a line

What a line is read as does not depend on the blanks around it, nor on a comment after it.

1. A line is skipped exactly if it is blank, or blank up to a comment
   (`classify_eq_skip_iff_isIdle`).
2. A comment with a blank before it is cut off where the text before it holds no comment, and goes
   with the earlier comment where it does (`stripComment_append`). The blank keeps a slash at the
   end of the text from making a comment sign with the slashes after it.
3. So a line is read alike with such a comment after it (`classify_append`). The exception is a
   directive whose target opens with a quote that is not closed: a comment may close it.
-/

namespace PadScript

namespace Text

/-- The text is made of blanks. -/
def Blank (s : Text) : Prop := ∀ c ∈ s, isBlank c = true

instance (s : Text) : Decidable (Blank s) := List.decidableBAll (fun c => isBlank c = true) s

theorem trimEnd_append_cons {c : Char} (hc : isBlank c = false) (s rest : Text) :
    trimEnd (s ++ c :: rest) = s ++ c :: trimEnd rest := by
  have hstop : (c :: s.reverse).dropWhile isBlank = c :: s.reverse :=
    List.dropWhile_cons_of_neg (by rw [hc]; exact Bool.false_ne_true)
  have hreverse : (s ++ c :: rest).reverse = rest.reverse ++ c :: s.reverse := by simp
  unfold trimEnd
  rw [hreverse, List.dropWhile_append]
  split
  · rename_i hempty
    rw [hstop, List.isEmpty_iff.mp hempty]
    simp
  · simp

theorem trim_cons {c : Char} (hc : isBlank c = false) (s : Text) :
    trim (c :: s) = c :: trimEnd s := by
  have hstart : trimStart (c :: s) = c :: s :=
    List.dropWhile_cons_of_neg (by rw [hc]; exact Bool.false_ne_true)
  rw [trim_eq_trimEnd hstart]
  exact trimEnd_append_cons hc [] s

theorem blank_of_trim_eq_nil {s : Text} (h : trim s = []) : Blank s := by
  obtain ⟨lead, trail, hlead, htrail, hs⟩ := exists_trim_between s
  rw [hs, h, List.append_nil]
  exact List.forall_mem_append.mpr ⟨hlead, htrail⟩

end Text

namespace Line

/-! ## Where comments start -/

/-- The text starts with a comment sign. -/
def StartsComment (s : Text) : Prop := ['#'] <+: s ∨ ['/', '/'] <+: s

theorem StartsComment.head? {s : Text} (h : StartsComment s) :
    s.head? = some '#' ∨ s.head? = some '/' := by
  rcases h with ⟨rest, rfl⟩ | ⟨rest, rfl⟩
  · exact .inl rfl
  · exact .inr rfl

theorem StartsComment.trim {s : Text} (h : StartsComment s) : StartsComment (Text.trim s) := by
  rcases h with ⟨rest, rfl⟩ | ⟨rest, rfl⟩
  · exact .inl ⟨Text.trimEnd rest, (Text.trim_cons (by decide) rest).symm⟩
  · have hend := Text.trimEnd_append_cons (c := '/') (by decide) [] rest
    refine .inr ⟨Text.trimEnd rest, ?_⟩
    show '/' :: ([] ++ '/' :: Text.trimEnd rest) = Text.trim ('/' :: '/' :: rest)
    rw [Text.trim_cons (by decide), ← hend]
    rfl

theorem not_startsComment_of_isBlank {c : Char} (h : Text.isBlank c = true) (s : Text) :
    ¬ StartsComment (c :: s) := by
  intro hs
  rcases hs.head? with hc | hc <;> cases hc <;> exact absurd h (by decide)

theorem stripComment_of_startsComment {s : Text} (h : StartsComment s) : stripComment s = [] := by
  rcases h with ⟨rest, rfl⟩ | ⟨rest, rfl⟩ <;> rfl

theorem stripComment_cons {c : Char} {s : Text} (h : ¬ StartsComment (c :: s)) :
    stripComment (c :: s) = c :: stripComment s :=
  stripComment.eq_4 c s (fun hc => h (.inl ⟨s, by rw [hc]; rfl⟩))
    fun more hc hs => h (.inr ⟨more, by rw [hc, hs]; rfl⟩)

theorem stripComment_blank_append {gap : Text} (h : Text.Blank gap) (s : Text) :
    stripComment (gap ++ s) = gap ++ stripComment s := by
  induction gap with
  | nil => rfl
  | cons c gap ih =>
    obtain ⟨hc, hgap⟩ := List.forall_mem_cons.mp h
    rw [List.cons_append, stripComment_cons (not_startsComment_of_isBlank hc _), ih hgap]
    rfl

/-- A comment in `s` goes on to the end of the text; without one, only `rest` can hold a comment. -/
theorem stripComment_append {s : Text} {rest : Text} (h : rest.head? ≠ some '/') :
    stripComment (s ++ rest) = stripComment s ∨
      stripComment s = s ∧ stripComment (s ++ rest) = s ++ stripComment rest := by
  fun_induction stripComment s with
  | case1 => exact .inr ⟨rfl, rfl⟩
  | case2 => exact .inl rfl
  | case3 => exact .inl rfl
  | case4 c s hash slashes ih =>
    have hstarts : ¬ StartsComment (c :: (s ++ rest)) := by
      rintro (⟨more, hmore⟩ | ⟨more, hmore⟩)
      · exact hash (List.cons.inj hmore).1.symm
      · obtain ⟨hc, hs⟩ := List.cons.inj hmore
        cases s with
        | nil =>
          -- a slash here and one at the start of `rest`
          rw [List.nil_append] at hs
          exact h (by rw [← hs]; rfl)
        | cons d s =>
          obtain ⟨rfl, -⟩ := List.cons.inj hs
          exact slashes s hc.symm rfl
    rw [List.cons_append, stripComment_cons hstarts]
    rcases ih with ih | ⟨hs, ih⟩
    · exact .inl (by rw [ih])
    · exact .inr ⟨by rw [hs], by rw [ih, List.cons_append]⟩

/-! ## Idle lines -/

/-- The line is blank, or blank up to a comment. -/
def IsIdle (line : Text) : Prop :=
  ∃ gap rest, Text.Blank gap ∧ line = gap ++ rest ∧ (rest = [] ∨ StartsComment rest)

theorem classify_of_at {raw rest : Text} (h : Text.trim raw = '@' :: rest) :
    classify raw = .directive (target (Text.trimStart rest)) := by
  unfold classify
  rw [h]
  rfl

theorem classify_of_not_at {raw : Text} (h : (Text.trim raw).head? ≠ some '@') :
    classify raw =
      if (Text.trim (stripComment (Text.trim raw))).isEmpty then .skip
      else .input (Text.trim (stripComment (Text.trim raw))) := by
  unfold classify
  split
  · rename_i rest hat
    rw [hat] at h
    exact absurd rfl h
  · rfl

theorem classify_eq_skip_iff {raw : Text} :
    classify raw = .skip ↔
      (Text.trim raw).head? ≠ some '@' ∧ Text.trim (stripComment (Text.trim raw)) = [] := by
  by_cases hat : (Text.trim raw).head? = some '@'
  · obtain ⟨rest, hrest⟩ := List.head?_eq_some_iff.mp hat
    simp [classify_of_at hrest, hat]
  · simp [classify_of_not_at hat, hat]

theorem classify_of_isIdle {line : Text} (h : IsIdle line) : classify line = .skip := by
  obtain ⟨gap, rest, hgap, rfl, hrest⟩ := h
  rw [classify_eq_skip_iff, Text.trim_append_left hgap]
  rcases hrest with rfl | hrest
  · exact ⟨by decide, rfl⟩
  · have htrim := hrest.trim
    refine ⟨?_, by rw [stripComment_of_startsComment htrim]; rfl⟩
    rcases htrim.head? with h | h <;> rw [h] <;> decide

/-- The lines that are skipped are the idle ones. -/
theorem classify_eq_skip_iff_isIdle {line : Text} : classify line = .skip ↔ IsIdle line := by
  refine ⟨fun h => ?_, classify_of_isIdle⟩
  obtain ⟨-, hbody⟩ := classify_eq_skip_iff.mp h
  obtain ⟨lead, trail, hlead, htrail, hline⟩ := Text.exists_trim_between line
  cases htrim : Text.trim line with
  | nil =>
    exact ⟨line, [], Text.blank_of_trim_eq_nil htrim, (List.append_nil line).symm, .inl rfl⟩
  | cons c s =>
    have hc := Text.isBlank_of_trim_eq_cons htrim
    rw [htrim] at hbody hline
    by_cases hstarts : StartsComment (c :: s)
    · refine ⟨lead, c :: s ++ trail, hlead, by rw [hline, List.append_assoc], .inr ?_⟩
      exact hstarts.imp (·.trans (List.prefix_append _ _)) (·.trans (List.prefix_append _ _))
    · rw [stripComment_cons hstarts] at hbody
      have hmem := Text.mem_trim_of_mem (List.mem_cons_self (a := c) (l := stripComment s)) hc
      rw [hbody] at hmem
      exact absurd hmem List.not_mem_nil

/-! ## Remarks -/

/-- A comment with blanks before it. -/
def IsRemark (s : Text) : Prop :=
  ∃ gap rest, gap ≠ [] ∧ Text.Blank gap ∧ s = gap ++ rest ∧ StartsComment rest

theorem IsRemark.blank_append {s gap : Text} (h : IsRemark s) (hgap : Text.Blank gap) :
    IsRemark (gap ++ s) := by
  obtain ⟨gap', rest, hne, hgap', rfl, hrest⟩ := h
  exact ⟨gap ++ gap', rest, List.append_ne_nil_of_right_ne_nil _ hne,
    List.forall_mem_append.mpr ⟨hgap, hgap'⟩, (List.append_assoc ..).symm, hrest⟩

/-- What is trimmed after a remark leaves a remark. -/
theorem IsRemark.exists_trimEnd {s : Text} (h : IsRemark s) (t : Text) :
    ∃ s', IsRemark s' ∧ Text.trimEnd (t ++ s) = t ++ s' := by
  obtain ⟨gap, _, hne, hgap, rfl, ⟨rest, rfl⟩ | ⟨rest, rfl⟩⟩ := h
  · refine ⟨gap ++ '#' :: Text.trimEnd rest, ⟨gap, _, hne, hgap, rfl, .inl ⟨_, rfl⟩⟩, ?_⟩
    have htrim := Text.trimEnd_append_cons (c := '#') (by decide) (t ++ gap) rest
    simpa using htrim
  · refine ⟨gap ++ '/' :: '/' :: Text.trimEnd rest, ⟨gap, _, hne, hgap, rfl, .inr ⟨_, rfl⟩⟩, ?_⟩
    have htrim := Text.trimEnd_append_cons (c := '/') (by decide) (t ++ gap ++ ['/']) rest
    simpa using htrim

theorem trim_stripComment_append {s rest : Text} (h : IsRemark rest) :
    Text.trim (stripComment (s ++ rest)) = Text.trim (stripComment s) := by
  obtain ⟨gap, sign, hne, hgap, rfl, hsign⟩ := h
  have hhead : (gap ++ sign).head? ≠ some '/' := by
    obtain ⟨c, gap, rfl⟩ := List.exists_cons_of_ne_nil hne
    intro h
    cases h
    exact absurd (hgap '/' List.mem_cons_self) (by decide)
  rcases @stripComment_append s _ hhead with h | ⟨hs, h⟩
  · rw [h]
  · rw [h, hs, stripComment_blank_append hgap, stripComment_of_startsComment hsign,
      List.append_nil, Text.trim_append_blanks hgap]

/-- A line that opens an include path with a quote and does not close it. -/
def OpensQuote (line : Text) : Prop :=
  ∃ lead gap path, Text.Blank lead ∧ Text.Blank gap ∧
    line = lead ++ '@' :: (gap ++ '"' :: path) ∧ '"' ∉ path

theorem OpensQuote.count_quote {line : Text} (h : OpensQuote line) : line.count '"' = 1 := by
  obtain ⟨lead, gap, path, hlead, hgap, rfl, hpath⟩ := h
  have hblank : ∀ s, Text.Blank s → s.count '"' = 0 := fun s hs =>
    List.count_eq_zero.mpr fun hmem => absurd (hs '"' hmem) (by decide)
  simp [hblank lead hlead, hblank gap hgap, List.count_eq_zero.mpr hpath]

theorem target_of_not_quote {s : Text} (h : s.head? ≠ some '"') :
    target s = Text.trim (stripComment s) := by
  unfold target
  split
  · exact absurd rfl h
  · rfl

/-- The target of a directive ends before a remark, unless a quote is open there. -/
theorem target_append {s rest : Text} (hne : s ≠ []) (hrest : IsRemark rest)
    (hquote : ∀ path, s = '"' :: path → '"' ∈ path) : target (s ++ rest) = target s := by
  by_cases hhead : s.head? = some '"'
  · obtain ⟨path, rfl⟩ := List.head?_eq_some_iff.mp hhead
    obtain ⟨inner, more, rfl, hinner⟩ := List.eq_append_cons_of_mem (hquote path rfl)
    have hcut := Text.cutFirst_append_cons hinner more
    have hcut' := Text.cutFirst_append_cons hinner (more ++ rest)
    unfold target
    simp only [List.cons_append, List.append_assoc, hcut, hcut']
  · have hhead' : (s ++ rest).head? ≠ some '"' := by
      rwa [List.head?_append_of_ne_nil _ hne]
    rw [target_of_not_quote hhead, target_of_not_quote hhead', trim_stripComment_append hrest]

theorem target_trimStart_append {s rest : Text} (hrest : IsRemark rest)
    (hquote : ∀ path, Text.trimStart s = '"' :: path → '"' ∈ path) :
    target (Text.trimStart (s ++ rest)) = target (Text.trimStart s) := by
  by_cases hblank : Text.trimStart s = []
  · -- nothing comes before the comment, which is no target
    obtain ⟨gap, sign, -, hgap, rfl, hsign⟩ := hrest
    have hsigned : Text.trimStart (s ++ (gap ++ sign)) = sign := by
      have hs : Text.Blank s := List.dropWhile_eq_nil_iff.mp hblank
      unfold Text.trimStart
      rw [List.dropWhile_append_of_pos hs, List.dropWhile_append_of_pos hgap]
      obtain ⟨c, more, rfl⟩ : ∃ c more, sign = c :: more := by
        rcases hsign with ⟨more, rfl⟩ | ⟨more, rfl⟩ <;> exact ⟨_, _, rfl⟩
      rcases hsign.head? with h | h <;> cases h <;> exact List.dropWhile_cons_of_neg (by decide)
    have hhead : sign.head? ≠ some '"' := by
      rcases hsign.head? with h | h <;> rw [h] <;> decide
    rw [hsigned, hblank, target_of_not_quote hhead, stripComment_of_startsComment hsign]
    rfl
  · have happend : Text.trimStart (s ++ rest) = Text.trimStart s ++ rest := by
      unfold Text.trimStart at hblank ⊢
      rw [List.dropWhile_append, if_neg fun h => hblank (List.isEmpty_iff.mp h)]
    rw [happend, target_append hblank hrest hquote]

/-- A line is read alike with a remark after it, unless a quote is open there. -/
theorem classify_append {line rest : Text} (hrest : IsRemark rest) (hquote : ¬ OpensQuote line) :
    classify (line ++ rest) = classify line := by
  obtain ⟨lead, trail, hlead, htrail, hline⟩ := Text.exists_trim_between line
  cases htrim : Text.trim line with
  | nil =>
    obtain ⟨gap, sign, -, hgap, rfl, hsign⟩ := hrest
    have hblank := Text.blank_of_trim_eq_nil htrim
    have hidle : IsIdle line := ⟨line, [], hblank, (List.append_nil line).symm, .inl rfl⟩
    have hidle' : IsIdle (line ++ (gap ++ sign)) :=
      ⟨line ++ gap, sign, List.forall_mem_append.mpr ⟨hblank, hgap⟩, by simp, .inr hsign⟩
    rw [classify_of_isIdle hidle, classify_of_isIdle hidle']
  | cons c s =>
    obtain ⟨rest', hrest', hend⟩ := (hrest.blank_append htrail).exists_trimEnd s
    have htrim' : Text.trim (line ++ rest) = c :: (s ++ rest') := by
      rw [hline, htrim, List.append_assoc, List.append_assoc, Text.trim_append_left hlead,
        List.cons_append, Text.trim_cons (Text.isBlank_of_trim_eq_cons htrim), hend]
    by_cases hat : c = '@'
    · subst hat
      rw [classify_of_at htrim, classify_of_at htrim', target_trimStart_append hrest']
      intro path hpath
      by_contra hopen
      obtain ⟨gap, hgap, hs⟩ := Text.exists_blanks_append_trimStart s
      refine hquote ⟨lead, gap, path ++ trail, hlead, hgap, ?_, ?_⟩
      · rw [hline, htrim, hs, hpath]
        simp
      · rw [List.mem_append, not_or]
        exact ⟨hopen, fun h => absurd (htrail '"' h) (by decide)⟩
    · have hhead : (Text.trim line).head? ≠ some '@' := by simpa [htrim] using hat
      have hhead' : (Text.trim (line ++ rest)).head? ≠ some '@' := by simpa [htrim'] using hat
      rw [classify_of_not_at hhead, classify_of_not_at hhead', htrim', htrim, ← List.cons_append,
        trim_stripComment_append hrest']

example : classify "@\"tap".toList ≠ classify "@\"tap # \"".toList := by decide

end Line

end PadScript
