import Mathlib.Data.List.DropRight
import PadScript.Text.Lines

/-!
# Trimming and lines

A trimmed text has no blank at either end, so trimming it again changes nothing, and trimming
removes what blanks stand around a text without any. Pieces hold no separator, and texts without
separators are the pieces of what joins them. Texts that hold something and end in no carriage
return are the lines of the text that joins them with line feeds.
-/

namespace PadScript.Text

/-! ## Trimming -/

theorem trimEnd_isPrefix (s : Text) : trimEnd s <+: s := List.rdropWhile_prefix _ _

theorem trimStart_isSuffix (s : Text) : trimStart s <:+ s := List.dropWhile_suffix _

theorem trim_isPrefix_trimStart (s : Text) : trim s <+: trimStart s := trimEnd_isPrefix _

theorem mem_of_mem_trim {c : Char} {s : Text} (h : c ∈ trim s) : c ∈ s :=
  (trimStart_isSuffix s).subset ((trim_isPrefix_trimStart s).subset h)

theorem trimStart_trimStart (s : Text) : trimStart (trimStart s) = trimStart s :=
  List.dropWhile_idempotent _ _

theorem isBlank_of_trimStart_eq_self {c : Char} {s : Text} (h : trimStart (c :: s) = c :: s) :
    isBlank c = false := by
  by_contra hc
  rw [Bool.not_eq_false] at hc
  have hlen := congrArg List.length h
  unfold trimStart at hlen
  rw [List.dropWhile_cons_of_pos hc, List.length_cons] at hlen
  have hle := (List.dropWhile_suffix isBlank (l := s)).length_le
  omega

/-- A text that starts with no blank shares its start with its non-empty prefixes. -/
theorem trimStart_eq_self_of_isPrefix {s t : Text} (h : t <+: s) (hs : trimStart s = s) :
    trimStart t = t := by
  cases t with
  | nil => rfl
  | cons c t =>
    obtain ⟨rest, rfl⟩ := h
    have hc := isBlank_of_trimStart_eq_self hs
    exact List.dropWhile_cons_of_neg (by rw [hc]; exact Bool.false_ne_true)

theorem trimStart_trim (s : Text) : trimStart (trim s) = trim s :=
  trimStart_eq_self_of_isPrefix (trim_isPrefix_trimStart s) (trimStart_trimStart s)

/-- A trimmed text starts with no blank. -/
theorem isBlank_of_trim_eq_cons {s rest : Text} {c : Char} (h : trim s = c :: rest) :
    isBlank c = false := by
  have hstart := trimStart_trim s
  rw [h] at hstart
  exact isBlank_of_trimStart_eq_self hstart

theorem trim_eq_trimEnd {s : Text} (hs : trimStart s = s) : trim s = trimEnd s := by
  unfold trim
  rw [hs]

@[simp] theorem trim_trim (s : Text) : trim (trim s) = trim s := by
  rw [trim_eq_trimEnd (trimStart_trim s)]
  exact List.rdropWhile_idempotent _ _

/-- A trimmed text ends with no blank. -/
theorem isBlank_of_mem_getLast?_trim {s : Text} {c : Char} (h : c ∈ (trim s).getLast?) :
    isBlank c = false := by
  obtain ⟨hne, hc⟩ := List.mem_getLast?_eq_getLast h
  rw [hc]
  have hlast := List.rdropWhile_last_not (p := isBlank) (l := trimStart s) hne
  exact Bool.eq_false_iff.mpr hlast

theorem dropWhile_isBlank_eq_self {s : Text} (h : ∀ c ∈ s, isBlank c = false) :
    s.dropWhile isBlank = s := by
  cases s with
  | nil => rfl
  | cons c s =>
    have hc := h c List.mem_cons_self
    rw [List.dropWhile_cons_of_neg (by rw [hc]; exact Bool.false_ne_true)]

/-- Trimming takes the blanks away from around a text that holds none. -/
theorem trim_blanks_append {before s after : Text} (hbefore : ∀ c ∈ before, isBlank c = true)
    (hafter : ∀ c ∈ after, isBlank c = true) (hs : ∀ c ∈ s, isBlank c = false) :
    trim (before ++ s ++ after) = s := by
  unfold trim trimEnd trimStart
  rw [List.append_assoc, List.dropWhile_append_of_pos hbefore]
  cases s with
  | nil =>
    rw [List.nil_append, List.dropWhile_eq_nil_iff.mpr hafter]
    rfl
  | cons c s =>
    have hc := hs c List.mem_cons_self
    have hends : ∀ d ∈ (c :: s).reverse, isBlank d = false := fun d hd =>
      hs d (List.mem_reverse.mp hd)
    rw [List.cons_append, List.dropWhile_cons_of_neg (by rw [hc]; exact Bool.false_ne_true),
      ← List.cons_append, List.reverse_append,
      List.dropWhile_append_of_pos fun d hd => hafter d (List.mem_reverse.mp hd),
      dropWhile_isBlank_eq_self hends, List.reverse_reverse]

theorem trim_eq_self {s : Text} (h : ∀ c ∈ s, isBlank c = false) : trim s = s := by
  have htrim := @trim_blanks_append [] s [] (by simp) (by simp) h
  rwa [List.nil_append, List.append_nil] at htrim

/-- Blanks after a text are trimmed away, whatever the text ends with. -/
theorem trim_append_blanks {s after : Text} (h : ∀ c ∈ after, isBlank c = true) :
    trim (s ++ after) = trim s := by
  unfold trim trimEnd trimStart
  rw [List.dropWhile_append]
  split
  · rename_i hs
    rw [List.isEmpty_iff.mp hs, List.dropWhile_eq_nil_iff.mpr h]
  · rw [List.reverse_append, List.dropWhile_append_of_pos fun c hc => h c (List.mem_reverse.mp hc)]

/-- What trimming takes away at the start is blank. -/
theorem exists_blanks_append_trimStart (s : Text) :
    ∃ lead, (∀ c ∈ lead, isBlank c = true) ∧ s = lead ++ trimStart s :=
  ⟨s.takeWhile isBlank, fun _ => List.mem_takeWhile_imp, (List.takeWhile_append_dropWhile).symm⟩

/-- A text that ends with no blank shares its end with its suffixes. -/
theorem trimEnd_eq_self_of_isSuffix {s t : Text} (h : t <:+ s) (hs : trimEnd s = s) :
    trimEnd t = t := by
  have hreverse : trimStart s.reverse = s.reverse := by
    conv_rhs => rw [← hs]
    exact (List.reverse_reverse _).symm
  have ht := trimStart_eq_self_of_isPrefix (List.reverse_prefix.mpr h) hreverse
  show (trimStart t.reverse).reverse = t
  rw [ht, List.reverse_reverse]

theorem trimEnd_trim (s : Text) : trimEnd (trim s) = trim s := List.rdropWhile_idempotent _ _

theorem mem_dropWhile_of_not {p : Char → Bool} {s : Text} {c : Char} (h : c ∈ s)
    (hc : p c = false) : c ∈ s.dropWhile p := by
  rw [← List.takeWhile_append_dropWhile (p := p) (l := s)] at h
  rcases List.mem_append.mp h with h | h
  · rw [List.mem_takeWhile_imp h] at hc
    cases hc
  · exact h

/-- Trimming takes nothing away but blanks. -/
theorem mem_trim_of_mem {s : Text} {c : Char} (h : c ∈ s) (hc : isBlank c = false) :
    c ∈ trim s := by
  have hstart : c ∈ trimStart s := mem_dropWhile_of_not h hc
  exact List.mem_reverse.mpr (mem_dropWhile_of_not (List.mem_reverse.mpr hstart) hc)

/-- Blanks before a text are trimmed away, whatever the text starts with. -/
theorem trim_append_left {lead : Text} (h : ∀ c ∈ lead, isBlank c = true) (s : Text) :
    trim (lead ++ s) = trim s := by
  unfold trim trimStart
  rw [List.dropWhile_append_of_pos h]

/-- What trimming takes away is blank. -/
theorem exists_trim_between (s : Text) :
    ∃ lead trail, (∀ c ∈ lead, isBlank c = true) ∧ (∀ c ∈ trail, isBlank c = true) ∧
      s = lead ++ trim s ++ trail := by
  obtain ⟨lead, hlead, hs⟩ := exists_blanks_append_trimStart s
  obtain ⟨trail, htrail, hstart⟩ := exists_blanks_append_trimStart (trimStart s).reverse
  refine ⟨lead, trail.reverse, hlead, fun c hc => htrail c (List.mem_reverse.mp hc), ?_⟩
  have hend : trimStart s = trim s ++ trail.reverse := by
    rw [← List.reverse_reverse (trimStart s), hstart, List.reverse_append]
    rfl
  rw [List.append_assoc, ← hend]
  exact hs

/-! ## Pieces -/

theorem cutFirst_append_cons {sep : Char} {a : Text} (h : sep ∉ a) (b : Text) :
    cutFirst sep (a ++ sep :: b) = some (a, b) := by
  induction a with
  | nil => rw [List.nil_append, cutFirst, if_pos rfl]
  | cons c a ih =>
    rw [List.mem_cons, not_or] at h
    rw [List.cons_append, cutFirst, if_neg (Ne.symm h.1), ih h.2]
    rfl

theorem cutFirst_eq_some_iff {sep : Char} {s a b : Text} :
    cutFirst sep s = some (a, b) ↔ sep ∉ a ∧ s = a ++ sep :: b := by
  constructor
  · intro h
    induction s generalizing a with
    | nil => cases h
    | cons c s ih =>
      unfold cutFirst at h
      split at h
      · rename_i hc
        cases h
        exact ⟨List.not_mem_nil, by rw [hc, List.nil_append]⟩
      · rename_i hc
        obtain ⟨⟨a', b'⟩, hrest, hcons⟩ := Option.map_eq_some_iff.mp h
        cases hcons
        obtain ⟨hsep, rfl⟩ := ih hrest
        exact ⟨List.not_mem_cons_of_ne_of_not_mem (Ne.symm hc) hsep, rfl⟩
  · rintro ⟨hsep, rfl⟩
    exact cutFirst_append_cons hsep b

theorem not_mem_of_mem_pieces {sep : Char} {s p : Text} (h : p ∈ pieces sep s) : sep ∉ p := by
  induction s generalizing p with
  | nil =>
    rw [pieces, List.mem_singleton] at h
    rw [h]
    exact List.not_mem_nil
  | cons c s ih =>
    unfold pieces at h
    split at h
    · rcases List.mem_cons.mp h with rfl | h
      · exact List.not_mem_nil
      · exact ih h
    · rename_i hc
      cases hp : pieces sep s with
      | nil => exact absurd hp (pieces_ne_nil sep s)
      | cons q qs =>
        rw [hp] at h ih
        rcases List.mem_cons.mp h with rfl | h
        · have hq := ih List.mem_cons_self
          intro hmem
          rcases List.mem_cons.mp hmem with rfl | hmem
          · exact hc rfl
          · exact hq hmem
        · exact ih (List.mem_cons_of_mem _ h)

theorem pieces_of_not_mem {sep : Char} {p : Text} (h : sep ∉ p) : pieces sep p = [p] := by
  induction p with
  | nil => rfl
  | cons c p ih =>
    rw [List.mem_cons, not_or] at h
    unfold pieces
    rw [if_neg (Ne.symm h.1), ih h.2]

theorem pieces_append_cons {sep : Char} {p : Text} (h : sep ∉ p) (s : Text) :
    pieces sep (p ++ sep :: s) = p :: pieces sep s := by
  induction p with
  | nil => rw [List.nil_append, pieces, if_pos rfl]
  | cons c p ih =>
    rw [List.mem_cons, not_or] at h
    rw [List.cons_append, pieces, if_neg (Ne.symm h.1), ih h.2]

/-- A separator between two texts cuts between their pieces. -/
theorem pieces_append_sep (sep : Char) (s t : Text) :
    pieces sep (s ++ sep :: t) = pieces sep s ++ pieces sep t := by
  induction s with
  | nil => simp [pieces]
  | cons c s ih =>
    by_cases hc : c = sep
    · simp [pieces, hc, ih]
    · cases hp : pieces sep s with
      | nil => exact absurd hp (pieces_ne_nil sep s)
      | cons p ps => simp [pieces, hc, ih, hp]

/-- The last piece of a text runs on into the first piece of the text after it. -/
theorem pieces_append (sep : Char) (s t : Text) :
    ∃ before p q after, pieces sep s = before ++ [p] ∧ pieces sep t = q :: after ∧
      pieces sep (s ++ t) = before ++ (p ++ q) :: after := by
  obtain ⟨q, after, ht⟩ := List.exists_cons_of_ne_nil (pieces_ne_nil sep t)
  induction s with
  | nil => exact ⟨[], [], q, after, rfl, ht, ht⟩
  | cons c s ih =>
    obtain ⟨before, p, q', after', hs, ht', happend⟩ := ih
    by_cases hc : c = sep
    · exact ⟨[] :: before, p, q', after', by simp [pieces, hc, hs], ht',
        by simp [pieces, hc, happend]⟩
    · cases before with
      | nil => exact ⟨[], c :: p, q', after', by simp [pieces, hc, hs], ht',
          by simp [pieces, hc, happend]⟩
      | cons first before => exact ⟨(c :: first) :: before, p, q', after',
          by simp [pieces, hc, hs], ht', by simp [pieces, hc, happend]⟩

theorem pieces_append_left {sep : Char} {lead : Text} (h : sep ∉ lead) (s : Text) :
    ∃ q after, pieces sep s = q :: after ∧ pieces sep (lead ++ s) = (lead ++ q) :: after := by
  obtain ⟨before, p, q, after, hlead, hs, happend⟩ := pieces_append sep lead s
  rw [pieces_of_not_mem h] at hlead
  cases before with
  | nil =>
    cases hlead
    exact ⟨q, after, hs, happend⟩
  | cons first before => simp at hlead

theorem pieces_append_right {sep : Char} {trail : Text} (h : sep ∉ trail) (s : Text) :
    ∃ before p, pieces sep s = before ++ [p] ∧
      pieces sep (s ++ trail) = before ++ [p ++ trail] := by
  obtain ⟨before, p, q, after, hs, htrail, happend⟩ := pieces_append sep s trail
  rw [pieces_of_not_mem h] at htrail
  cases htrail
  exact ⟨before, p, hs, happend⟩

/-- Blanks around a text are blanks around its first and its last piece. -/
theorem map_trim_pieces_blanks {sep : Char} (hsep : isBlank sep = false) {lead trail : Text}
    (hlead : ∀ c ∈ lead, isBlank c = true) (htrail : ∀ c ∈ trail, isBlank c = true) (s : Text) :
    (pieces sep (lead ++ s ++ trail)).map trim = (pieces sep s).map trim := by
  have hnot : ∀ t : Text, (∀ c ∈ t, isBlank c = true) → sep ∉ t := by
    intro t ht hmem
    rw [ht sep hmem] at hsep
    cases hsep
  obtain ⟨before, p, hpieces, htrailed⟩ := pieces_append_right (hnot trail htrail) (lead ++ s)
  obtain ⟨q, after, hs, hled⟩ := pieces_append_left (hnot lead hlead) s
  calc (pieces sep (lead ++ s ++ trail)).map trim
      = (pieces sep (lead ++ s)).map trim := by
        rw [htrailed, hpieces, List.map_append, List.map_append, List.map_singleton,
          List.map_singleton, trim_append_blanks htrail]
    _ = (pieces sep s).map trim := by
        rw [hled, hs, List.map_cons, List.map_cons, trim_append_left hlead]

theorem map_trim_pieces_trim {sep : Char} (hsep : isBlank sep = false) (s : Text) :
    (pieces sep (trim s)).map trim = (pieces sep s).map trim := by
  obtain ⟨lead, trail, hlead, htrail, hs⟩ := exists_trim_between s
  conv_rhs => rw [hs]
  exact (map_trim_pieces_blanks hsep hlead htrail (trim s)).symm

theorem pieces_join {sep : Char} {ps : List Text} (hne : ps ≠ []) (h : ∀ p ∈ ps, sep ∉ p) :
    pieces sep (join [sep] ps) = ps := by
  induction ps with
  | nil => exact absurd rfl hne
  | cons p ps ih =>
    have hp := h p List.mem_cons_self
    cases ps with
    | nil => exact pieces_of_not_mem hp
    | cons q qs =>
      have hrest := ih (List.cons_ne_nil _ _) fun r hr => h r (List.mem_cons_of_mem _ hr)
      rw [join, List.append_assoc, List.singleton_append, pieces_append_cons hp, hrest]

/-! ## Lines -/

theorem dropReturn_isPrefix (s : Text) : dropReturn s <+: s := by
  unfold dropReturn
  split
  · exact List.dropLast_prefix s
  · exact List.prefix_rfl

theorem trim_dropReturn (s : Text) : trim (dropReturn s) = trim s := by
  unfold dropReturn
  split
  · rename_i h
    obtain ⟨before, rfl⟩ := List.getLast?_eq_some_iff.mp h
    rw [List.dropLast_concat, trim_append_blanks]
    simp [isBlank]
  · rfl

/-- A piece that another one follows is a line. -/
theorem linesOfPieces_append {ps qs : List Text} (h : qs ≠ []) :
    linesOfPieces (ps ++ qs) = ps.map dropReturn ++ linesOfPieces qs := by
  induction ps with
  | nil => rfl
  | cons p ps ih =>
    obtain ⟨q, rest, hrest⟩ :=
      List.exists_cons_of_ne_nil (List.append_ne_nil_of_right_ne_nil ps h)
    rw [List.cons_append, hrest, linesOfPieces, ← hrest, ih, List.map_cons, List.cons_append]

/-- Before a line feed, every piece of a text is a line. -/
theorem lines_append (s t : Text) :
    lines (s ++ '\n' :: t) = (pieces '\n' s).map dropReturn ++ lines t := by
  unfold lines
  rw [pieces_append_sep, linesOfPieces_append (pieces_ne_nil '\n' t)]

theorem not_mem_of_mem_linesOfPieces {ps : List Text} {raw : Text} {c : Char}
    (hps : ∀ p ∈ ps, c ∉ p) (h : raw ∈ linesOfPieces ps) : c ∉ raw := by
  induction ps with
  | nil => exact absurd h List.not_mem_nil
  | cons p ps ih =>
    have hp := hps p List.mem_cons_self
    cases ps with
    | nil =>
      unfold linesOfPieces at h
      split at h
      · exact absurd h List.not_mem_nil
      · rw [List.mem_singleton] at h
        rwa [h]
    | cons q qs =>
      rcases List.mem_cons.mp h with rfl | h
      · exact fun hc => hp ((dropReturn_isPrefix p).subset hc)
      · exact ih (fun r hr => hps r (List.mem_cons_of_mem _ hr)) h

theorem lineFeed_not_mem_of_mem_lines {s raw : Text} (h : raw ∈ lines s) : '\n' ∉ raw :=
  not_mem_of_mem_linesOfPieces (fun _ => not_mem_of_mem_pieces) h

/-- A text that can be written on a line of its own and read back as it is. -/
structure IsLine (s : Text) : Prop where
  ne_nil : s ≠ []
  lineFeed : '\n' ∉ s
  last : s.getLast? ≠ some '\r'

theorem linesOfPieces_eq_self {ps : List Text} (h : ∀ p ∈ ps, IsLine p) :
    linesOfPieces ps = ps := by
  induction ps with
  | nil => rfl
  | cons p ps ih =>
    have hp := h p List.mem_cons_self
    cases ps with
    | nil =>
      have hempty : p.isEmpty = false := List.isEmpty_eq_false_iff.mpr hp.ne_nil
      unfold linesOfPieces
      rw [hempty, if_neg Bool.false_ne_true]
    | cons q qs =>
      have hdrop : dropReturn p = p := if_neg hp.last
      rw [linesOfPieces, hdrop, ih fun r hr => h r (List.mem_cons_of_mem _ hr)]

/-- Texts that fit on a line are the lines of the text that joins them. -/
theorem lines_join {ps : List Text} (h : ∀ p ∈ ps, IsLine p) : lines (join ['\n'] ps) = ps := by
  by_cases hne : ps = []
  · rw [hne]; rfl
  · unfold lines
    rw [pieces_join hne fun p hp => (h p hp).lineFeed]
    exact linesOfPieces_eq_self h

end PadScript.Text
