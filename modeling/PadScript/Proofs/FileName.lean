import PadScript.Path
import PadScript.Proofs.Text

/-!
# File names

The file name of a path is its last piece, if that is a name. Giving the path another extension
changes this piece and nothing else: the new path starts where the old one starts and has the same
pieces before its file name (`EndsIn.withExtension`). So the two are the same path only if the
extension was there before (`EndsIn.same_withExtension_iff`).
-/

namespace PadScript

namespace Text

theorem cutLast_eq_none_iff {sep : Char} {s : Text} : cutLast sep s = none ↔ sep ∉ s := by
  induction s with
  | nil => simp [cutLast]
  | cons c s ih =>
    unfold cutLast
    cases hs : cutLast sep s with
    | none =>
      have hmem := ih.mp hs
      by_cases hc : c = sep
      · simp [hc]
      · simp [hc, hmem, Ne.symm hc]
    | some cut =>
      have hmem : sep ∈ s := by
        by_contra hmem
        rw [ih.mpr hmem] at hs
        cases hs
      simp [hmem]

theorem cutLast_eq_some {sep : Char} {s a b : Text} (h : cutLast sep s = some (a, b)) :
    s = a ++ sep :: b ∧ sep ∉ b := by
  induction s generalizing a with
  | nil => cases h
  | cons c s ih =>
    unfold cutLast at h
    split at h
    · rename_i before after hs
      cases h
      obtain ⟨hcut, hb⟩ := ih hs
      exact ⟨by rw [hcut, List.cons_append], hb⟩
    · rename_i hs
      split at h
      · rename_i hc
        cases h
        exact ⟨by rw [hc, List.nil_append], cutLast_eq_none_iff.mp hs⟩
      · cases h

/-- The first piece of a text that does not start with a separator holds its first character. -/
theorem head?_pieces_cons {sep c : Char} (h : c ≠ sep) (s : Text) :
    ∃ first, (pieces sep (c :: s)).head? = some (c :: first) := by
  rw [pieces, if_neg h]
  cases hs : pieces sep s with
  | nil => exact absurd hs (pieces_ne_nil sep s)
  | cons first rest => exact ⟨first, rfl⟩

end Text

namespace Path

/-! ## Paths from their parts -/

/-- The pieces can stand between the separators of a path with this start: they hold no separator,
and the first of them is not read as a part of the start. -/
structure WellCut (anchor : Anchor) (pieces : List Text) : Prop where
  slash : ∀ piece ∈ pieces, '/' ∉ piece
  nonempty : anchor ≠ .here → pieces ≠ []
  notHere : anchor = .plain → pieces.head? ≠ some ['.']
  notRoot : anchor = .plain → pieces.head? = some [] → pieces = [[]]

theorem parts_of_relative {p : Path} (h : p.isAbsolute = false) :
    p.parts =
      match Text.pieces '/' p.text with
      | ['.'] :: rest => (.here, rest)
      | rest => (.plain, rest) := by
  obtain ⟨text⟩ := p
  cases text with
  | nil => rfl
  | cons c s =>
    have hc : c ≠ '/' := by simpa [isAbsolute] using h
    unfold parts
    split
    · rename_i rest htext
      exact absurd (List.cons.inj htext).1 hc
    · rfl

theorem wellCut_parts (p : Path) : WellCut p.parts.1 p.parts.2 := by
  have hslash : ∀ s piece, piece ∈ Text.pieces '/' s → '/' ∉ piece :=
    fun s piece => Text.not_mem_of_mem_pieces
  cases habsolute : p.isAbsolute with
  | true =>
    obtain ⟨text⟩ := p
    obtain ⟨rest, rfl⟩ : ∃ rest, text = '/' :: rest :=
      List.head?_eq_some_iff.mp (by simpa [isAbsolute] using habsolute)
    exact ⟨hslash rest, fun _ => Text.pieces_ne_nil '/' rest, nofun, nofun⟩
  | false =>
    rw [parts_of_relative habsolute]
    split
    · rename_i rest hpieces
      refine ⟨fun piece hmem => hslash p.text piece ?_, fun h => absurd rfl h, nofun, nofun⟩
      rw [hpieces]
      exact List.mem_cons_of_mem _ hmem
    · rename_i hhere
      refine ⟨hslash p.text, fun _ => Text.pieces_ne_nil '/' p.text, fun _ hhead => ?_,
        fun _ hhead => ?_⟩
      · obtain ⟨rest, hrest⟩ := List.head?_eq_some_iff.mp hhead
        exact hhere rest hrest
      · obtain ⟨text⟩ := p
        cases text with
        | nil => rfl
        | cons c s =>
          have hc : c ≠ '/' := by simpa [isAbsolute] using habsolute
          obtain ⟨first, hfirst⟩ := Text.head?_pieces_cons hc s
          rw [hfirst] at hhead
          cases hhead

/-- The last piece may be replaced by another name. -/
theorem WellCut.replaceLast {anchor : Anchor} {before : List Text} {last name : Text}
    (h : WellCut anchor (before ++ [last])) (hstep : isIdle name = false) (hslash : '/' ∉ name) :
    WellCut anchor (before ++ [name]) := by
  have hidle : ¬ (name = [] ∨ name = ['.']) := by simpa [isIdle] using hstep
  refine ⟨fun piece hmem => ?_, fun _ => List.concat_ne_nil _ _, fun hplain hhead => ?_,
    fun hplain hhead => ?_⟩
  · rcases List.mem_append.mp hmem with hmem | hmem
    · exact h.slash piece (List.mem_append_left _ hmem)
    · rwa [List.mem_singleton.mp hmem]
  -- the first piece is the first one of the old pieces, unless it is the new name
  · cases before with
    | nil => exact hidle (.inr (Option.some.inj hhead))
    | cons first before => exact h.notHere hplain hhead
  · cases before with
    | nil => exact absurd (.inl (Option.some.inj hhead)) hidle
    | cons first before => simpa using h.notRoot hplain hhead

/-- Well cut pieces are the pieces of the path that they make. -/
theorem parts_ofParts {anchor : Anchor} {pieces : List Text} (h : WellCut anchor pieces) :
    (ofParts anchor pieces).parts = (anchor, pieces) := by
  cases anchor with
  | root => simp [ofParts, parts, Text.pieces_join (h.nonempty (by decide)) h.slash]
  | here =>
    have hrelative : (ofParts .here pieces).isAbsolute = false := by
      cases pieces <;> simp [ofParts, Text.join, isAbsolute]
    have hslash : ∀ piece ∈ ['.'] :: pieces, '/' ∉ piece := by
      simpa using h.slash
    rw [parts_of_relative hrelative]
    simp [ofParts, Text.pieces_join (List.cons_ne_nil _ _) hslash]
  | plain =>
    have hne := h.nonempty (by decide)
    have hpieces := Text.pieces_join hne h.slash
    have hrelative : (ofParts .plain pieces).isAbsolute = false := by
      obtain ⟨first, rest, rfl⟩ := List.exists_cons_of_ne_nil hne
      cases first with
      | nil =>
        cases h.notRoot rfl rfl
        rfl
      | cons c s =>
        have hc : c ≠ '/' := fun hc => h.slash _ List.mem_cons_self (hc ▸ List.mem_cons_self)
        cases rest <;> simpa [ofParts, Text.join, isAbsolute] using hc
    rw [parts_of_relative hrelative]
    simp only [ofParts, hpieces]
    split
    · exact absurd rfl (h.notHere rfl)
    · rfl

/-! ## Extensions -/

theorem splitName_cases (name : Text) :
    splitName name = (name, none) ∨
      ∃ stem extension, splitName name = (stem, some extension) ∧
        name = stem ++ '.' :: extension ∧ '.' ∉ extension ∧ stem ≠ [] := by
  unfold splitName
  split
  · rename_i stem extension hcut
    obtain ⟨hname, hdot⟩ := Text.cutLast_eq_some hcut
    split
    · exact .inl rfl
    · rename_i hstem
      exact .inr ⟨stem, extension, rfl, hname, hdot, by simpa using hstem⟩
  · exact .inl rfl

/-- A name is its stem and an extension exactly if it has that extension. -/
theorem stem_append_eq_self_iff {name extension : Text} :
    (splitName name).1 ++ '.' :: extension = name ↔ (splitName name).2 = some extension := by
  rcases splitName_cases name with hsplit | ⟨stem, found, hsplit, hname, -, -⟩
  · simp [hsplit]
  · simp only [hsplit, Option.some.injEq]
    rw [hname, List.append_cancel_left_eq, List.cons_inj_right]
    exact eq_comm

theorem dot_not_mem_of_splitName {name extension : Text}
    (h : (splitName name).2 = some extension) : '.' ∉ extension := by
  rcases splitName_cases name with hsplit | ⟨stem, found, hsplit, -, hdot, -⟩
  · simp [hsplit] at h
  · rw [hsplit] at h
    cases h
    exact hdot

theorem stem_isPrefix (name : Text) : (splitName name).1 <+: name := by
  rcases splitName_cases name with hsplit | ⟨stem, found, hsplit, hname, -, -⟩
  · exact ⟨[], by simp [hsplit]⟩
  · exact ⟨'.' :: found, by rw [hsplit, hname]⟩

theorem stem_ne_nil {name : Text} (h : name ≠ []) : (splitName name).1 ≠ [] := by
  rcases splitName_cases name with hsplit | ⟨stem, found, hsplit, -, -, hstem⟩
  · rwa [hsplit]
  · rwa [hsplit]

/-! ## Paths that end in a file name -/

/-- A piece that is a step, and no step up. -/
structure IsName (piece : Text) : Prop where
  step : isIdle piece = false
  up : piece ≠ ['.', '.']

theorem IsName.ne_nil {name : Text} (h : IsName name) : name ≠ [] := by
  rintro rfl
  cases h.step

/-- The last piece of the path is a name, and these are the pieces before it. -/
structure EndsIn (p : Path) (before : List Text) (name : Text) : Prop where
  pieces : p.parts.2 = before ++ [name]
  isName : IsName name

namespace EndsIn

variable {p : Path} {before : List Text} {name extension : Text}

theorem slash (h : p.EndsIn before name) : '/' ∉ name := by
  apply (wellCut_parts p).slash
  simp [h.pieces]

theorem fileName? (h : p.EndsIn before name) : p.fileName? = some (before, name) := by
  have hsteps : dropIdleEnd p.parts.2 = before ++ [name] := by
    simp [dropIdleEnd, h.pieces, h.isName.step]
  simp [Path.fileName?, hsteps, h.isName.up]

theorem extension? (h : p.EndsIn before name) : p.extension? = (splitName name).2 := by
  rw [Path.extension?, h.fileName?]
  rfl

theorem components (h : p.EndsIn before name) :
    p.components = p.parts.1.components ++ (before.filter (!isIdle ·)).map Component.ofPiece ++
      [.name name] := by
  simp [Path.components, h.pieces, h.isName.step, Component.ofPiece, h.isName.up]

/-- Paths with one start and the same pieces before their file names are the same path if the file
names are. -/
theorem same_iff {q : Path} {other : Text} (hq : q.EndsIn before other) (hp : p.EndsIn before name)
    (hanchor : q.parts.1 = p.parts.1) : q.same p = true ↔ other = name := by
  rw [same, decide_eq_true_eq, hq.components, hp.components, hanchor,
    List.append_cancel_left_eq, List.cons.injEq, Component.name.injEq]
  exact and_iff_left rfl

/-- Another extension changes the file name and nothing before it. -/
theorem withExtension (h : p.EndsIn before name) (hne : extension ≠ [])
    (hslash : '/' ∉ extension) :
    (p.withExtension extension).parts.1 = p.parts.1 ∧
      (p.withExtension extension).EndsIn before ((splitName name).1 ++ '.' :: extension) := by
  have hstem := List.length_pos_of_ne_nil (stem_ne_nil h.isName.ne_nil)
  have hextension := List.length_pos_of_ne_nil hne
  have hlength : 3 ≤ ((splitName name).1 ++ '.' :: extension).length := by
    simp only [List.length_append, List.length_cons]
    omega
  generalize hname : (splitName name).1 ++ '.' :: extension = new at hlength
  have hstep : isIdle new = false := by
    match new, hlength with
    | _ :: _ :: _ :: _, _ => simp [isIdle]
  have hnew : '/' ∉ new := by
    rw [← hname]
    have hstem : '/' ∉ (splitName name).1 := fun hmem => h.slash ((stem_isPrefix name).subset hmem)
    simpa using ⟨hstem, hslash⟩
  have hcut := (h.pieces ▸ wellCut_parts p).replaceLast hstep hnew
  have hparts : (p.withExtension extension).parts = (p.parts.1, before ++ [new]) := by
    subst hname
    rw [Path.withExtension, h.fileName?]
    exact parts_ofParts hcut
  rw [hparts]
  refine ⟨rfl, congrArg Prod.snd hparts, hstep, ?_⟩
  rintro rfl
  simp at hlength

/-- Another extension gives the same path only if it is no other extension. -/
theorem same_withExtension_iff (h : p.EndsIn before name) (hne : extension ≠ [])
    (hslash : '/' ∉ extension) :
    (p.withExtension extension).same p = true ↔ p.extension? = some extension := by
  obtain ⟨hanchor, hends⟩ := h.withExtension hne hslash
  rw [hends.same_iff h hanchor, h.extension?, stem_append_eq_self_iff]

theorem dot_not_mem (h : p.EndsIn before name) (hextension : p.extension? = some extension) :
    '.' ∉ extension :=
  dot_not_mem_of_splitName (h.extension?.symm.trans hextension)

end EndsIn

end Path

end PadScript
