import PadScript.Proofs.Concatenation
import PadScript.Proofs.Remark

/-!
# The layout of a script

How a script is laid out does not change what it compiles to.

1. Only what the lines are read as counts, and a carriage return before a line feed is a blank of
   its line (`runSource_eq_pieces`). So scripts with the same readings compile to the same result
   (`compile_of_readings`), and so do scripts that differ in blanks around a line, in line endings,
   or in a comment after a line.
2. A line that is skipped only moves the numbers of the lines after it, and these are seen in the
   places of faults only (`runLines_renumber`), so it can be left out (`runLines_filter`). Scripts
   whose readings agree up to such lines compile alike up to the line of a fault
   (`compile_of_filtered_readings`).
-/

namespace PadScript

theorem LocatedFault.file_orAtLine (e : LocatedFault) (number : Nat) :
    (e.orAtLine number).file = e.file := by
  unfold LocatedFault.orAtLine
  split <;> rfl

theorem LocatedFault.file_orInFile (e : LocatedFault) (origin : Option Path) :
    (e.orInFile origin).file = e.file.or origin := by
  unfold LocatedFault.orInFile
  split
  · rename_i h
    rw [h]
    rfl
  · rename_i h
    rw [h]
    rfl

namespace Script

/-! ## What lines are read as -/

/-- What the lines of a script are read as, cut at line feeds only. -/
def readings (source : Text) : List Line := (Text.pieces '\n' source).map Line.classify

theorem readings_of_not_mem {line : Text} (h : '\n' ∉ line) :
    readings line = [Line.classify line] := by
  unfold readings
  rw [Text.pieces_of_not_mem h]
  rfl

theorem readings_append (first second : Text) :
    readings (first ++ '\n' :: second) = readings first ++ readings second := by
  unfold readings
  rw [Text.pieces_append_sep, List.map_append]

theorem readings_join {lines : List Text} (hne : lines ≠ []) :
    readings (Text.join ['\n'] lines) = lines.flatMap readings := by
  induction lines with
  | nil => exact absurd rfl hne
  | cons line lines ih =>
    rw [List.flatMap_cons]
    cases lines with
    | nil => simp [Text.join]
    | cons next lines =>
      rw [Text.join, List.append_assoc, List.singleton_append, readings_append,
        ih (List.cons_ne_nil _ _)]

theorem filter_readings (source : Text) :
    (readings source).filter (· ≠ .skip) =
      ((Text.pieces '\n' source).filter fun raw => Line.classify raw ≠ .skip).map
        Line.classify := by
  unfold readings
  rw [List.filter_map]
  rfl

/-- Lines that are read alike can take each other's place. -/
theorem readings_join_congr (first second : List Text) {line line' : Text} (h : '\n' ∉ line)
    (h' : '\n' ∉ line') (hread : Line.classify line = Line.classify line') :
    readings (Text.join ['\n'] (first ++ line :: second)) =
      readings (Text.join ['\n'] (first ++ line' :: second)) := by
  rw [readings_join (by simp), readings_join (by simp)]
  simp only [List.flatMap_append, List.flatMap_cons, readings_of_not_mem h, readings_of_not_mem h',
    hread]

theorem readings_append_return (source : Text) : readings (source ++ ['\r']) = readings source := by
  have hfeed : '\n' ∉ ['\r'] := by decide
  obtain ⟨before, last, hpieces, hreturn⟩ := Text.pieces_append_right hfeed source
  have hblank : Text.Blank ['\r'] := by decide
  have hlast : Line.classify (last ++ ['\r']) = Line.classify last :=
    Line.classify_congr (Text.trim_append_blanks hblank)
  unfold readings
  rw [hpieces, hreturn, List.map_append, List.map_append, List.map_singleton, List.map_singleton,
    hlast]

section Runs

variable {origin : Option Path} {expand : Expander}

theorem runLines_of_readings {raws raws' : List Text}
    (h : raws.map Line.classify = raws'.map Line.classify) (number : Nat) (clock : Millis) :
    runLines origin expand number raws clock = runLines origin expand number raws' clock := by
  induction raws generalizing raws' number clock with
  | nil =>
    rw [List.map_nil, eq_comm, List.map_eq_nil_iff] at h
    rw [h]
  | cons raw rest ih =>
    obtain ⟨raw', rest', rfl, hraw, hrest⟩ := List.map_eq_cons_iff.mp h.symm
    simp only [runLines_cons, stepLine_congr hraw.symm, ih hrest.symm]

end Runs

variable {fs : FileSystem} {options : Options}

/-- A line loses nothing with its carriage return, and an empty last line is none, so the lines run
as the pieces between line feeds do. -/
theorem runSource_eq_pieces (fs : FileSystem) (options : Options) (source : Text) :
    runSource fs options source =
      runLines none (sourceExpander fs options) 1 (Text.pieces '\n' source) 0 := by
  unfold runSource Text.lines
  rw [← runLines_map_dropReturn (Text.pieces_ne_nil '\n' source)]
  apply runLines_of_readings
  rw [List.map_map]
  exact List.map_congr_left fun piece _ => Line.classify_congr (Text.trim_dropReturn piece)

theorem compile_of_readings {source edited : Text} (h : readings source = readings edited) :
    compile fs options source = compile fs options edited := by
  rw [compile_eq_runSource, compile_eq_runSource, runSource_eq_pieces, runSource_eq_pieces,
    runLines_of_readings h]

/-! ## Results up to line numbers -/

/-- The results are the same, but a fault may be on another line. -/
inductive SameButLine {α : Type} : (x y : Except LocatedFault α) → Prop
  | ok (a : α) : SameButLine (.ok a) (.ok a)
  | error {e e' : LocatedFault} : e.fault = e'.fault → e.file = e'.file →
      SameButLine (.error e) (.error e')

namespace SameButLine

variable {α β : Type} {x y z : Except LocatedFault α}

theorem refl (x : Except LocatedFault α) : SameButLine x x := by
  cases x with
  | error e => exact .error rfl rfl
  | ok a => exact .ok a

theorem symm (h : SameButLine x y) : SameButLine y x := by
  cases h with
  | ok a => exact .ok a
  | error hfault hfile => exact .error hfault.symm hfile.symm

theorem trans (h : SameButLine x y) (h' : SameButLine y z) : SameButLine x z := by
  cases h with
  | ok a => exact h'
  | error hfault hfile =>
    cases h' with
    | error hfault' hfile' => exact .error (hfault.trans hfault') (hfile.trans hfile')

theorem bind (h : SameButLine x y) {f g : α → Except LocatedFault β}
    (hfg : ∀ a, SameButLine (f a) (g a)) : SameButLine (x >>= f) (y >>= g) := by
  cases h with
  | ok a => exact hfg a
  | error hfault hfile => exact .error hfault hfile

/-- Faults that are put on two lines of one file. -/
theorem mapError_locate (x : Except Fault α) (number number' : Nat) (origin : Option Path) :
    SameButLine (x.mapError (·.locate number origin)) (x.mapError (·.locate number' origin)) := by
  cases x with
  | error fault => exact .error rfl rfl
  | ok a => exact .ok a

/-- Faults that are put on two lines of one file, unless they have a place. -/
theorem mapError_orAtLine (x : Except LocatedFault α) (number number' : Nat)
    (origin : Option Path) :
    SameButLine (x.mapError fun e => (e.orAtLine number).orInFile origin)
      (x.mapError fun e => (e.orAtLine number').orInFile origin) := by
  cases x with
  | error e =>
    refine .error ?_ ?_
    · simp only [LocatedFault.fault_orInFile, LocatedFault.fault_orAtLine]
    · simp only [LocatedFault.file_orInFile, LocatedFault.file_orAtLine]
  | ok a => exact .ok a

end SameButLine

/-! ## The same lines with other numbers -/

section Numbers

variable {origin : Option Path} {expand : Expander}

/-- Directives are expanded alike on every line. -/
def Uniform (expand : Expander) : Prop :=
  ∀ number number' target, SameButLine (expand number target) (expand number' target)

theorem uniform_expander (fs : FileSystem) (origin base : Option Path)
    (file : Path → Except LocatedFault (List Frame)) : Uniform (expander fs origin base file) := by
  intro number number' target
  unfold expander
  exact (SameButLine.mapError_locate _ number number' origin).bind fun next =>
    .mapError_orAtLine (file next) number number' origin

theorem stepLine_renumber (hx : Uniform expand) (raw : Text) (number number' : Nat)
    (clock : Millis) :
    SameButLine (stepLine origin expand number raw clock)
      (stepLine origin expand number' raw clock) := by
  cases hline : Line.classify raw with
  | skip =>
    rw [stepLine_skip hline, stepLine_skip hline]
    exact .refl _
  | directive target =>
    rw [stepLine_directive hline, stepLine_directive hline]
    exact (hx number number' target).bind fun included => .mapError_locate _ number number' origin
  | input body =>
    rw [stepLine_input hline, stepLine_input hline]
    exact (SameButLine.mapError_locate _ number number' origin).bind fun _ => .refl _

theorem runLines_renumber (hx : Uniform expand) (raws : List Text) (number number' : Nat)
    (clock : Millis) :
    SameButLine (runLines origin expand number raws clock)
      (runLines origin expand number' raws clock) := by
  induction raws generalizing number number' clock with
  | nil => exact .ok _
  | cons raw rest ih =>
    rw [runLines_cons, runLines_cons]
    refine (stepLine_renumber hx raw number number' clock).bind fun step => ?_
    exact (ih (number + 1) (number' + 1) step.2).bind fun _ => .refl _

theorem runLines_cons_skip {raw : Text} (h : Line.classify raw = .skip) (rest : List Text)
    (number : Nat) (clock : Millis) :
    runLines origin expand number (raw :: rest) clock =
      runLines origin expand (number + 1) rest clock := by
  rw [runLines_cons, stepLine_skip h]
  exact bind_pure (runLines origin expand (number + 1) rest clock)

/-- Skipped lines can be left out. One that is left out renumbers the lines after it. -/
theorem runLines_filter (hx : Uniform expand) (raws : List Text) (number : Nat) (clock : Millis) :
    SameButLine (runLines origin expand number raws clock)
      (runLines origin expand number (raws.filter fun raw => Line.classify raw ≠ .skip)
        clock) := by
  induction raws generalizing number clock with
  | nil => exact .ok _
  | cons raw rest ih =>
    by_cases hskip : Line.classify raw = .skip
    · rw [runLines_cons_skip hskip, List.filter_cons_of_neg (by simpa using hskip)]
      exact (runLines_renumber hx rest (number + 1) number clock).trans (ih number clock)
    · rw [List.filter_cons_of_pos (by simpa using hskip), runLines_cons, runLines_cons]
      refine (SameButLine.refl _).bind fun step => ?_
      exact (ih (number + 1) step.2).bind fun _ => .refl _

end Numbers

theorem runSource_filter (fs : FileSystem) (options : Options) (source : Text) :
    SameButLine (runSource fs options source)
      (runLines none (sourceExpander fs options) 1
        ((Text.pieces '\n' source).filter fun raw => Line.classify raw ≠ .skip) 0) := by
  rw [runSource_eq_pieces]
  exact runLines_filter (uniform_expander fs none options.base _) _ 1 0

/-- What is read, less what is skipped, decides all but the line of a fault. -/
theorem compile_of_filtered_readings {source edited : Text}
    (h : (readings source).filter (· ≠ .skip) = (readings edited).filter (· ≠ .skip)) :
    SameButLine (compile fs options source) (compile fs options edited) := by
  rw [compile_eq_runSource, compile_eq_runSource]
  refine SameButLine.bind ?_ fun result => .refl _
  rw [filter_readings, filter_readings] at h
  have hsource := runSource_filter fs options source
  rw [runLines_of_readings h] at hsource
  exact hsource.trans (runSource_filter fs options edited).symm

/-! ## Edits of the layout -/

/-- Edits inside the lines of a script: blanks around a line, another line ending, and a comment
after a line. -/
inductive Relaid : (source edited : Text) → Prop
  | blanks (first second : List Text) {line ending lead trail : Text} :
      '\n' ∉ line → ending ∈ [[], ['\r']] →
      Text.Blank lead → '\n' ∉ lead → Text.Blank trail → '\n' ∉ trail →
      Relaid (Text.join ['\n'] (first ++ (line ++ ending) :: second))
        (Text.join ['\n'] (first ++ (lead ++ line ++ trail ++ ending) :: second))
  | carriageReturn (before after : Text) :
      Relaid (before ++ ['\n'] ++ after) (before ++ ['\r', '\n'] ++ after)
  | comment (first second : List Text) {line ending sign text : Text} :
      '\n' ∉ line → ending ∈ [[], ['\r']] →
      sign ∈ [" # ".toList, " // ".toList] → '\n' ∉ text → ¬ Line.OpensQuote line →
      Relaid (Text.join ['\n'] (first ++ (line ++ ending) :: second))
        (Text.join ['\n'] (first ++ (line ++ sign ++ text ++ ending) :: second))

/-- Edits of whole lines: some lines that are blank, or blank up to a comment, in the place of
others. Either may be none. -/
inductive Respaced : (source edited : Text) → Prop
  | idle (first second : List Text) {lines lines' : List Text} :
      (∀ line ∈ lines ++ lines', '\n' ∉ line ∧ Line.IsIdle line) →
      Respaced (Text.join ['\n'] (first ++ lines ++ second))
        (Text.join ['\n'] (first ++ lines' ++ second))

theorem blank_of_mem_endings {ending : Text} (h : ending ∈ [[], ['\r']]) :
    Text.Blank ending ∧ '\n' ∉ ending := by
  rcases List.mem_pair.mp h with rfl | rfl <;> exact ⟨by decide, by decide⟩

theorem isRemark_of_sign {sign : Text} (h : sign ∈ [" # ".toList, " // ".toList]) (text : Text) :
    Line.IsRemark (sign ++ text) ∧ '\n' ∉ sign := by
  rcases List.mem_pair.mp h with rfl | rfl
  · refine ⟨⟨[' '], '#' :: ' ' :: text, ?_, ?_, rfl, .inl ⟨_, rfl⟩⟩, ?_⟩ <;> decide
  · refine ⟨⟨[' '], '/' :: '/' :: ' ' :: text, ?_, ?_, rfl, .inr ⟨_, rfl⟩⟩, ?_⟩ <;> decide

theorem Relaid.readings_eq {source edited : Text} (h : Relaid source edited) :
    readings source = readings edited := by
  cases h with
  | @blanks first second line ending lead trail hline hending hlead hlead' htrail htrail' =>
    obtain ⟨hblank, hfeed⟩ := blank_of_mem_endings hending
    refine readings_join_congr first second (by simp [hline, hfeed])
      (by simp [hline, hfeed, hlead', htrail']) (Line.classify_congr ?_)
    rw [Text.trim_append_blanks hblank, Text.trim_append_blanks hblank,
      Text.trim_append_blanks htrail, Text.trim_append_left hlead]
  | carriageReturn before after =>
    have hreturn : before ++ ['\r', '\n'] ++ after = (before ++ ['\r']) ++ '\n' :: after := by simp
    rw [hreturn, List.append_assoc, List.singleton_append, readings_append, readings_append,
      readings_append_return]
  | @comment first second line ending sign text hline hending hsign htext hquote =>
    obtain ⟨hblank, hfeed⟩ := blank_of_mem_endings hending
    obtain ⟨hremark, hsign'⟩ := isRemark_of_sign hsign text
    refine readings_join_congr first second (by simp [hline, hfeed])
      (by simp [hline, hfeed, hsign', htext]) ?_
    have hends := fun s => Line.classify_congr (Text.trim_append_blanks (s := s) hblank)
    rw [hends, hends, List.append_assoc, Line.classify_append hremark hquote]

/-- No line at all is read as one that is skipped, which makes no difference here. -/
theorem filter_readings_join (lines : List Text) :
    (readings (Text.join ['\n'] lines)).filter (· ≠ .skip) =
      (lines.flatMap readings).filter (· ≠ .skip) := by
  cases lines with
  | nil => rfl
  | cons line lines => rw [readings_join (List.cons_ne_nil _ _)]

theorem filter_readings_of_isIdle {lines : List Text}
    (h : ∀ line ∈ lines, '\n' ∉ line ∧ Line.IsIdle line) :
    (lines.flatMap readings).filter (· ≠ .skip) = [] := by
  rw [List.filter_eq_nil_iff]
  intro reading hreading
  obtain ⟨line, hline, hreading⟩ := List.mem_flatMap.mp hreading
  obtain ⟨hfeed, hidle⟩ := h line hline
  rw [readings_of_not_mem hfeed, List.mem_singleton, Line.classify_of_isIdle hidle] at hreading
  simpa using hreading

theorem Respaced.filter_readings_eq {source edited : Text} (h : Respaced source edited) :
    (readings source).filter (· ≠ .skip) = (readings edited).filter (· ≠ .skip) := by
  cases h with
  | idle first second h =>
    obtain ⟨hlines, hlines'⟩ := List.forall_mem_append.mp h
    rw [filter_readings_join, filter_readings_join]
    simp only [List.flatMap_append, List.filter_append, filter_readings_of_isIdle hlines,
      filter_readings_of_isIdle hlines']

/-- **Layout does not change meaning.** Blanks around a line, carriage returns before line feeds,
and comments after a line change no result, except that a comment may close a quote that an include
directive leaves open. Whole lines are skipped exactly if they are blank up to a comment, and
putting such lines in or leaving them out changes at most the line of a fault. -/
theorem compile_of_relaid (fs : FileSystem) (options : Options) :
    (∀ source edited, Relaid source edited →
      compile fs options edited = compile fs options source) ∧
    (∀ line, Line.classify line = .skip ↔ Line.IsIdle line) ∧
    ∀ source edited, Respaced source edited →
      SameButLine (compile fs options source) (compile fs options edited) :=
  ⟨fun _ _ h => compile_of_readings h.readings_eq.symm,
    fun _ => Line.classify_eq_skip_iff_isIdle,
    fun _ _ h => compile_of_filtered_readings h.filter_readings_eq⟩

/-- Blanks before a carriage return, carriage returns, and a comment with quotes after a quoted
path leave an include as it is. A comment before a line that is refused moves the fault. -/
theorem compile_of_relaid_tap :
    compile nestedScripts.fileSystem rootOptions "A,100\n\t@tap \r\nX,30".toList =
      compile nestedScripts.fileSystem rootOptions "A,100\n@tap\r\nX,30".toList ∧
    compile nestedScripts.fileSystem rootOptions "A,100\r\n@tap".toList =
      compile nestedScripts.fileSystem rootOptions "A,100\n@tap".toList ∧
    compile nestedScripts.fileSystem rootOptions "A,100\n@\"tap\" // \"b\" # c".toList =
      compile nestedScripts.fileSystem rootOptions "A,100\n@\"tap\"".toList ∧
    SameButLine (compile nestedScripts.fileSystem rootOptions "A,1\nJUMP,1".toList)
      (compile nestedScripts.fileSystem rootOptions "A,1\n # why\n\nJUMP,1".toList) ∧
    compile nestedScripts.fileSystem rootOptions "A,1\nJUMP,1".toList =
      .error ⟨.unknownToken "JUMP".toList "JUMP".toList, 2, none⟩ ∧
    compile nestedScripts.fileSystem rootOptions "A,1\n # why\n\nJUMP,1".toList =
      .error ⟨.unknownToken "JUMP".toList "JUMP".toList, 4, none⟩ := by
  refine ⟨?_, ?_, ?_, ?_, by decide +kernel, by decide +kernel⟩
  · exact (compile_of_relaid _ _).1 _ _ (@Relaid.blanks ["A,100".toList] ["X,30".toList]
      "@tap".toList ['\r'] ['\t'] [' '] (by decide) (by decide) (by decide)
      (by decide) (by decide) (by decide))
  · exact (compile_of_relaid _ _).1 _ _ (.carriageReturn "A,100".toList "@tap".toList)
  · exact (compile_of_relaid _ _).1 _ _ (@Relaid.comment ["A,100".toList] []
      "@\"tap\"".toList [] " // ".toList "\"b\" # c".toList (by decide) (by decide) (by decide)
      (by decide) fun h => absurd h.count_quote (by decide))
  · refine (compile_of_relaid _ _).2.2 _ _ (@Respaced.idle ["A,1".toList] ["JUMP,1".toList]
      [] [" # why".toList, []] ?_)
    simp only [← Line.classify_eq_skip_iff_isIdle]
    decide

end Script

end PadScript
