import Mathlib.Data.List.Infix
import PadScript.Command

/-!
# Help

1. The help of the program lists every command, and the help of a command lists every option that it
   takes (`Help.shows_program`, `Help.names_options`).
2. What comes after a request for help is not read (`Command.read_append_help`), and no file is
   read or written for it (`Command.run_help`).
-/

namespace PadScript

namespace Help

/-! ## What is listed -/

/-- The text holds both columns of a row. -/
def Shows (text : Text) (row : Text × Text) : Prop := row.1 <:+: text ∧ row.2 <:+: text

theorem Shows.mono {part text : Text} {row : Text × Text} (h : Shows part row)
    (hpart : part <:+: text) : Shows text row :=
  ⟨h.1.trans hpart, h.2.trans hpart⟩

theorem shows_line (width : Nat) (row : Text × Text) : Shows (line width row) row := by
  unfold line
  split
  · rename_i hempty
    rw [Shows, List.isEmpty_iff.mp hempty]
    exact ⟨List.infix_append _ _ _, List.nil_infix⟩
  · refine ⟨⟨"  ".toList, List.replicate (width - row.1.length) ' ' ++ "  ".toList ++ row.2 ++
      ['\n'], ?_⟩, List.infix_append _ _ _⟩
    simp only [Text.padRight, List.append_assoc]

theorem shows_table {rows : List (Text × Text)} {row : Text × Text} (h : row ∈ rows)
    (heading : String) : Shows (table heading rows) row := by
  have hline : ∀ width, line width row <:+: rows.flatMap (line width) := fun width =>
    List.infix_of_mem_flatten (List.mem_map_of_mem h)
  have htable : columns rows <:+: table heading rows := by
    rw [table, if_neg (by simpa using List.ne_nil_of_mem h)]
    exact (List.suffix_append _ _).isInfix
  exact ((shows_line _ row).mono (hline _)).mono htable

/-- The help of the program names every command and says what it is for. -/
theorem shows_program (c : Subcommand) : Shows program (c.name, c.purpose) := by
  have hall : c ∈ Subcommand.all := by cases c <;> decide
  have hrow : (c.name, c.purpose) ∈ Subcommand.all.map fun c => (c.name, c.purpose) :=
    List.mem_map_of_mem hall
  exact (shows_table hrow "Commands").mono (List.infix_append _ _ _)

theorem shows_subcommand {c : Subcommand} {option : Text × Text} (h : option ∈ c.options) :
    Shows (subcommand c) option :=
  (shows_table h "Options").mono (List.suffix_append _ _).isInfix

/-- The help of a command names the options of a table. -/
def Names (c : Subcommand) (table : OptionTable) : Prop :=
  ∀ name ∈ table.flags ++ table.valued, "--".toList ++ name <:+: subcommand c

/-- The help of a command names every option that the command takes. -/
theorem names_options :
    Names .compile Command.compileTable ∧ Names .inspect Command.inspectTable := by
  have hrows : ∀ c table, (∀ name ∈ OptionTable.flags table ++ table.valued,
      ∃ option ∈ Subcommand.options c, "--".toList ++ name <:+: option.1) → Names c table := by
    intro c table h name hname
    obtain ⟨option, hoption, hinfix⟩ := h name hname
    exact hinfix.trans (shows_subcommand hoption).1
  exact ⟨hrows _ _ (by decide), hrows _ _ (by decide)⟩

end Help

/-! ## Asking for help -/

variable {text : Text}

theorem OptionTable.word_of_asksHelp (h : Word.asksHelp text = true) (table : OptionTable) :
    table.word text = .help := if_pos h

namespace Arguments

variable {table : OptionTable}

theorem ne_dashes_of_asksHelp (h : Word.asksHelp text = true) : text ≠ ['-', '-'] := by
  rintro rfl
  cases h

theorem isValue_of_asksHelp (h : Word.asksHelp text = true) : isValue text = false := by
  unfold Word.asksHelp at h
  split at h
  · simp [isValue]
  · obtain rfl := of_decide_eq_true h
    decide

theorem read_help (h : Word.asksHelp text = true) (rest : List Text) :
    read table (text :: rest) = some ⟨[], [], [], true⟩ := by
  rw [read, if_neg (ne_dashes_of_asksHelp h), OptionTable.word_of_asksHelp h]

/-- What comes after a request for help is not read, unless the options have ended before it. -/
theorem read_append_help (htext : Word.asksHelp text = true) {before : List Text}
    (h : ['-', '-'] ∉ before) (after : List Text) :
    read table (before ++ text :: after) = read table (before ++ [text]) := by
  fun_induction read table before with
  | case1 => simp only [List.nil_append, read_help htext]
  | case2 => simp at h
  | case3 word rest hne hword => simp only [List.cons_append, read, if_neg hne, hword]
  | case4 word rest hne hword => simp only [List.cons_append, read, if_neg hne, hword]
  | case5 word rest hne operand hword ih =>
    simp only [List.cons_append, read, if_neg hne, hword, ih (List.not_mem_of_not_mem_cons h)]
  | case6 word rest hne name hword ih =>
    simp only [List.cons_append, read, if_neg hne, hword, ih (List.not_mem_of_not_mem_cons h)]
  | case7 word rest hne name value hword ih =>
    simp only [List.cons_append, read, if_neg hne, hword, ih (List.not_mem_of_not_mem_cons h)]
  | case8 word hne name hword value rest hvalue ih =>
    have hrest := List.not_mem_of_not_mem_cons (List.not_mem_of_not_mem_cons h)
    simp only [List.cons_append, read, if_neg hne, hword, if_pos hvalue, ih hrest]
  | case9 word hne name hword value rest hvalue =>
    simp only [List.cons_append, read, if_neg hne, hword, if_neg hvalue]
  | case10 word hne name hword =>
    simp only [List.cons_append, List.nil_append, read, if_neg hne, hword,
      isValue_of_asksHelp htext, if_neg Bool.false_ne_true]

end Arguments

theorem Subcommand.ofName?_of_asksHelp (h : Word.asksHelp text = true) :
    ofName? text = none := by
  refine List.find?_eq_none.mpr fun c _ hname => ?_
  obtain rfl := of_decide_eq_true hname
  cases c <;> cases h

namespace Command

/-- The help command takes one name at most, and no name asks for help. -/
theorem readHelp_append (htext : Word.asksHelp text = true) (before after : List Text) :
    readHelp (before ++ text :: after) = none := by
  match before, after with
  | [], [] => rw [List.nil_append, readHelp, Subcommand.ofName?_of_asksHelp htext, Option.map_none]
  | [], _ :: _ => rfl
  | [_], _ => rfl
  | _ :: _ :: _, _ => rfl

/-- **Nothing after a request for help counts**, unless the options have ended before it. -/
theorem read_append_help (htext : Word.asksHelp text = true) {before : List Text}
    (h : ['-', '-'] ∉ before) (after : List Text) :
    Command.read (before ++ text :: after) = Command.read (before ++ [text]) := by
  cases before with
  | nil => simp only [List.nil_append, Command.read, if_pos htext]
  | cons name before =>
    have hread : ∀ table, Arguments.read table (before ++ text :: after) =
        Arguments.read table (before ++ [text]) := fun table =>
      Arguments.read_append_help htext (List.not_mem_of_not_mem_cons h) after
    simp only [List.cons_append, Command.read, readCompile, readInspect, Arguments.read?, hread,
      readHelp_append htext]

/-- Help is printed with success, and leaves every file as it was. -/
theorem run_help {tree : FileTree} {texts : List Text} {topic? : Option Subcommand}
    (h : Command.read texts = some (.help topic?)) :
    run tree texts = (⟨0, Help.text topic?, []⟩, tree) := run_of_read h

-- a request for help before the input, after an input, and where a path is to follow
example : Command.read ["compile".toList, "--loop".toList, "-h".toList, "--oops".toList] =
      some (.help (some .compile)) ∧
    Command.read ["inspect".toList, "tap.macro".toList, "--help".toList] =
      some (.help (some .inspect)) ∧
    Command.read ["compile".toList, "-o".toList, "--help".toList] = none := by
  decide +kernel

end Command

end PadScript
