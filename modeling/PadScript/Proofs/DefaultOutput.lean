import PadScript.Command
import PadScript.Proofs.Flattening
import PadScript.Proofs.Writing

/-!
# Default outputs

A compiled timeline goes beside its source, with another extension, if no output is given. The
source is read as a script whatever its extension is, so it may be a header already: a script with
the extension `h` is replaced by its own header. This is the only way to lose a source. A frame
table never takes the place of its source, because an extension holds no dot.

1. What loads is a file, and its path ends in a name (`exists_file_of_loadTimeline`,
   `exists_endsIn_of_loadTimeline`).
2. The default output is the same path only for a header beside a source with the extension `h`
   (`same_defaultOutput_iff`).
3. A command writes its output and nothing else (`finish_compile`), and a file beside the one that
   is written stays (`finish_compile_keeps_input`), whatever command line asks for the command
   (`compile_keeps_input`).
-/

namespace PadScript

theorem FileSystem.readText_eq_ok {fs : FileSystem} {path : Path} {text : Text}
    (h : fs.readText path = .ok text) : ∃ content, fs.read path = .ok content := by
  obtain ⟨content, hread, -⟩ := bind_eq_ok_iff.mp h
  exact ⟨content, hread⟩

namespace Command

variable {tree : FileTree} {input : Path} {isRecording : Bool} {t : Timeline}

/-! ## What loads -/

theorem exists_file_of_loadTimeline (hhome : tree.Settled tree.home)
    (h : loadTimeline tree.fileSystem input isRecording = .ok t) :
    ∃ place content, tree.locate .existing input = .ok place ∧
      tree.find? place = some (.file content) := by
  unfold loadTimeline at h
  split at h
  · obtain ⟨json, hjson, -⟩ := bind_eq_ok_iff.mp h
    obtain ⟨content, hread⟩ := FileSystem.readText_eq_ok (mapError_eq_ok_iff.mp hjson)
    obtain ⟨-, place, hplace, hfile⟩ := FileTree.read_eq_ok hread
    exact ⟨place, content, hplace, hfile⟩
  · -- a script is read at its canonical path, which leads to the same place
    obtain ⟨canonical, source, hcanonical, -, hsource, -⟩ :=
      Script.compileFileFrames_succ_eq_ok_iff.mp (Script.compileFile_eq_ok_iff.mp h)
    obtain ⟨place, hplace, hpath⟩ := bind_eq_ok_iff.mp hcanonical
    obtain rfl : FileTree.pathOf place = canonical := Except.ok.inj hpath
    obtain ⟨content, hread⟩ := FileSystem.readText_eq_ok hsource
    obtain ⟨hname, found, hfound, hfile⟩ := FileTree.read_eq_ok hread
    rw [FileTree.locate_pathOf (FileTree.settled_of_locate hhome hplace) hname] at hfound
    obtain rfl := Except.ok.inj hfound
    exact ⟨place, content, hplace, hfile⟩

theorem exists_endsIn_of_loadTimeline (hhome : tree.Settled tree.home)
    (h : loadTimeline tree.fileSystem input isRecording = .ok t) :
    ∃ before name, input.EndsIn before name := by
  obtain ⟨place, content, hplace, hfile⟩ := exists_file_of_loadTimeline hhome h
  exact FileTree.exists_endsIn_of_locate hhome hplace (by simp [FileTree.isDirectory, hfile])

/-! ## Where the output goes -/

/-- The extension of a default output. -/
def defaultExtension : OutputFormat → Text
  | .header => "h".toList
  | .table => "frames.json".toList

theorem defaultOutput_eq (input : Path) (format : OutputFormat) :
    defaultOutput input format = input.withExtension (defaultExtension format) := by
  cases format <;> rfl

theorem defaultExtension_ne_nil (format : OutputFormat) : defaultExtension format ≠ [] := by
  cases format <;> decide

theorem slash_not_mem_defaultExtension (format : OutputFormat) :
    '/' ∉ defaultExtension format := by
  cases format <;> decide

/-- The default output takes the place of the source only if the source has the extension of a
header and its header is asked for. -/
theorem same_defaultOutput_iff {before : List Text} {name : Text} (h : input.EndsIn before name)
    (format : OutputFormat) :
    (defaultOutput input format).same input = true ↔
      format = .header ∧ input.extension? = some "h".toList := by
  rw [defaultOutput_eq, h.same_withExtension_iff (defaultExtension_ne_nil format)
    (slash_not_mem_defaultExtension format)]
  cases format with
  | header => exact (and_iff_right rfl).symm
  | table =>
    have hdot : input.extension? ≠ some (defaultExtension .table) :=
      fun hextension => h.dot_not_mem hextension (by decide)
    exact iff_of_false hdot fun hheader => nomatch hheader.1

/-! ## What a command writes -/

section Compile

variable {format : OutputFormat}

/-- A command that compiles a file leaves the tree as it was, or writes its output. -/
theorem finish_compile (hload : loadTimeline tree.fileSystem input isRecording = .ok t)
    (options : Header.Options) {result : Result × FileTree}
    (h : finish tree (plan tree.fileSystem (.compile input isRecording format options none)) =
      result) :
    result.2 = tree ∨
      tree.write (defaultOutput input format) (Utf8.encode (renderAs format options t)) =
        .ok result.2 := by
  simp only [plan, hload, Option.getD_none] at h
  subst h
  split
  · exact .inl rfl
  · rw [finish]
    split
    · rename_i after hwrite
      exact .inr hwrite
    · exact .inl rfl

/-- A file that is compiled to its default output stays as it was, unless its header replaces it or
one of the two is a link. -/
theorem finish_compile_keeps_input (hhome : tree.Settled tree.home)
    (hload : loadTimeline tree.fileSystem input isRecording = .ok t)
    (hother : ¬ (format = .header ∧ input.extension? = some "h".toList))
    (hlink : tree.endsAtLink input = false)
    (houtput : tree.endsAtLink (defaultOutput input format) = false) (options : Header.Options) :
    ∃ content, tree.entryAt? input = some (.file content) ∧
      (finish tree (plan tree.fileSystem
        (.compile input isRecording format options none))).2.entryAt? input =
          some (.file content) := by
  obtain ⟨place, content, hplace, hfile⟩ := exists_file_of_loadTimeline hhome hload
  obtain ⟨before, name, hends⟩ := exists_endsIn_of_loadTimeline hhome hload
  have hentry : tree.entryAt? input = some (.file content) := by
    rw [FileTree.entryAt?_of_locate hplace, hfile]
  refine ⟨content, hentry, ?_⟩
  rcases finish_compile hload options rfl with htree | hwrite
  · rw [htree, hentry]
  · have hdiffers := Bool.eq_false_iff.mpr (mt (same_defaultOutput_iff hends format).mp hother)
    rw [defaultOutput_eq] at hwrite houtput hdiffers
    obtain ⟨hanchor, hout⟩ := hends.withExtension (defaultExtension_ne_nil format)
      (slash_not_mem_defaultExtension format)
    rw [FileTree.entryAt?_write_sibling hends hout hanchor hdiffers hlink houtput hplace hwrite,
      hentry]

end Compile

/-- **Compiling keeps the source, unless a header replaces it.** If a file loads, the default output
is another path, except for a header beside a source with the extension `h`. Outside that case, a
compile command without an output leaves the file as it was, if neither the input nor the output is
a link. -/
theorem compile_keeps_input (hhome : tree.Settled tree.home)
    (hload : loadTimeline tree.fileSystem input isRecording = .ok t) (format : OutputFormat) :
    ((defaultOutput input format).same input = true ↔
      format = .header ∧ input.extension? = some "h".toList) ∧
    (¬ (format = .header ∧ input.extension? = some "h".toList) →
      tree.endsAtLink input = false → tree.endsAtLink (defaultOutput input format) = false →
      ∀ texts options,
        Command.read texts = some (.compile input isRecording format options none) →
        ∃ content, tree.entryAt? input = some (.file content) ∧
          (run tree texts).2.entryAt? input = some (.file content)) := by
  obtain ⟨before, name, hends⟩ := exists_endsIn_of_loadTimeline hhome hload
  refine ⟨same_defaultOutput_iff hends format, fun hother hlink houtput texts options hread => ?_⟩
  rw [run_of_read hread]
  exact finish_compile_keeps_input hhome hload hother hlink houtput options

/-- A script and an older header of it, and a script that has the extension of a header. -/
def headerScripts : FileTree :=
  Script.scriptTree [("tap.macro", "A,100"), ("tap.h", "// old"), ("hold.h", "B,50")]

theorem settled_headerScripts : headerScripts.Settled headerScripts.home := by
  have hhome : headerScripts.home = [] := by decide +kernel
  rw [hhome]
  exact FileTree.settled_nil _

theorem compile_keeps_input_headerScripts :
    (defaultOutput ⟨"tap.macro".toList⟩ .header).same ⟨"tap.macro".toList⟩ ≠ true ∧
      headerScripts.entryAt? ⟨"tap.macro".toList⟩ =
        (run headerScripts ["compile".toList, "tap.macro".toList]).2.entryAt?
          ⟨"tap.macro".toList⟩ := by
  have hok : (loadTimeline headerScripts.fileSystem ⟨"tap.macro".toList⟩ false).isOk = true := by
    decide +kernel
  have hextension : Path.extension? ⟨"tap.macro".toList⟩ ≠ some "h".toList := by decide +kernel
  cases hload : loadTimeline headerScripts.fileSystem ⟨"tap.macro".toList⟩ false with
  | error e =>
    rw [hload] at hok
    cases hok
  | ok t =>
    obtain ⟨hsame, hkeeps⟩ := compile_keeps_input settled_headerScripts hload .header
    have hother := fun h : OutputFormat.header = .header ∧ _ => hextension h.2
    obtain ⟨content, hbefore, hafter⟩ := hkeeps hother (by decide +kernel) (by decide +kernel)
      ["compile".toList, "tap.macro".toList] ⟨false, .avr⟩ (by decide +kernel)
    exact ⟨mt hsame.mp hother, hbefore.trans hafter.symm⟩

/-- A script that has the extension of a header is lost, without any link. -/
theorem compile_replaces_input_headerScripts :
    headerScripts.Settled headerScripts.home ∧
      headerScripts.endsAtLink ⟨"hold.h".toList⟩ = false ∧
      (loadTimeline headerScripts.fileSystem ⟨"hold.h".toList⟩ false).isOk = true ∧
      (defaultOutput ⟨"hold.h".toList⟩ .header).same ⟨"hold.h".toList⟩ = true ∧
      (run headerScripts ["compile".toList, "hold.h".toList]).2.entryAt? ⟨"hold.h".toList⟩ ≠
        headerScripts.entryAt? ⟨"hold.h".toList⟩ :=
  ⟨settled_headerScripts, by decide +kernel⟩

end Command

end PadScript
