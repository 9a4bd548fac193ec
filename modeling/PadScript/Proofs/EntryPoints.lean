import PadScript.Proofs.Flattening

/-!
# A file and its text

The compiler can be given a file, or the text of the file and its directory. A file is open while
its own directives are expanded, and a text is not, so the two runs differ in the open files at
every level of includes. A file that is open can only refuse an include: with fewer open files,
what could be gathered is gathered still, and nothing else changes (`flattenFile_of_within`).
-/

namespace PadScript

namespace IncludeChain

/-- Every file of the first chain is in the second one. -/
def Within (chain other : IncludeChain) : Prop :=
  ∀ path, chain.contains path = true → other.contains path = true

theorem contains_extend (chain : IncludeChain) (file path : Path) :
    (chain.extend file).contains path = (chain.contains path || file.same path) := by
  simp [contains, extend]

theorem within_empty (chain : IncludeChain) : empty.Within chain := by
  intro path hpath
  simp [contains, empty] at hpath

variable {chain other : IncludeChain}

theorem Within.extend (h : chain.Within other) (file : Path) :
    (chain.extend file).Within (other.extend file) := by
  intro path hpath
  rw [contains_extend, Bool.or_eq_true] at hpath ⊢
  exact hpath.imp_left (h path)

theorem Within.contains_eq_false (h : chain.Within other) {path : Path}
    (hpath : other.contains path = false) : chain.contains path = false := by
  by_contra hopen
  rw [Bool.not_eq_false] at hopen
  rw [h path hopen] at hpath
  cases hpath

end IncludeChain

namespace Script

variable {fs : FileSystem}

/-! ## Fewer open files -/

theorem lineBodies_mono {follow follow' : Text → Option (List Text)}
    (h : ∀ target bodies, follow target = some bodies → follow' target = some bodies) {raw : Text}
    {bodies : List Text} (hraw : lineBodies follow raw = some bodies) :
    lineBodies follow' raw = some bodies := by
  unfold lineBodies at hraw ⊢
  cases hline : Line.classify raw with
  | skip => simpa [hline] using hraw
  | directive target =>
    rw [hline] at hraw
    exact h target bodies hraw
  | input body => simpa [hline] using hraw

/-- Where every directive that was followed still is, the same lines are gathered. -/
theorem flattenLines_mono {follow follow' : Text → Option (List Text)}
    (h : ∀ target bodies, follow target = some bodies → follow' target = some bodies)
    {raws bodies : List Text} (hraws : flattenLines follow raws = some bodies) :
    flattenLines follow' raws = some bodies := by
  induction raws generalizing bodies with
  | nil => exact hraws
  | cons raw rest ih =>
    obtain ⟨first, more, hfirst, hmore, rfl⟩ := flattenLines_cons_eq_some_iff.mp hraws
    apply flattenLines_cons_eq_some_iff.mpr
    exact ⟨first, more, lineBodies_mono h hfirst, ih hmore, rfl⟩

theorem follow_mono {base : Option Path} {file file' : Path → Option (List Text)}
    (h : ∀ path bodies, file path = some bodies → file' path = some bodies) {target : Text}
    {bodies : List Text} (hfollow : follow fs base file target = some bodies) :
    follow fs base file' target = some bodies := by
  obtain ⟨next, hnext, hfile⟩ := follow_eq_some_iff.mp hfollow
  exact follow_eq_some_iff.mpr ⟨next, hnext, h next bodies hfile⟩

/-- With fewer open files, a file whose lines can be gathered has the same lines. -/
theorem flattenFile_of_within {levels : Nat} {chain other : IncludeChain}
    (hwithin : chain.Within other) {path : Path} {bodies : List Text}
    (h : flattenFile fs levels other path = some bodies) :
    flattenFile fs levels chain path = some bodies := by
  induction levels generalizing chain other path bodies with
  | zero => cases h
  | succ levels ih =>
    obtain ⟨canonical, source, hplace, hfresh, htext, hlines⟩ := flattenFile_succ_eq_some_iff.mp h
    apply flattenFile_succ_eq_some_iff.mpr
    refine ⟨canonical, source, hplace, hwithin.contains_eq_false hfresh, htext, ?_⟩
    refine flattenLines_mono (fun target behind => follow_mono fun next inner => ?_) hlines
    -- below this file both runs have it open
    exact ih (hwithin.extend canonical)

/-! ## Two ways in -/

/-- **A file and its text compile alike.** If a file compiles, its text compiles to the same
timeline from the directory of the file as it was written, with the same limit. -/
theorem compile_text_of_compileFile {limit : Nat} {base : Option Path} {path : Path}
    {source : Text} {t : Timeline} (hsource : fs.canonical path >>= fs.readText = .ok source)
    (h : compileFile fs ⟨base, limit⟩ path = .ok t) :
    compile fs ⟨path.parent?, limit⟩ source = .ok t := by
  obtain ⟨bodies, hflat, hcompiles⟩ := compileFileFrames_eq_ok_iff.mp (compileFile_eq_ok_iff.mp h)
  obtain ⟨canonical, source', hplace, -, htext, hlines⟩ := flattenFile_succ_eq_some_iff.mp hflat
  obtain rfl : source = source' := by
    rw [hplace] at hsource
    exact Except.ok.inj (hsource.symm.trans htext)
  rw [compile_eq_ok_iff, compileSource_eq_ok_iff_flattenLines
    (agrees_expander fun _ _ => compileFileFrames_eq_ok_iff)]
  refine ⟨bodies, ?_, hcompiles⟩
  refine flattenLines_mono (fun target behind => follow_mono fun next inner => ?_) hlines
  -- the text opens nothing, the file opens itself
  exact flattenFile_of_within (IncludeChain.within_empty _)

/-- A script that includes `tap`, and a link to it in a directory with another `tap`, which includes
the one at the root. -/
def linkedScripts : FileTree :=
  ((scriptTree [("main", "A,100\n@tap"), ("tap", "B,50")]).insert
    ["moves".toList, "start".toList] (.link ⟨"../main".toList⟩)).insert
    ["moves".toList, "tap".toList] (.file (Utf8.encode "@../tap\nX,30".toList))

theorem compile_text_linkedScripts :
    ∃ t, compileFile linkedScripts.fileSystem ⟨none, 10⟩ ⟨"moves/start".toList⟩ = .ok t ∧
      compile linkedScripts.fileSystem ⟨some ⟨"moves".toList⟩, 10⟩ "A,100\n@tap".toList = .ok t ∧
      t.duration = 180 := by
  have hsource : linkedScripts.fileSystem.canonical ⟨"moves/start".toList⟩ >>=
      linkedScripts.fileSystem.readText = .ok "A,100\n@tap".toList := by decide +kernel
  have hparent : Path.parent? ⟨"moves/start".toList⟩ = some ⟨"moves".toList⟩ := by decide +kernel
  have hduration : (compileFile linkedScripts.fileSystem ⟨none, 10⟩ ⟨"moves/start".toList⟩).map
      Timeline.duration = .ok 180 := by decide +kernel
  obtain ⟨t, h, ht⟩ := map_eq_ok_iff.mp hduration
  have htext := compile_text_of_compileFile hsource h
  rw [hparent] at htext
  exact ⟨t, h, htext, ht.symm⟩

end Script

end PadScript
