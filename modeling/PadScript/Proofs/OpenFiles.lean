import Mathlib.Data.List.Perm.Subperm
import PadScript.Proofs.DepthLimit
import PadScript.Proofs.FileTree
import PadScript.Proofs.IncludePath

/-!
# Open files bound the expansion

In a file system with finitely many files no more files can be open than there are, because the
open files are distinct. So includes end however great the limit is.

1. The compiler asks for the files of its steps and for no others (`Visit.frames_eq_of_steps`).
2. The files that are open around a visit are distinct, were read by the visits around it, and each
   took one level (`Visit.distinct_of_reaches`, `Visit.read_of_reaches`, `Visit.size_of_reaches`).
3. Distinct files are no more than the files that there are (`Distinct.length_le`), so no visit is
   deeper than that, and with as many levels nothing is too deep.
-/

namespace PadScript.Script

variable {fs : FileSystem} {limit : Nat} {top : Path}

/-! ## What a file depends on -/

namespace Visit

variable {v w : Visit} {canonical : Path} {source : Text}

/-- What a file is compiled to depends on its text, and on what the files of its steps are compiled
to, and on nothing else. -/
theorem frames_eq_of_steps (h : v.Opens fs canonical source)
    {answer : Path → Except LocatedFault (List Frame)}
    (hanswer : ∀ w, Step fs v w → answer w.path = w.frames fs limit) :
    v.frames fs limit = compileSource (some canonical)
      (expander fs (some canonical) v.path.parent? answer) source := by
  rw [frames_of_opens h]
  apply compileSource_congr
  intro raw hraw target hline next hnext
  exact (hanswer _ (.directive h hraw hline hnext)).symm

/-! ## Files that are open -/

/-- How deep a visit is below the file that is compiled, by the levels that are used up. -/
def depth (limit : Nat) (v : Visit) : Nat := limit + 1 - v.levels

theorem distinct_of_reaches (h : Relation.ReflTransGen (Step fs) (Visit.top limit top) v) :
    Distinct v.chain.paths := by
  obtain ⟨paths, htrail⟩ := Trail.exists_of_reaches h
  exact htrail.distinct

theorem size_of_reaches (h : Relation.ReflTransGen (Step fs) (Visit.top limit top) v) :
    v.chain.size = v.depth limit := by
  obtain ⟨paths, htrail⟩ := Trail.exists_of_reaches h
  have hlength : paths.length = v.chain.size := htrail.canonical.length_eq
  have hlevels := htrail.levels
  unfold depth
  omega

/-- Every open file was read by a visit around this one. -/
theorem read_of_reaches (h : Relation.ReflTransGen (Step fs) (Visit.top limit top) v) :
    ∀ file ∈ v.chain.paths, ∃ w source,
      Relation.ReflTransGen (Step fs) (Visit.top limit top) w ∧
        Relation.TransGen (Step fs) w v ∧ w.Opens fs file source := by
  induction h with
  | refl =>
    intro file hfile
    simp [Visit.top, IncludeChain.empty] at hfile
  | @tail u v hreach hstep ih =>
    intro file hfile
    cases hstep with
    | @directive canonical next source raw target hopens hraw hline hnext =>
      have hstep : Step fs u (u.inner canonical next) := .directive hopens hraw hline hnext
      rcases List.mem_append.mp hfile with hfile | hfile
      · obtain ⟨w, text, hw, hbelow, hread⟩ := ih file hfile
        exact ⟨w, text, hw, hbelow.tail hstep, hread⟩
      · rw [List.mem_singleton.mp hfile]
        exact ⟨u, source, hreach, .single hstep, hopens⟩

end Visit

/-! ## As many files as there are -/

/-- Distinct files are no more than the files that they are among. -/
theorem Distinct.length_le {paths files : List Path} (h : Distinct paths)
    (hfiles : ∀ path ∈ paths, ∃ file ∈ files, file.same path = true) :
    paths.length ≤ files.length := by
  have hnodup : (paths.map Path.components).Nodup := by
    refine List.pairwise_map.mpr (h.imp ?_)
    intro p q hpq heq
    simp [Path.same, heq] at hpq
  have hsubset : paths.map Path.components ⊆ files.map Path.components := by
    intro components hmem
    obtain ⟨path, hpath, rfl⟩ := List.mem_map.mp hmem
    obtain ⟨file, hfile, hsame⟩ := hfiles path hpath
    refine List.mem_map.mpr ⟨file, hfile, ?_⟩
    simpa [Path.same] using hsame
  have hle := (List.subperm_of_subset hnodup hsubset).length_le
  simpa using hle

namespace Visit

variable {files : List Path} {v : Visit}

theorem size_le (hfiles : fs.HasOnly files)
    (h : Relation.ReflTransGen (Step fs) (Visit.top limit top) v) :
    v.chain.size ≤ files.length := by
  refine (distinct_of_reaches h).length_le fun file hfile => ?_
  obtain ⟨w, source, -, -, hopens⟩ := read_of_reaches h file hfile
  obtain ⟨content, hread, -⟩ := bind_eq_ok_iff.mp hopens.text
  exact hfiles w.path file content hopens.place hread

/-- Visits inside each other are no more than the files that there are. -/
theorem length_le_of_isChain (hfiles : fs.HasOnly files)
    (h : Relation.ReflTransGen (Step fs) (Visit.top limit top) v) {visits : List Visit}
    (hvisits : (v :: visits).IsChain (Step fs)) :
    v.chain.size + visits.length ≤ files.length := by
  induction visits generalizing v with
  | nil => exact size_le hfiles h
  | cons w rest ih =>
    obtain ⟨hstep, hrest⟩ := List.isChain_cons_cons.mp hvisits
    have hnext := ih (h.tail hstep) hrest
    have hsize : w.chain.size = v.chain.size + 1 := by
      cases hstep
      exact IncludeChain.size_extend _ _
    rw [List.length_cons]
    omega

end Visit

theorem code_ne_of_files_le {files : List Path} (hfiles : fs.HasOnly files) {options : Options}
    (hlimit : files.length ≤ options.maxDepth) {e : LocatedFault}
    (h : compileFile fs options top = .error e) : e.fault.code ≠ "E2004".toList := by
  intro hcode
  have hkind := (Fault.code_eq_iff (k := .includeTooDeep)).mp hcode
  obtain ⟨v, hreach, hopening, -⟩ := exists_visit_of_error h (.inr hkind)
  have hlevels := hopening.levels_eq_zero hkind
  -- all levels are used up, so more files are open than there are
  have hsize := Visit.size_of_reaches hreach
  have hle := Visit.size_le hfiles hreach
  unfold Visit.depth at hsize
  omega

/-- **Open files bound the expansion.** The compiler asks for a file only in a step from an opened
one. Whatever the limit is, the files that are open around such a visit are distinct and have been
read, and they are as many as the visit is deep; so no visit is deeper than there are files, and no
more visits than that are inside the first one. With a limit that is no smaller, the result is the
same as with that number of levels, and never that an include is too deep. -/
theorem expansion_bounded {fs : FileSystem} {files : List Path} (hfiles : fs.HasOnly files)
    (base : Option Path) (limit : Nat) (path : Path) :
    (∀ (v : Visit) canonical source answer, v.Opens fs canonical source →
      (∀ w, Visit.Step fs v w → answer w.path = w.frames fs limit) →
      v.frames fs limit = compileSource (some canonical)
        (expander fs (some canonical) v.path.parent? answer) source) ∧
    (∀ v, Relation.ReflTransGen (Visit.Step fs) (Visit.top limit path) v →
      Distinct v.chain.paths ∧
      (∀ file ∈ v.chain.paths, ∃ w source,
        Relation.ReflTransGen (Visit.Step fs) (Visit.top limit path) w ∧
          Relation.TransGen (Visit.Step fs) w v ∧ w.Opens fs file source) ∧
      v.chain.size = v.depth limit ∧ v.depth limit ≤ files.length) ∧
    (∀ visits : List Visit, (Visit.top limit path :: visits).IsChain (Visit.Step fs) →
      visits.length ≤ files.length) ∧
    (files.length ≤ limit →
      compileFile fs ⟨base, limit⟩ path = compileFile fs ⟨base, files.length⟩ path ∧
      ∀ e, compileFile fs ⟨base, limit⟩ path = .error e → e.fault.code ≠ "E2004".toList) := by
  refine ⟨fun v canonical source answer hopens hanswer => Visit.frames_eq_of_steps hopens hanswer,
    fun v hreach => ?_, fun visits hvisits => ?_, fun hlimit => ⟨?_, ?_⟩⟩
  · have hsize := Visit.size_of_reaches hreach
    have hle := Visit.size_le hfiles hreach
    exact ⟨Visit.distinct_of_reaches hreach, Visit.read_of_reaches hreach, hsize, by omega⟩
  · have hle := Visit.length_le_of_isChain hfiles .refl hvisits
    omega
  · refine (compileFile_deeper hlimit path).eq fun e he => ?_
    exact code_ne_of_files_le hfiles (Nat.le_refl files.length) he
  · intro e he
    exact code_ne_of_files_le hfiles hlimit he

/-- The four scripts that include each other, with a limit that no file reaches. -/
theorem expansion_bounded_loopingScripts :
    loopingScripts.fileSystem.HasOnly
        (loopingScripts.files.map fun file => FileTree.pathOf file.1) ∧
      (∀ v, Relation.ReflTransGen (Visit.Step loopingScripts.fileSystem)
        (Visit.top 1000000 ⟨"main".toList⟩) v → v.depth 1000000 ≤ 4) ∧
      compileFile loopingScripts.fileSystem ⟨none, 1000000⟩ ⟨"main".toList⟩ =
        .error ⟨.circular [⟨"/main".toList⟩, ⟨"/right".toList⟩, ⟨"/main".toList⟩], 2,
          some ⟨"/right".toList⟩⟩ := by
  have hfiles : loopingScripts.fileSystem.HasOnly
      (loopingScripts.files.map fun file => FileTree.pathOf file.1) :=
    FileTree.hasOnly_files (FileTree.settled_nil loopingScripts)
  have hlength : (loopingScripts.files.map fun file => FileTree.pathOf file.1).length = 4 := by
    decide +kernel
  obtain ⟨-, hvisits, -, hlimit⟩ :=
    expansion_bounded hfiles none 1000000 ⟨"main".toList⟩
  rw [hlength] at hvisits hlimit
  refine ⟨hfiles, fun v hreach => (hvisits v hreach).2.2.2, ?_⟩
  rw [(hlimit (by decide)).1]
  decide +kernel

end PadScript.Script
