import Mathlib.Data.List.Chain
import Mathlib.Data.List.Forall2
import Mathlib.Data.List.Induction
import PadScript.Proofs.Refusal

/-!
# Include paths

A file is refused as circular or too deep exactly along its include paths: the sequences of files
in which each one has a directive that leads to the next one. What other files include does not
matter, so a file may be included many times as long as it is not open.

1. `Trail` is the invariant of a visit: the open files are the canonical paths of the include path
   that leads to it, they are distinct, and each of them took one level. A step of the compiler
   keeps it (`Trail.inner`), so every visit that is reached has a trail (`Trail.exists_of_reaches`).
2. If a file compiles, every include path is gone along (`Trail.exists_ok`).
-/

namespace PadScript

theorem IncludeChain.contains_eq_true_iff {chain : IncludeChain} {path : Path} :
    chain.contains path = true ↔ ∃ other ∈ chain.paths, other.same path = true :=
  List.any_eq_true

theorem IncludeChain.contains_eq_false_iff {chain : IncludeChain} {path : Path} :
    chain.contains path = false ↔ ∀ other ∈ chain.paths, other.same path = false := by
  unfold IncludeChain.contains
  rw [List.any_eq_false]
  exact forall₂_congr fun _ _ => iff_of_eq (Bool.not_eq_true _)

namespace Script

/-! ## Paths from a file to a file -/

/-- The files, from the one at `top` on, each have a directive that leads to the next one. -/
def IncludePath (fs : FileSystem) (top : Path) (paths : List Path) : Prop :=
  paths.head? = some top ∧ paths.IsChain (Includes fs)

/-- The canonical paths of the paths. -/
def Canonical (fs : FileSystem) (paths canonicals : List Path) : Prop :=
  List.Forall₂ (fun path canonical => fs.canonical path = .ok canonical) paths canonicals

/-- No two of the paths are the same. -/
def Distinct (paths : List Path) : Prop := paths.Pairwise fun p q => p.same q = false

variable {fs : FileSystem} {limit : Nat} {top path next : Path} {paths : List Path}

theorem includePath_singleton_iff : IncludePath fs top [path] ↔ path = top := by
  constructor
  · rintro ⟨hhead, -⟩
    exact Option.some.inj hhead
  · rintro rfl
    exact ⟨rfl, List.isChain_singleton path⟩

theorem includePath_concat_iff :
    IncludePath fs top (paths ++ [path] ++ [next]) ↔
      IncludePath fs top (paths ++ [path]) ∧ Includes fs path next := by
  unfold IncludePath
  have hne : paths ++ [path] ≠ [] := List.concat_ne_nil path paths
  rw [List.head?_append_of_ne_nil _ hne, and_assoc, List.append_assoc]
  refine and_congr_right fun _ => ?_
  show (paths ++ path :: next :: []).IsChain (Includes fs) ↔ _
  rw [List.isChain_append_cons_cons]
  exact and_congr_right fun _ => and_iff_left (List.isChain_singleton next)

theorem Canonical.concat {canonicals : List Path} {canonical : Path}
    (h : Canonical fs paths canonicals) (hpath : fs.canonical path = .ok canonical) :
    Canonical fs (paths ++ [path]) (canonicals ++ [canonical]) :=
  List.rel_append h (.cons hpath .nil)

theorem distinct_concat_iff :
    Distinct (paths ++ [path]) ↔ Distinct paths ∧ ∀ other ∈ paths, other.same path = false := by
  unfold Distinct
  rw [List.pairwise_append]
  constructor
  · rintro ⟨hpaths, -, hlast⟩
    exact ⟨hpaths, fun other hother => hlast other hother path (List.mem_singleton_self path)⟩
  · rintro ⟨hpaths, hlast⟩
    refine ⟨hpaths, List.pairwise_singleton _ _, fun other hother last hmem => ?_⟩
    rw [List.mem_singleton.mp hmem]
    exact hlast other hother

/-! ## Trails of visits -/

/-- The files at `paths` were opened one after the other, each for a directive of the one before,
and the last of them asks for the visit. -/
structure Trail (fs : FileSystem) (limit : Nat) (top : Path) (paths : List Path) (v : Visit) :
    Prop where
  includePath : IncludePath fs top (paths ++ [v.path])
  canonical : Canonical fs paths v.chain.paths
  distinct : Distinct v.chain.paths
  levels : paths.length + v.levels = limit + 1

namespace Trail

variable {v w : Visit} {canonical : Path} {source : Text}

theorem start : Trail fs limit top [] (Visit.top limit top) where
  includePath := includePath_singleton_iff.mpr rfl
  canonical := .nil
  distinct := .nil
  levels := Nat.zero_add _

/-- Opening a file keeps the open files distinct and takes a level. -/
theorem opens (h : Trail fs limit top paths v) (hopens : v.Opens fs canonical source) :
    Canonical fs (paths ++ [v.path]) (v.chain.extend canonical).paths ∧
      Distinct (v.chain.extend canonical).paths ∧ (paths ++ [v.path]).length ≤ limit + 1 := by
  refine ⟨h.canonical.concat hopens.place, distinct_concat_iff.mpr ⟨h.distinct, ?_⟩, ?_⟩
  · exact IncludeChain.contains_eq_false_iff.mp hopens.fresh
  · have hlevels := h.levels
    have hpos := hopens.levels
    rw [List.length_append, List.length_singleton]
    omega

/-- From an opened file on, the trail goes one file further. -/
theorem inner (h : Trail fs limit top paths v) (hopens : v.Opens fs canonical source)
    (hnext : Includes fs v.path next) :
    Trail fs limit top (paths ++ [v.path]) (v.inner canonical next) := by
  obtain ⟨hcanonical, hdistinct, -⟩ := h.opens hopens
  refine ⟨includePath_concat_iff.mpr ⟨h.includePath, hnext⟩, hcanonical, hdistinct, ?_⟩
  have hlevels := h.levels
  have hpos := hopens.levels
  rw [List.length_append, List.length_singleton]
  show paths.length + 1 + (v.levels - 1) = limit + 1
  omega

theorem step (h : Trail fs limit top paths v) (hstep : Visit.Step fs v w) :
    Trail fs limit top (paths ++ [v.path]) w := by
  have hnext := hstep.includes
  cases hstep with
  | directive hopens _ _ _ => exact h.inner hopens hnext

theorem exists_of_reaches (h : Relation.ReflTransGen (Visit.Step fs) (Visit.top limit top) w) :
    ∃ paths, Trail fs limit top paths w := by
  induction h with
  | refl => exact ⟨[], start⟩
  | tail _ hstep ih =>
    obtain ⟨paths, htrail⟩ := ih
    exact ⟨_, htrail.step hstep⟩

/-- If a file compiles, the compiler goes along every include path, and every visit on it ends
well. -/
theorem exists_ok {frames : List Frame} (hok : (Visit.top limit top).frames fs limit = .ok frames)
    (h : IncludePath fs top (paths ++ [path])) :
    ∃ v frames', Trail fs limit top paths v ∧ v.path = path ∧ v.frames fs limit = .ok frames' := by
  induction paths using List.reverseRecOn generalizing path with
  | nil => exact ⟨Visit.top limit top, frames, start, (includePath_singleton_iff.mp h).symm, hok⟩
  | append_singleton paths previous ih =>
    obtain ⟨hprevious, hnext⟩ := includePath_concat_iff.mp h
    obtain ⟨v, frames', htrail, rfl, hframes⟩ := ih hprevious
    obtain ⟨canonical, source, hopens, hincludes⟩ := Visit.ok_of_includes hframes
    obtain ⟨frames'', hinner⟩ := hincludes path hnext
    exact ⟨v.inner canonical path, frames'', htrail.inner hopens hnext, rfl, hinner⟩

end Trail

/-! ## Files that are not opened -/

/-- A file that is refused as circular or too deep is refused for a file that is not opened, and at
the last file that is open. -/
theorem exists_visit_of_error {options : Options} {e : LocatedFault}
    (h : compileFile fs options top = .error e)
    (hkind : e.fault.kind = .circularInclude ∨ e.fault.kind = .includeTooDeep) :
    ∃ v, Relation.ReflTransGen (Visit.Step fs) (Visit.top options.maxDepth top) v ∧
      v.OpeningFault fs options.maxDepth e.fault ∧ e.file = v.chain.paths.getLast? := by
  rcases compileFile_eq_error_cases h with ⟨-, -, hopening | hempty⟩ |
    ⟨w, canonical, source, index, raw, hreach, hopens, -, hrefuses, -, hfile⟩
  · obtain ⟨cause, hfault, -⟩ := hopening.of_top
    rw [hfault] at hkind
    rcases hkind with hkind | hkind <;> cases hkind
  · rw [hempty] at hkind
    rcases hkind with hkind | hkind <;> cases hkind
  · cases hrefuses with
    | line hline =>
      rcases hkind with hkind | hkind
      · exact absurd hkind (hline.kind_ne rfl Fault.Kind.noConfusion)
      · exact absurd hkind (hline.kind_ne rfl Fault.Kind.noConfusion)
    | directive _ hstep hopening =>
      refine ⟨_, hreach.tail hstep, hopening, ?_⟩
      cases hstep with
      | directive hopens' _ _ _ =>
        obtain ⟨rfl, -⟩ := hopens.unique hopens'
        show e.file = (w.chain.paths ++ [canonical]).getLast?
        rw [hfile, List.getLast?_concat]

theorem exists_trail_of_error {options : Options} {e : LocatedFault}
    (h : compileFile fs options top = .error e)
    (hkind : e.fault.kind = .circularInclude ∨ e.fault.kind = .includeTooDeep) :
    ∃ paths v, Trail fs options.maxDepth top paths v ∧
      v.OpeningFault fs options.maxDepth e.fault ∧ e.file = v.chain.paths.getLast? := by
  obtain ⟨v, hreach, hopening, hfile⟩ := exists_visit_of_error h hkind
  obtain ⟨paths, htrail⟩ := Trail.exists_of_reaches hreach
  exact ⟨paths, v, htrail, hopening, hfile⟩

theorem Trail.circular {v : Visit} {fault : Fault} (h : Trail fs limit top paths v)
    (hfault : v.OpeningFault fs limit fault) (hkind : fault.kind = .circularInclude) :
    ∃ canonical, paths.length ≤ limit ∧
      Canonical fs (paths ++ [v.path]) (v.chain.paths ++ [canonical]) ∧
      (∃ other ∈ v.chain.paths, other.same canonical = true) ∧
      fault = .circular (v.chain.paths ++ [canonical]) := by
  cases hfault with
  | tooDeep _ => cases hkind
  | noPath _ _ => cases hkind
  | noText _ _ _ => cases hkind
  | @circular canonical hlevels hplace hopen =>
    have := h.levels
    exact ⟨canonical, by omega, h.canonical.concat hplace,
      IncludeChain.contains_eq_true_iff.mp hopen, rfl⟩

theorem Visit.OpeningFault.levels_eq_zero {v : Visit} {fault : Fault}
    (h : v.OpeningFault fs limit fault) (hkind : fault.kind = .includeTooDeep) : v.levels = 0 := by
  cases h with
  | tooDeep hlevels => exact hlevels
  | noPath _ _ => cases hkind
  | noText _ _ _ => cases hkind
  | circular _ _ _ => cases hkind

theorem Trail.tooDeep {v : Visit} {fault : Fault} (h : Trail fs limit top paths v)
    (hfault : v.OpeningFault fs limit fault) (hkind : fault.kind = .includeTooDeep) :
    paths.length = limit + 1 := by
  have hlevels := h.levels
  rw [hfault.levels_eq_zero hkind] at hlevels
  exact hlevels

/-! ## Verdicts -/

theorem distinct_of_compileFile_ok {options : Options} {t : Timeline}
    (h : compileFile fs options top = .ok t) (hpath : IncludePath fs top paths) :
    paths.length ≤ options.maxDepth + 1 ∧
      ∃ canonicals, Canonical fs paths canonicals ∧ Distinct canonicals := by
  rcases List.eq_nil_or_concat paths with rfl | ⟨before, last, rfl⟩
  · cases hpath.1
  rw [List.concat_eq_append] at hpath ⊢
  have hok : (Visit.top options.maxDepth top).frames fs options.maxDepth = .ok t.frames :=
    compileFile_eq_ok_iff.mp h
  obtain ⟨v, frames, htrail, rfl, hframes⟩ := Trail.exists_ok hok hpath
  obtain ⟨canonical, source, hopens, -⟩ := Visit.frames_eq_ok_iff.mp hframes
  obtain ⟨hcanonical, hdistinct, hlength⟩ := htrail.opens hopens
  exact ⟨hlength, _, hcanonical, hdistinct⟩

theorem circular_of_compileFile_error {options : Options} {e : LocatedFault}
    (h : compileFile fs options top = .error e) (hkind : e.fault.kind = .circularInclude) :
    ∃ paths last canonicals canonical, IncludePath fs top (paths ++ [last]) ∧
      paths.length ≤ options.maxDepth ∧
      Canonical fs (paths ++ [last]) (canonicals ++ [canonical]) ∧ Distinct canonicals ∧
      (∃ other ∈ canonicals, other.same canonical = true) ∧
      e.fault = .circular (canonicals ++ [canonical]) := by
  obtain ⟨paths, v, htrail, hopening, -⟩ := exists_trail_of_error h (.inl hkind)
  obtain ⟨canonical, hlength, hcanonical, hopen, hfault⟩ := htrail.circular hopening hkind
  exact ⟨paths, v.path, v.chain.paths, canonical, htrail.includePath, hlength, hcanonical,
    htrail.distinct, hopen, hfault⟩

/-- **Cycles and depth are judged exactly.** If a file compiles, no include path from it is too
deep or comes back to a file. A circular include is an include path that does come back, and the
context names its files; an include that is too deep is an include path beyond the limit, and the
fault is in the last file within it. Where no include path comes back to a file, as when files are
only included side by side, nothing is circular. -/
theorem include_verdicts (fs : FileSystem) (options : Options) (top : Path) :
    (∀ t, compileFile fs options top = .ok t → ∀ paths, IncludePath fs top paths →
      paths.length ≤ options.maxDepth + 1 ∧
        ∃ canonicals, Canonical fs paths canonicals ∧ Distinct canonicals) ∧
    (∀ e, compileFile fs options top = .error e → e.fault.code = "E2003".toList →
      ∃ paths last canonicals canonical, IncludePath fs top (paths ++ [last]) ∧
        paths.length ≤ options.maxDepth ∧
        Canonical fs (paths ++ [last]) (canonicals ++ [canonical]) ∧ Distinct canonicals ∧
        (∃ other ∈ canonicals, other.same canonical = true) ∧
        e.fault.context =
          some (Text.join " -> ".toList ((canonicals ++ [canonical]).map Path.text))) ∧
    (∀ e, compileFile fs options top = .error e → e.fault.code = "E2004".toList →
      ∃ paths last canonicals, IncludePath fs top (paths ++ [last]) ∧
        paths.length = options.maxDepth + 1 ∧ Canonical fs paths canonicals ∧
        Distinct canonicals ∧ e.file = canonicals.getLast?) ∧
    ((∀ paths canonicals, IncludePath fs top paths → Canonical fs paths canonicals →
        Distinct canonicals) →
      ∀ e, compileFile fs options top = .error e → e.fault.code ≠ "E2003".toList) := by
  refine ⟨fun t h paths hpath => distinct_of_compileFile_ok h hpath, fun e h hcode => ?_,
    fun e h hcode => ?_, fun hdistinct e h hcode => ?_⟩
  · obtain ⟨paths, last, canonicals, canonical, hpath, hlength, hcanonical, hdistinct, hopen,
      hfault⟩ := circular_of_compileFile_error h
        ((Fault.code_eq_iff (k := .circularInclude)).mp hcode)
    refine ⟨paths, last, canonicals, canonical, hpath, hlength, hcanonical, hdistinct, hopen, ?_⟩
    rw [hfault]
    rfl
  · have hkind := (Fault.code_eq_iff (k := .includeTooDeep)).mp hcode
    obtain ⟨paths, v, htrail, hopening, hfile⟩ := exists_trail_of_error h (.inr hkind)
    exact ⟨paths, v.path, v.chain.paths, htrail.includePath, htrail.tooDeep hopening hkind,
      htrail.canonical, htrail.distinct, hfile⟩
  · obtain ⟨paths, last, canonicals, canonical, hpath, -, hcanonical, -, ⟨other, hother, hsame⟩,
      -⟩ := circular_of_compileFile_error h
        ((Fault.code_eq_iff (k := .circularInclude)).mp hcode)
    have hfresh := (distinct_concat_iff.mp (hdistinct _ _ hpath hcanonical)).2 other hother
    rw [hsame] at hfresh
    cases hfresh

/-- Two scripts include a third one; the second of them also includes the script that includes
it. -/
def loopingScripts : FileTree :=
  scriptTree [("main", "@left\n@right"), ("left", "A,10\n@tap"), ("right", "@tap\n@main"),
    ("tap", "B,50")]

theorem include_verdicts_loopingScripts :
    ∃ e, compileFile loopingScripts.fileSystem .default ⟨"main".toList⟩ = .error e ∧
      e.fault.context = some "/main -> /right -> /main".toList ∧
      ∃ paths last, IncludePath loopingScripts.fileSystem ⟨"main".toList⟩ (paths ++ [last]) ∧
        paths.length ≤ 10 := by
  have h : compileFile loopingScripts.fileSystem .default ⟨"main".toList⟩ =
      .error ⟨.circular [⟨"/main".toList⟩, ⟨"/right".toList⟩, ⟨"/main".toList⟩], 2,
        some ⟨"/right".toList⟩⟩ := by
    decide +kernel
  obtain ⟨paths, last, _, _, hpath, hlength, -⟩ := (include_verdicts _ _ _).2.1 _ h rfl
  exact ⟨_, h, rfl, paths, last, hpath, hlength⟩

end Script

end PadScript
