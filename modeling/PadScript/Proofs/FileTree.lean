import PadScript.FileTree
import PadScript.Proofs.Result
import PadScript.Proofs.Text

/-!
# Finitely many files

A file tree is a file system with finitely many files: whatever path is made canonical, if the
result can be read it is the path of one of the files that the tree holds (`hasOnly_files`).

A walk ends at a place that is `Settled`: every name on the way to it stands in a directory and is
no link. The path of such a place leads back to the place, without following a link
(`locate_pathOf`), so what is read there is what the tree holds there.
-/

namespace PadScript

/-- Whatever can be read at a canonical path is one of these files. -/
def FileSystem.HasOnly (fs : FileSystem) (files : List Path) : Prop :=
  ∀ path canonical content, fs.canonical path = .ok canonical → fs.read canonical = .ok content →
    ∃ file ∈ files, file.same canonical = true

namespace FileTree

variable {tree : FileTree} {here place : Location}

/-! ## Settled places -/

/-- A name stands in the directory at a location, and is no link. -/
structure Stands (tree : FileTree) (here : Location) (name : Text) : Prop where
  directory : tree.isDirectory here = true
  step : Path.isIdle name = false
  up : name ≠ ['.', '.']
  slash : '/' ∉ name
  length : (Utf8.encode name).length ≤ maxName
  entry : tree.find? (here ++ [name]) = some .directory ∨
    ∃ content, tree.find? (here ++ [name]) = some (.file content)

/-- Every name on the way from the root to a location stands where it is looked for. -/
def Settled (tree : FileTree) (place : Location) : Prop :=
  ∀ here name, here ++ [name] <+: place → tree.Stands here name

theorem settled_nil (tree : FileTree) : tree.Settled [] := by
  intro here name hstarts
  simp at hstarts

theorem Settled.dropLast (h : tree.Settled place) : tree.Settled place.dropLast :=
  fun here name hstarts => h here name (hstarts.trans (List.dropLast_prefix place))

theorem Settled.concat (h : tree.Settled here) {name : Text} (hname : tree.Stands here name) :
    tree.Settled (here ++ [name]) := by
  intro before other hstarts
  rcases List.prefix_concat_iff.mp hstarts with heq | hstarts
  · obtain ⟨rfl, hsingle⟩ := List.append_inj' heq rfl
    cases hsingle
    exact hname
  · exact h before other hstarts

/-! ## Where a walk ends -/

/-- Where a path starts is the root or the location it is seen from, and its pieces hold no
separator. -/
theorem settled_start {base : Location} (h : tree.Settled base) (path : Path) :
    tree.Settled (start base path).1 ∧ ∀ piece ∈ (start base path).2, '/' ∉ piece := by
  unfold start
  split
  · exact ⟨settled_nil tree, fun piece => Text.not_mem_of_mem_pieces⟩
  · exact ⟨h, fun piece => Text.not_mem_of_mem_pieces⟩

/-- What one piece of a path does: it stays, goes up, goes on behind a link, or goes down. -/
theorem walkWith_cons_eq_ok {follow : Location → List Text → Except FileFault Location}
    {piece : Text} {rest : List Text}
    (h : tree.walkWith .existing follow here (piece :: rest) = .ok place) (hslash : '/' ∉ piece) :
    tree.walkWith .existing follow here rest = .ok place ∨
      tree.walkWith .existing follow here.dropLast rest = .ok place ∨
      (∃ target, follow (start here target).1 ((start here target).2 ++ rest) = .ok place) ∨
      tree.Stands here piece ∧
        tree.walkWith .existing follow (here ++ [piece]) rest = .ok place := by
  rw [walkWith] at h
  simp only [reduceCtorEq, decide_false, Bool.false_and, Bool.false_eq_true, if_false] at h
  by_cases hdirectory : tree.isDirectory here = true
  · by_cases hidle : Path.isIdle piece = true
    · simp only [hdirectory, hidle, Bool.not_true, Bool.false_eq_true, if_false, if_true] at h
      exact .inl h
    by_cases hup : piece = ['.', '.']
    · simp only [hdirectory, hup, Bool.not_true, Bool.false_eq_true, if_false, if_true] at h
      exact .inr (.inl h)
    by_cases hlength : maxName < (Utf8.encode piece).length
    · simp [hdirectory, hidle, hup, hlength] at h
    simp only [hdirectory, hidle, hup, hlength, Bool.not_true, Bool.false_eq_true, if_false] at h
    have hstands := Stands.mk hdirectory (Bool.eq_false_iff.mpr hidle) hup hslash (by omega)
    cases hfind : tree.find? (here ++ [piece]) with
    | none => simp [hfind] at h
    | some entry =>
      rw [hfind] at h
      cases entry with
      | link target => exact .inr (.inr (.inl ⟨target, h⟩))
      | directory => exact .inr (.inr (.inr ⟨hstands (.inl hfind), h⟩))
      | file content => exact .inr (.inr (.inr ⟨hstands (.inr ⟨content, hfind⟩), h⟩))
  · simp [hdirectory] at h

theorem settled_of_walkWith {follow : Location → List Text → Except FileFault Location}
    (hfollow : ∀ base pieces place, tree.Settled base → (∀ piece ∈ pieces, '/' ∉ piece) →
      follow base pieces = .ok place → tree.Settled place)
    {pieces : List Text} (hhere : tree.Settled here) (hpieces : ∀ piece ∈ pieces, '/' ∉ piece)
    (h : tree.walkWith .existing follow here pieces = .ok place) : tree.Settled place := by
  induction pieces generalizing here with
  | nil =>
    cases h
    exact hhere
  | cons piece rest ih =>
    have hpiece := hpieces piece List.mem_cons_self
    have hrest : ∀ other ∈ rest, '/' ∉ other :=
      fun other hother => hpieces other (List.mem_cons_of_mem _ hother)
    rcases walkWith_cons_eq_ok h hpiece with h | h | ⟨target, h⟩ | ⟨hstands, h⟩
    · exact ih hhere hrest h
    · exact ih hhere.dropLast hrest h
    · obtain ⟨hbase, htarget⟩ := settled_start hhere target
      refine hfollow _ _ _ hbase (fun other hother => ?_) h
      rcases List.mem_append.mp hother with hother | hother
      · exact htarget other hother
      · exact hrest other hother
    · exact ih (hhere.concat hstands) hrest h

theorem settled_of_walk {links : Nat} {pieces : List Text} (hhere : tree.Settled here)
    (hpieces : ∀ piece ∈ pieces, '/' ∉ piece)
    (h : tree.walk .existing links here pieces = .ok place) : tree.Settled place := by
  induction links generalizing here pieces place with
  | zero => exact settled_of_walkWith (fun _ _ _ _ _ hloop => by cases hloop) hhere hpieces h
  | succ links ih =>
    exact settled_of_walkWith (fun _ _ _ hbase hnames => ih hbase hnames) hhere hpieces h

theorem settled_of_locate (hhome : tree.Settled tree.home) {path : Path}
    (h : tree.locate .existing path = .ok place) : tree.Settled place := by
  obtain ⟨_, -, hwalk⟩ := bind_eq_ok_iff.mp h
  obtain ⟨hbase, hpieces⟩ := settled_start hhome path
  exact settled_of_walk hbase hpieces hwalk

/-! ## Canonical paths -/

/-- The names of a settled place lead to it. -/
theorem walkWith_of_settled {follow : Location → List Text → Except FileFault Location}
    {names : List Text} (h : tree.Settled (here ++ names)) :
    tree.walkWith .existing follow here names = .ok (here ++ names) := by
  induction names generalizing here with
  | nil => rw [walkWith, List.append_nil]
  | cons name names ih =>
    have hsplit : here ++ name :: names = here ++ [name] ++ names := by simp
    have hname := h here name ⟨names, hsplit.symm⟩
    have hlength : ¬ maxName < (Utf8.encode name).length := by
      have := hname.length
      omega
    rw [hsplit] at h ⊢
    rw [walkWith]
    simp only [reduceCtorEq, decide_false, Bool.false_and, Bool.false_eq_true, if_false,
      hname.directory, hname.step, hname.up, hlength, Bool.not_true]
    rcases hname.entry with hfind | ⟨content, hfind⟩
    · simp only [hfind]
      exact ih h
    · simp only [hfind]
      exact ih h

theorem locate_pathOf (h : tree.Settled place) (hname : checkName (pathOf place) = .ok ()) :
    tree.locate .existing (pathOf place) = .ok place := by
  have hwalk : ∀ links, tree.walk .existing links [] (Text.pieces '/' (Text.join ['/'] place)) =
      .ok place := by
    intro links
    by_cases hne : place = []
    · subst hne
      cases links <;> rfl
    · have hslash : ∀ name ∈ place, '/' ∉ name := by
        intro name hmem
        obtain ⟨before, after, hplace⟩ := List.append_of_mem hmem
        exact (h before name ⟨after, by simp [hplace]⟩).slash
      rw [Text.pieces_join hne hslash]
      cases links with
      | zero => exact walkWith_of_settled h
      | succ links => exact walkWith_of_settled h
  unfold locate
  rw [hname]
  exact hwalk maxLinks

theorem read_eq_ok {path : Path} {content : Bytes} (h : tree.read path = .ok content) :
    checkName path = .ok () ∧ ∃ place, tree.locate .existing path = .ok place ∧
      tree.find? place = some (.file content) := by
  obtain ⟨_, hcheck, h⟩ := bind_eq_ok_iff.mp h
  obtain ⟨_, hname, -⟩ := bind_eq_ok_iff.mp hcheck
  obtain ⟨place, hplace, h⟩ := bind_eq_ok_iff.mp h
  refine ⟨hname, place, hplace, ?_⟩
  split at h
  · rename_i found hfind
    cases h
    exact hfind
  · cases h
  · cases h

theorem mem_files_of_find? {content : Bytes} (h : tree.find? place = some (.file content)) :
    (place, content) ∈ tree.files := by
  unfold find? at h
  split at h
  · cases h
  · obtain ⟨⟨found, entry⟩, hfind, rfl⟩ := Option.map_eq_some_iff.mp h
    have hplace := List.find?_some hfind
    have hmem := List.mem_of_find?_eq_some hfind
    simp only [decide_eq_true_eq] at hplace
    subst hplace
    exact List.mem_filterMap.mpr ⟨_, hmem, rfl⟩

/-- **A tree has only the files in it.** Whatever can be read at a canonical path is the file that
the tree holds there, if the home directory is in the tree. -/
theorem hasOnly_files (hhome : tree.Settled tree.home) :
    tree.fileSystem.HasOnly (tree.files.map fun file => pathOf file.1) := by
  intro path canonical content hcanonical hread
  obtain ⟨place, hplace, hpath⟩ := bind_eq_ok_iff.mp hcanonical
  obtain rfl : pathOf place = canonical := Except.ok.inj hpath
  have hsettled := settled_of_locate hhome hplace
  obtain ⟨hname, found, hfound, hfile⟩ := read_eq_ok hread
  rw [locate_pathOf hsettled hname] at hfound
  obtain rfl := Except.ok.inj hfound
  refine ⟨pathOf place, ?_, by simp [Path.same]⟩
  exact List.mem_map.mpr ⟨(place, content), mem_files_of_find? hfile, rfl⟩

end FileTree

end PadScript
