import Mathlib.Logic.Relation
import PadScript.Proofs.Compiling
import PadScript.Proofs.Playing

/-!
# The expansion of includes, file by file

A `Visit` is a file that the compiler is asked for: its path, the files that are open, and the
levels of files that may still be opened. A `Visit.Step` goes from an opened file to the file that
one of its directives leads to.

1. If a visit ends well, so does every visit that it makes (`Visit.ok_of_includes`).
2. A visit that is refused either finds its file too deep, open already or unreadable, and gives
   the fault no place; or the fault is at a line of a file that is opened on the way, and it has
   the number of that line and the canonical path of that file (`Visit.frames_eq_error`).
-/

namespace PadScript

/-! ## The place of a fault -/

theorem LocatedFault.place_of_unplaced {e : LocatedFault} (hline : e.line = 0)
    (hfile : e.file = none) (number : Nat) (origin : Option Path) :
    (e.orAtLine number).orInFile origin = e.fault.locate number origin := by
  obtain ⟨fault, line, file⟩ := e
  cases hline
  cases hfile
  rfl

theorem LocatedFault.place_of_placed {e : LocatedFault} {file : Path} (hline : e.line ≠ 0)
    (hfile : e.file = some file) (number : Nat) (origin : Option Path) :
    (e.orAtLine number).orInFile origin = e := by
  obtain ⟨fault, line, place⟩ := e
  cases hfile
  unfold LocatedFault.orAtLine LocatedFault.orInFile
  rw [if_neg hline]

@[simp] theorem LocatedFault.line_orInFile (e : LocatedFault) (origin : Option Path) :
    (e.orInFile origin).line = e.line := by
  unfold LocatedFault.orInFile
  split <;> rfl

@[simp] theorem LocatedFault.fault_orInFile (e : LocatedFault) (origin : Option Path) :
    (e.orInFile origin).fault = e.fault := by
  unfold LocatedFault.orInFile
  split <;> rfl

@[simp] theorem LocatedFault.fault_orAtLine (e : LocatedFault) (number : Nat) :
    (e.orAtLine number).fault = e.fault := by
  unfold LocatedFault.orAtLine
  split <;> rfl

theorem LocatedFault.line_orAtLine_ne_zero (e : LocatedFault) {number : Nat} (h : number ≠ 0) :
    (e.orAtLine number).line ≠ 0 := by
  unfold LocatedFault.orAtLine
  split
  · exact h
  · assumption

namespace Script

/-! ## Lines that are refused -/

/-- Why a line is refused by itself, when the file that it leads to is not to blame. -/
inductive LineFault (fs : FileSystem) (base : Option Path) (raw : Text) : Fault → Prop
  | input {body : Text} {clock : Millis} {fault : Fault} : Line.classify raw = .input body →
      compileLine body clock = .error fault → LineFault fs base raw fault
  | target {target : Text} {fault : Fault} : Line.classify raw = .directive target →
      Include.resolve fs base target = .error fault → LineFault fs base raw fault
  | overrun {target : Text} : Line.classify raw = .directive target →
      LineFault fs base raw (.clockOverflow none)

/-- A source is refused at one of its lines: the line itself is refused, or the file that it leads
to. -/
theorem compileSource_expander_eq_error {fs : FileSystem} {origin base : Option Path}
    {file : Path → Except LocatedFault (List Frame)} {source : Text} {e : LocatedFault}
    (h : compileSource origin (expander fs origin base file) source = .error e) :
    ∃ index raw, (Text.lines source)[index]? = some raw ∧
      ((∃ fault, LineFault fs base raw fault ∧ e = fault.locate (index + 1) origin) ∨
        ∃ target next e', Line.classify raw = .directive target ∧
          Include.resolve fs base target = .ok next ∧ file next = .error e' ∧
          e = (e'.orAtLine (index + 1)).orInFile origin) := by
  obtain ⟨index, raw, clock, hraw, hstep⟩ := compileSource_eq_error h
  refine ⟨index, raw, hraw, ?_⟩
  cases hline : Line.classify raw with
  | skip =>
    rw [stepLine_skip hline] at hstep
    cases hstep
  | directive target =>
    rw [stepLine_directive hline] at hstep
    rcases bind_eq_error_iff.mp hstep with hexpand | ⟨included, -, hsplice⟩
    · rcases expander_eq_error_iff.mp hexpand with ⟨fault, hfault, rfl⟩ |
        ⟨next, e', hnext, hfile, rfl⟩
      · exact .inl ⟨fault, .target hline hfault, rfl⟩
      · exact .inr ⟨target, next, e', rfl, hnext, hfile, rfl⟩
    · obtain ⟨fault, hfault, rfl⟩ := mapError_eq_error_iff.mp hsplice
      rw [splice_eq_error hfault]
      exact .inl ⟨_, .overrun hline, rfl⟩
  | input body =>
    rw [stepLine_input hline] at hstep
    rcases bind_eq_error_iff.mp hstep with hcompile | ⟨_, _, hstep⟩
    · obtain ⟨fault, hfault, rfl⟩ := mapError_eq_error_iff.mp hcompile
      exact .inl ⟨fault, .input hline hfault, rfl⟩
    · cases hstep

/-- A source is never refused without a line. -/
theorem compileSource_error_line_ne_zero {fs : FileSystem} {origin base : Option Path}
    {file : Path → Except LocatedFault (List Frame)} {source : Text} {e : LocatedFault}
    (h : compileSource origin (expander fs origin base file) source = .error e) :
    e.line ≠ 0 := by
  obtain ⟨index, raw, -, ⟨fault, -, rfl⟩ | ⟨target, next, e', -, -, -, rfl⟩⟩ :=
    compileSource_expander_eq_error h
  · exact Nat.succ_ne_zero index
  · rw [LocatedFault.line_orInFile]
    exact e'.line_orAtLine_ne_zero (Nat.succ_ne_zero index)

/-! ## Visits -/

/-- A directive of the file at `path` leads to `next`. -/
def Includes (fs : FileSystem) (path next : Path) : Prop :=
  ∃ canonical source raw target, fs.canonical path = .ok canonical ∧
    fs.readText canonical = .ok source ∧ raw ∈ Text.lines source ∧
    Line.classify raw = .directive target ∧ Include.resolve fs path.parent? target = .ok next

/-- A file that the compiler is asked for. -/
structure Visit where
  levels : Nat
  chain : IncludeChain
  path : Path

namespace Visit

/-- The visit of the file that is compiled. -/
def top (limit : Nat) (path : Path) : Visit := ⟨limit + 1, IncludeChain.empty, path⟩

/-- What the compiler makes of the file. -/
def frames (fs : FileSystem) (limit : Nat) (v : Visit) : Except LocatedFault (List Frame) :=
  compileFileFrames fs limit v.levels v.chain v.path

/-- The file is opened: it may be, and its text can be read. -/
structure Opens (fs : FileSystem) (v : Visit) (canonical : Path) (source : Text) : Prop where
  levels : v.levels ≠ 0
  place : fs.canonical v.path = .ok canonical
  fresh : v.chain.contains canonical = false
  text : fs.readText canonical = .ok source

theorem Opens.unique {fs : FileSystem} {v : Visit} {canonical canonical' : Path}
    {source source' : Text} (h : v.Opens fs canonical source)
    (h' : v.Opens fs canonical' source') : canonical = canonical' ∧ source = source' := by
  obtain rfl := Except.ok.inj (h.place.symm.trans h'.place)
  exact ⟨rfl, Except.ok.inj (h.text.symm.trans h'.text)⟩

/-- The visit that an opened file makes of the file at `next`. -/
def inner (v : Visit) (canonical next : Path) : Visit :=
  ⟨v.levels - 1, v.chain.extend canonical, next⟩

/-- From an opened file to the file that one of its directives leads to. -/
inductive Step (fs : FileSystem) (v : Visit) : Visit → Prop
  | directive {canonical next : Path} {source raw target : Text} : v.Opens fs canonical source →
      raw ∈ Text.lines source → Line.classify raw = .directive target →
      Include.resolve fs v.path.parent? target = .ok next → Step fs v (v.inner canonical next)

/-- Why a file is not opened. -/
inductive OpeningFault (fs : FileSystem) (limit : Nat) (v : Visit) : Fault → Prop
  | tooDeep : v.levels = 0 → OpeningFault fs limit v (.tooDeep limit v.path)
  | noPath {cause : FileFault} : v.levels ≠ 0 → fs.canonical v.path = .error cause →
      OpeningFault fs limit v (.unreadable v.path cause)
  | circular {canonical : Path} : v.levels ≠ 0 → fs.canonical v.path = .ok canonical →
      v.chain.contains canonical = true →
      OpeningFault fs limit v (.circular (v.chain.extend canonical).paths)
  | noText {canonical : Path} {cause : FileFault} : v.levels ≠ 0 →
      fs.canonical v.path = .ok canonical → fs.readText canonical = .error cause →
      OpeningFault fs limit v (.unreadable v.path cause)

/-- Why a line of an opened file is refused. -/
inductive Refuses (fs : FileSystem) (limit : Nat) (v : Visit) (raw : Text) : Fault → Prop
  | line {fault : Fault} : LineFault fs v.path.parent? raw fault → Refuses fs limit v raw fault
  | directive {target : Text} {w : Visit} {fault : Fault} :
      Line.classify raw = .directive target → Step fs v w → w.OpeningFault fs limit fault →
      Refuses fs limit v raw fault

theorem Step.includes {fs : FileSystem} {v w : Visit} (h : Step fs v w) :
    Includes fs v.path w.path := by
  cases h with
  | directive hopens hraw hline hnext =>
    exact ⟨_, _, _, _, hopens.place, hopens.text, hraw, hline, hnext⟩

theorem includes_of_reaches {fs : FileSystem} {v w : Visit}
    (h : Relation.ReflTransGen (Step fs) v w) :
    Relation.ReflTransGen (Includes fs) v.path w.path :=
  h.lift Visit.path fun _ _ => Step.includes

/-! ## What visits give -/

/-- An opened file is compiled from its text, with the visits that it makes. -/
theorem frames_of_opens {fs : FileSystem} {limit : Nat} {v : Visit} {canonical : Path}
    {source : Text} (h : v.Opens fs canonical source) :
    v.frames fs limit = compileSource (some canonical)
      (expander fs (some canonical) v.path.parent?
        fun next => (v.inner canonical next).frames fs limit) source := by
  obtain ⟨levels, chain, path⟩ := v
  obtain ⟨hlevels, hplace, hfresh, htext⟩ := h
  cases levels with
  | zero => exact absurd rfl hlevels
  | succ levels =>
    simp only at hplace hfresh
    rw [frames, compileFileFrames_succ, hplace]
    show (if chain.contains canonical then _ else _) = _
    rw [hfresh, htext]
    rfl

/-! ## Visits that end well -/

theorem frames_eq_ok_iff {fs : FileSystem} {limit : Nat} {v : Visit} {frames : List Frame} :
    v.frames fs limit = .ok frames ↔
      ∃ canonical source, v.Opens fs canonical source ∧
        compileSource (some canonical)
          (expander fs (some canonical) v.path.parent?
            fun next => (v.inner canonical next).frames fs limit) source = .ok frames := by
  obtain ⟨levels, chain, path⟩ := v
  cases levels with
  | zero =>
    constructor
    · intro h; cases h
    · rintro ⟨canonical, source, hopens, -⟩
      exact absurd rfl hopens.levels
  | succ levels =>
    rw [Visit.frames, compileFileFrames_succ_eq_ok_iff]
    constructor
    · rintro ⟨canonical, source, hcanonical, hfresh, htext, hsource⟩
      exact ⟨canonical, source, ⟨Nat.succ_ne_zero _, hcanonical, hfresh, htext⟩, hsource⟩
    · rintro ⟨canonical, source, hopens, hsource⟩
      exact ⟨canonical, source, hopens.place, hopens.fresh, hopens.text, hsource⟩

/-- A visit that ends well opens its file, and every visit that it makes ends well. -/
theorem ok_of_includes {fs : FileSystem} {limit : Nat} {v : Visit} {frames : List Frame}
    (h : v.frames fs limit = .ok frames) :
    ∃ canonical source, v.Opens fs canonical source ∧
      ∀ next, Includes fs v.path next →
        ∃ frames', (v.inner canonical next).frames fs limit = .ok frames' := by
  obtain ⟨canonical, source, hopens, hsource⟩ := frames_eq_ok_iff.mp h
  refine ⟨canonical, source, hopens, ?_⟩
  rintro next ⟨canonical', source', raw, target, hcanonical, htext, hraw, hline, hnext⟩
  obtain rfl : canonical = canonical' := Except.ok.inj (hopens.place.symm.trans hcanonical)
  obtain rfl : source = source' := Except.ok.inj (hopens.text.symm.trans htext)
  obtain ⟨played, stop, hrun, -⟩ := compileSource_eq_ok_iff.mp hsource
  obtain ⟨number, clock, result, hstep⟩ := stepLine_of_runLines_eq_ok hrun hraw
  rw [stepLine_directive hline] at hstep
  obtain ⟨included, hexpand, -⟩ := bind_eq_ok_iff.mp hstep
  obtain ⟨next', hnext', hfile⟩ := expander_eq_ok_iff.mp hexpand
  obtain rfl : next = next' := Except.ok.inj (hnext.symm.trans hnext')
  exact ⟨included, hfile⟩

/-! ## Visits that are refused -/

/-- A visit is refused before its file is opened, or inside the text of the file. -/
theorem frames_eq_error_cases {fs : FileSystem} {limit : Nat} {v : Visit} {e : LocatedFault}
    (h : v.frames fs limit = .error e) :
    (∃ fault, v.OpeningFault fs limit fault ∧ e = fault.locate 0 none) ∨
      ∃ canonical source, v.Opens fs canonical source ∧
        compileSource (some canonical)
          (expander fs (some canonical) v.path.parent?
            fun next => (v.inner canonical next).frames fs limit) source = .error e := by
  obtain ⟨levels, chain, path⟩ := v
  cases levels with
  | zero =>
    cases h
    exact .inl ⟨_, .tooDeep rfl, rfl⟩
  | succ levels =>
    have hlevels : levels + 1 ≠ 0 := Nat.succ_ne_zero levels
    rcases compileFileFrames_succ_eq_error_iff.mp h with ⟨cause, hcanonical, rfl⟩ |
      ⟨canonical, hcanonical, ⟨hopen, rfl⟩ | ⟨hfresh, ⟨cause, htext, rfl⟩ |
        ⟨source, htext, hsource⟩⟩⟩
    · exact .inl ⟨_, .noPath hlevels hcanonical, rfl⟩
    · exact .inl ⟨_, .circular hlevels hcanonical hopen, rfl⟩
    · exact .inl ⟨_, .noText hlevels hcanonical htext, rfl⟩
    · exact .inr ⟨canonical, source, ⟨hlevels, hcanonical, hfresh, htext⟩, hsource⟩

/-- **Where a fault is.** A refused visit has a fault without a place because its file is not
opened, or a fault at a line of a file that is opened on the way. -/
theorem frames_eq_error {fs : FileSystem} {limit : Nat} {v : Visit} {e : LocatedFault}
    (h : v.frames fs limit = .error e) :
    (v.OpeningFault fs limit e.fault ∧ e.line = 0 ∧ e.file = none) ∨
      ∃ w canonical source index raw, Relation.ReflTransGen (Step fs) v w ∧
        w.Opens fs canonical source ∧ (Text.lines source)[index]? = some raw ∧
        w.Refuses fs limit raw e.fault ∧ e.line = index + 1 ∧ e.file = some canonical := by
  -- the levels go down with every step
  induction hn : v.levels generalizing v e with
  | zero =>
    rcases frames_eq_error_cases h with ⟨fault, hfault, rfl⟩ | ⟨canonical, source, hopens, -⟩
    · exact .inl ⟨hfault, rfl, rfl⟩
    · exact absurd hn hopens.levels
  | succ levels ih =>
    rcases frames_eq_error_cases h with ⟨fault, hfault, rfl⟩ | ⟨canonical, source, hopens, hsource⟩
    · exact .inl ⟨hfault, rfl, rfl⟩
    right
    obtain ⟨index, raw, hraw, ⟨fault, hfault, rfl⟩ |
      ⟨target, next, e', hline, hnext, hfile, rfl⟩⟩ := compileSource_expander_eq_error hsource
    · exact ⟨v, canonical, source, index, raw, .refl, hopens, hraw, .line hfault, rfl, rfl⟩
    have hstep : Step fs v (v.inner canonical next) :=
      .directive hopens (List.mem_of_getElem? hraw) hline hnext
    have hlevels : (v.inner canonical next).levels = levels := by
      show v.levels - 1 = levels
      omega
    rcases ih hfile hlevels with ⟨hfault, hzero, hnone⟩ |
      ⟨w, file, text, inner, line, hreach, hw, hinner, hrefuses, hnumber, hplace⟩
    · rw [LocatedFault.place_of_unplaced hzero hnone]
      exact ⟨v, canonical, source, index, raw, .refl, hopens, hraw, .directive hline hstep hfault,
        rfl, rfl⟩
    · rw [LocatedFault.place_of_placed (by omega) hplace]
      exact ⟨w, file, text, inner, line, .head hstep hreach, hw, hinner, hrefuses, hnumber, hplace⟩

end Visit

end Script

end PadScript
