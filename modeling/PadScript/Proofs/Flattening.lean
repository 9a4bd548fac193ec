import PadScript.FileTree
import PadScript.Proofs.Expansion
import PadScript.Proofs.Line
import PadScript.Proofs.Performance

/-!
# Includes are flattened

Compiling a file means compiling the input lines of the file and of the files it includes, in the
order in which they are expanded.

1. `flattenFile` gathers these lines, depth first. It gives nothing where a directive leads to no
   file, to a file that cannot be read or is open already, or too deep; where every directive can
   be followed, it gives the lines (`Visit.flattens_of_expandable`).
2. A file compiles exactly if its lines can be gathered and play from zero on
   (`compileFileFrames_eq_ok_iff`): every stage of the compiler, on its own clock, agrees with one
   run over the gathered lines.
3. A gathered line is read as itself when it stands on a line of its own, so the gathered lines are
   a script without directives that compiles to the same timeline.
-/

namespace PadScript.Script

/-! ## Gathering input lines -/

/-- The input lines that a line of a script stands for: `follow` gives those behind a directive. -/
def lineBodies (follow : Text → Option (List Text)) (raw : Text) : Option (List Text) :=
  match Line.classify raw with
  | .skip => some []
  | .directive target => follow target
  | .input body => some [body]

/-- The input lines that lines of a script stand for. -/
def flattenLines (follow : Text → Option (List Text)) : List Text → Option (List Text)
  | [] => some []
  | raw :: rest => do
    let bodies ← lineBodies follow raw
    let more ← flattenLines follow rest
    return bodies ++ more

/-- Follows a directive: `base` is the directory of relative paths, and `file` gives the input
lines of the file that the directive leads to. -/
def follow (fs : FileSystem) (base : Option Path) (file : Path → Option (List Text))
    (target : Text) : Option (List Text) := do
  let path ← (Include.resolve fs base target).toOption
  file path

/-- The input lines of a file and of the files it includes, depth first; `levels` counts the levels
of files that may still be opened, this one included. -/
def flattenFile (fs : FileSystem) : Nat → IncludeChain → Path → Option (List Text)
  | 0, _, _ => none
  | levels + 1, chain, path => do
    let canonical ← (fs.canonical path).toOption
    if chain.contains canonical then none
    let source ← (fs.readText canonical).toOption
    flattenLines (follow fs path.parent? (flattenFile fs levels (chain.extend canonical)))
      (Text.lines source)

/-- The input lines of a file, when every directive that is met can be followed. A file that cannot
be read meets no directive and has no lines. -/
def flatten (fs : FileSystem) (options : Options) (path : Path) : Option (List Text) :=
  match fs.canonical path >>= fs.readText with
  | .error _ => some []
  | .ok _ => flattenFile fs (options.maxDepth + 1) IncludeChain.empty path

theorem lineBodies_input {raw body : Text} (h : Line.classify raw = .input body)
    (follow : Text → Option (List Text)) : lineBodies follow raw = some [body] := by
  unfold lineBodies; rw [h]

theorem flattenLines_cons_eq_some_iff {follow : Text → Option (List Text)} {raw : Text}
    {rest bodies : List Text} :
    flattenLines follow (raw :: rest) = some bodies ↔
      ∃ first more, lineBodies follow raw = some first ∧ flattenLines follow rest = some more ∧
        bodies = first ++ more := by
  rw [flattenLines]
  simp only [bind, pure, Option.bind_eq_some_iff, Option.some_inj]
  constructor
  · rintro ⟨first, hfirst, more, hmore, rfl⟩
    exact ⟨first, more, hfirst, hmore, rfl⟩
  · rintro ⟨first, more, hfirst, hmore, rfl⟩
    exact ⟨first, hfirst, more, hmore, rfl⟩

theorem follow_eq_some_iff {fs : FileSystem} {base : Option Path}
    {file : Path → Option (List Text)} {target : Text} {bodies : List Text} :
    follow fs base file target = some bodies ↔
      ∃ next, Include.resolve fs base target = .ok next ∧ file next = some bodies := by
  unfold follow
  simp only [bind, Option.bind_eq_some_iff, toOption_eq_some_iff]

theorem flattenFile_succ_eq_some_iff {fs : FileSystem} {levels : Nat} {chain : IncludeChain}
    {path : Path} {bodies : List Text} :
    flattenFile fs (levels + 1) chain path = some bodies ↔
      ∃ canonical source, fs.canonical path = .ok canonical ∧
        chain.contains canonical = false ∧ fs.readText canonical = .ok source ∧
        flattenLines (follow fs path.parent? (flattenFile fs levels (chain.extend canonical)))
          (Text.lines source) = some bodies := by
  rw [flattenFile]
  simp only [bind, Option.bind_eq_some_iff, toOption_eq_some_iff]
  refine exists_congr fun canonical => ?_
  cases chain.contains canonical with
  | true => simp
  | false => simp [Option.bind_eq_some_iff, toOption_eq_some_iff]

/-! ## Files whose directives can be followed -/

theorem exists_lineBodies_iff {follow : Text → Option (List Text)} {raw : Text} :
    (∃ bodies, lineBodies follow raw = some bodies) ↔
      ∀ target, Line.classify raw = .directive target → ∃ bodies, follow target = some bodies := by
  unfold lineBodies
  cases Line.classify raw with
  | skip => exact ⟨fun _ _ => Line.noConfusion, fun _ => ⟨[], rfl⟩⟩
  | input body => exact ⟨fun _ _ => Line.noConfusion, fun _ => ⟨[body], rfl⟩⟩
  | directive target =>
    constructor
    · intro h other hother
      cases hother
      exact h
    · intro h
      exact h target rfl

theorem exists_flattenLines_iff {follow : Text → Option (List Text)} {raws : List Text} :
    (∃ bodies, flattenLines follow raws = some bodies) ↔
      ∀ raw ∈ raws, ∃ bodies, lineBodies follow raw = some bodies := by
  induction raws with
  | nil => exact ⟨fun _ raw h => absurd h List.not_mem_nil, fun _ => ⟨[], rfl⟩⟩
  | cons raw rest ih =>
    rw [List.forall_mem_cons, ← ih]
    constructor
    · rintro ⟨bodies, h⟩
      obtain ⟨first, more, hfirst, hmore, -⟩ := flattenLines_cons_eq_some_iff.mp h
      exact ⟨⟨first, hfirst⟩, more, hmore⟩
    · rintro ⟨⟨first, hfirst⟩, more, hmore⟩
      exact ⟨_, flattenLines_cons_eq_some_iff.mpr ⟨first, more, hfirst, hmore, rfl⟩⟩

namespace Visit

/-- Every directive that is met from the visit on leads to a file, and the file can be opened: it
can be read, is not open already and is not too deep. -/
def Expandable (fs : FileSystem) (v : Visit) : Prop :=
  ∀ w canonical source, Relation.ReflTransGen (Step fs) v w → w.Opens fs canonical source →
    ∀ raw ∈ Text.lines source, ∀ target, Line.classify raw = .directive target →
      ∃ next canonical' source', Include.resolve fs w.path.parent? target = .ok next ∧
        (w.inner canonical next).Opens fs canonical' source'

/-- The input lines of the file can be gathered. -/
def Flattens (fs : FileSystem) (v : Visit) : Prop :=
  ∃ bodies, flattenFile fs v.levels v.chain v.path = some bodies

variable {fs : FileSystem} {v w : Visit} {canonical : Path} {source : Text}

theorem flattens_iff :
    v.Flattens fs ↔ ∃ canonical source, v.Opens fs canonical source ∧
      ∀ raw ∈ Text.lines source, ∀ target, Line.classify raw = .directive target →
        ∃ next, Include.resolve fs v.path.parent? target = .ok next ∧
          (v.inner canonical next).Flattens fs := by
  obtain ⟨levels, chain, path⟩ := v
  cases levels with
  | zero =>
    constructor
    · rintro ⟨bodies, h⟩; cases h
    · rintro ⟨canonical, source, hopens, -⟩
      exact absurd rfl hopens.levels
  | succ levels =>
    constructor
    · rintro ⟨bodies, h⟩
      obtain ⟨canonical, source, hplace, hfresh, htext, hlines⟩ :=
        flattenFile_succ_eq_some_iff.mp h
      refine ⟨canonical, source, ⟨Nat.succ_ne_zero _, hplace, hfresh, htext⟩, ?_⟩
      intro raw hraw target hline
      have hbodies := exists_flattenLines_iff.mp ⟨bodies, hlines⟩ raw hraw
      obtain ⟨behind, hbehind⟩ := exists_lineBodies_iff.mp hbodies target hline
      obtain ⟨next, hnext, hfile⟩ := follow_eq_some_iff.mp hbehind
      exact ⟨next, hnext, behind, hfile⟩
    · rintro ⟨canonical, source, hopens, hlines⟩
      have hflat : ∃ bodies, flattenLines (follow fs path.parent?
          (flattenFile fs levels (chain.extend canonical))) (Text.lines source) = some bodies := by
        refine exists_flattenLines_iff.mpr fun raw hraw => exists_lineBodies_iff.mpr ?_
        intro target hline
        obtain ⟨next, hnext, behind, hfile⟩ := hlines raw hraw target hline
        exact ⟨behind, follow_eq_some_iff.mpr ⟨next, hnext, hfile⟩⟩
      obtain ⟨bodies, hbodies⟩ := hflat
      exact ⟨bodies, flattenFile_succ_eq_some_iff.mpr
        ⟨canonical, source, hopens.place, hopens.fresh, hopens.text, hbodies⟩⟩

theorem Expandable.step (h : v.Expandable fs) (hstep : Step fs v w) : w.Expandable fs :=
  fun u canonical source hreach => h u canonical source (hreach.head hstep)

theorem flattens_of_expandable (h : v.Expandable fs) (hopens : v.Opens fs canonical source) :
    v.Flattens fs := by
  induction hn : v.levels generalizing v canonical source with
  | zero => exact absurd hn hopens.levels
  | succ levels ih =>
    refine flattens_iff.mpr ⟨canonical, source, hopens, fun raw hraw target hline => ?_⟩
    obtain ⟨next, canonical', source', hnext, hinner⟩ :=
      h v canonical source .refl hopens raw hraw target hline
    refine ⟨next, hnext, ih (h.step (.directive hopens hraw hline hnext)) hinner ?_⟩
    show v.levels - 1 = levels
    omega

theorem Flattens.step (h : v.Flattens fs) (hstep : Step fs v w) : w.Flattens fs := by
  obtain ⟨canonical, source, hopens, hlines⟩ := flattens_iff.mp h
  cases hstep with
  | directive hopens' hraw hline hnext =>
    obtain ⟨rfl, rfl⟩ := hopens.unique hopens'
    obtain ⟨next, hnext', hflat⟩ := hlines _ hraw _ hline
    obtain rfl := Except.ok.inj (hnext.symm.trans hnext')
    exact hflat

theorem Flattens.reaches (h : v.Flattens fs) (hreach : Relation.ReflTransGen (Step fs) v w) :
    w.Flattens fs := by
  induction hreach with
  | refl => exact h
  | tail _ hstep ih => exact ih.step hstep

theorem Flattens.expandable (h : v.Flattens fs) : v.Expandable fs := by
  intro w canonical source hreach hopens raw hraw target hline
  obtain ⟨canonical', source', hopens', hlines⟩ := flattens_iff.mp (h.reaches hreach)
  obtain ⟨rfl, rfl⟩ := hopens.unique hopens'
  obtain ⟨next, hnext, hflat⟩ := hlines raw hraw target hline
  obtain ⟨inner, text, hinner, -⟩ := flattens_iff.mp hflat
  exact ⟨next, inner, text, hnext, hinner⟩

end Visit

theorem exists_flatten_of_expandable {fs : FileSystem} {options : Options} {path : Path}
    (h : (Visit.top options.maxDepth path).Expandable fs) :
    ∃ bodies, flatten fs options path = some bodies := by
  unfold flatten
  split
  · exact ⟨[], rfl⟩
  · rename_i source hread
    obtain ⟨canonical, hplace, htext⟩ := bind_eq_ok_iff.mp hread
    exact Visit.flattens_of_expandable h ⟨Nat.succ_ne_zero _, hplace, rfl, htext⟩

/-! ## Compiling gathered lines -/

/-- Expanding directives to frames agrees with following them to input lines. -/
def Agrees (expand : Expander) (follow : Text → Option (List Text)) : Prop :=
  ∀ number target frames, expand number target = .ok frames ↔
    ∃ bodies, follow target = some bodies ∧ Compiles bodies frames

section Agreement

variable {origin : Option Path} {expand : Expander} {follow : Text → Option (List Text)}

/-- What a line sends is what the input lines it stands for send. -/
theorem stepLine_eq_ok_iff (hx : Agrees expand follow) {number : Nat} {raw : Text}
    {clock stop : Millis} {frames : List Frame} :
    stepLine origin expand number raw clock = .ok (frames, stop) ↔
      ∃ bodies, lineBodies follow raw = some bodies ∧ Plays clock bodies frames stop := by
  unfold lineBodies
  cases hline : Line.classify raw with
  | skip =>
    rw [stepLine_skip hline, Except.ok.injEq, Prod.mk.injEq]
    constructor
    · rintro ⟨rfl, rfl⟩; exact ⟨[], rfl, .done⟩
    · rintro ⟨bodies, hbodies, hplays⟩
      cases hbodies
      obtain ⟨rfl, rfl⟩ := plays_nil_iff.mp hplays
      exact ⟨rfl, rfl⟩
  | directive target =>
    rw [stepLine_directive hline, bind_eq_ok_iff]
    constructor
    · rintro ⟨included, hexpand, hsplice⟩
      obtain ⟨bodies, hbodies, played, ended, hplays, rfl⟩ := (hx _ _ _).mp hexpand
      rw [mapError_eq_ok_iff, splice_close_eq_ok_iff hplays] at hsplice
      exact ⟨bodies, hbodies, hsplice⟩
    · rintro ⟨bodies, hbodies, hplays⟩
      -- the included file runs on a clock of its own, which starts at zero
      obtain ⟨played, ended, hzero⟩ :=
        hplays.earlier (show (0 : Millis).toNat ≤ clock.toNat from Nat.zero_le _)
      refine ⟨close played ended, (hx _ _ _).mpr ⟨bodies, hbodies, played, ended, hzero, rfl⟩, ?_⟩
      rwa [mapError_eq_ok_iff, splice_close_eq_ok_iff hzero]
  | input body =>
    rw [stepLine_input hline, bind_eq_ok_iff]
    constructor
    · rintro ⟨⟨frame, next⟩, hcompile, hresult⟩
      cases hresult
      exact ⟨[body], rfl, .line (mapError_eq_ok_iff.mp hcompile) .done⟩
    · rintro ⟨bodies, hbodies, hplays⟩
      cases hbodies
      obtain ⟨frame, next, more, hcompile, hdone, rfl⟩ := plays_cons_iff.mp hplays
      obtain ⟨rfl, rfl⟩ := plays_nil_iff.mp hdone
      exact ⟨(frame, stop), mapError_eq_ok_iff.mpr hcompile, rfl⟩

theorem runLines_eq_ok_iff (hx : Agrees expand follow) {number : Nat} {raws : List Text}
    {clock stop : Millis} {frames : List Frame} :
    runLines origin expand number raws clock = .ok (frames, stop) ↔
      ∃ bodies, flattenLines follow raws = some bodies ∧ Plays clock bodies frames stop := by
  induction raws generalizing number clock frames with
  | nil =>
    constructor
    · intro h; cases h; exact ⟨[], rfl, .done⟩
    · rintro ⟨bodies, hbodies, hplays⟩
      cases hbodies
      obtain ⟨rfl, rfl⟩ := plays_nil_iff.mp hplays
      rfl
  | cons raw rest ih =>
    rw [runLines_cons_eq_ok_iff]
    constructor
    · rintro ⟨before, middle, after, hstep, hrest, rfl⟩
      obtain ⟨first, hfirst, hbefore⟩ := (stepLine_eq_ok_iff hx).mp hstep
      obtain ⟨more, hmore, hafter⟩ := ih.mp hrest
      exact ⟨first ++ more, flattenLines_cons_eq_some_iff.mpr ⟨first, more, hfirst, hmore, rfl⟩,
        plays_append_iff.mpr ⟨before, middle, after, hbefore, hafter, rfl⟩⟩
    · rintro ⟨bodies, hbodies, hplays⟩
      obtain ⟨first, more, hfirst, hmore, rfl⟩ := flattenLines_cons_eq_some_iff.mp hbodies
      obtain ⟨before, middle, after, hbefore, hafter, rfl⟩ := plays_append_iff.mp hplays
      exact ⟨before, middle, after, (stepLine_eq_ok_iff hx).mpr ⟨first, hfirst, hbefore⟩,
        ih.mpr ⟨more, hmore, hafter⟩, rfl⟩

theorem compileSource_eq_ok_iff_flattenLines (hx : Agrees expand follow) {source : Text}
    {frames : List Frame} :
    compileSource origin expand source = .ok frames ↔
      ∃ bodies, flattenLines follow (Text.lines source) = some bodies ∧
        Compiles bodies frames := by
  rw [compileSource_eq_ok_iff]
  constructor
  · rintro ⟨played, stop, hrun, rfl⟩
    obtain ⟨bodies, hbodies, hplays⟩ := (runLines_eq_ok_iff hx).mp hrun
    exact ⟨bodies, hbodies, played, stop, hplays, rfl⟩
  · rintro ⟨bodies, hbodies, played, stop, hplays, rfl⟩
    exact ⟨played, stop, (runLines_eq_ok_iff hx).mpr ⟨bodies, hbodies, hplays⟩, rfl⟩

end Agreement

theorem agrees_expander {fs : FileSystem} {origin base : Option Path}
    {file : Path → Except LocatedFault (List Frame)} {flat : Path → Option (List Text)}
    (h : ∀ path frames, file path = .ok frames ↔
      ∃ bodies, flat path = some bodies ∧ Compiles bodies frames) :
    Agrees (expander fs origin base file) (follow fs base flat) := by
  intro number target frames
  rw [expander_eq_ok_iff]
  constructor
  · rintro ⟨next, hnext, hfile⟩
    obtain ⟨bodies, hbodies, hcompiles⟩ := (h next frames).mp hfile
    exact ⟨bodies, follow_eq_some_iff.mpr ⟨next, hnext, hbodies⟩, hcompiles⟩
  · rintro ⟨bodies, hbodies, hcompiles⟩
    obtain ⟨next, hnext, hflat⟩ := follow_eq_some_iff.mp hbodies
    exact ⟨next, hnext, (h next frames).mpr ⟨bodies, hflat, hcompiles⟩⟩

/-- **Files compile as their gathered lines.** -/
theorem compileFileFrames_eq_ok_iff {fs : FileSystem} {limit levels : Nat} {chain : IncludeChain}
    {path : Path} {frames : List Frame} :
    compileFileFrames fs limit levels chain path = .ok frames ↔
      ∃ bodies, flattenFile fs levels chain path = some bodies ∧ Compiles bodies frames := by
  induction levels generalizing chain path frames with
  | zero =>
    constructor
    · intro h; cases h
    · rintro ⟨_, h, _⟩; cases h
  | succ levels ih =>
    have hx : ∀ canonical, Agrees
        (expander fs (some canonical) path.parent?
          (compileFileFrames fs limit levels (chain.extend canonical)))
        (follow fs path.parent? (flattenFile fs levels (chain.extend canonical))) :=
      fun canonical => agrees_expander fun _ _ => ih
    simp only [compileFileFrames_succ_eq_ok_iff, flattenFile_succ_eq_some_iff,
      compileSource_eq_ok_iff_flattenLines (hx _)]
    constructor
    · rintro ⟨canonical, source, hcanonical, hfresh, hsource, bodies, hbodies, hcompiles⟩
      exact ⟨bodies, ⟨canonical, source, hcanonical, hfresh, hsource, hbodies⟩, hcompiles⟩
    · rintro ⟨bodies, ⟨canonical, source, hcanonical, hfresh, hsource, hbodies⟩, hcompiles⟩
      exact ⟨canonical, source, hcanonical, hfresh, hsource, bodies, hbodies, hcompiles⟩

/-! ## Gathered lines as a script -/

/-- An input line as it is gathered: it fits on a line and is read there as itself. -/
structure IsBody (body : Text) : Prop where
  isLine : Text.IsLine body
  classify : Line.classify body = .input body

theorem isBody_of_mem_lines {source raw body : Text} (hraw : raw ∈ Text.lines source)
    (h : Line.classify raw = .input body) : IsBody body :=
  ⟨Line.isLine_body hraw h, Line.classify_body h⟩

theorem isBody_of_mem_flattenLines {follow : Text → Option (List Text)}
    (hfollow : ∀ target bodies, follow target = some bodies → ∀ body ∈ bodies, IsBody body)
    {raws : List Text} (hraws : ∀ raw ∈ raws, ∀ body, Line.classify raw = .input body → IsBody body)
    {bodies : List Text} (h : flattenLines follow raws = some bodies) :
    ∀ body ∈ bodies, IsBody body := by
  induction raws generalizing bodies with
  | nil =>
    cases h
    exact fun _ hbody => absurd hbody List.not_mem_nil
  | cons raw rest ih =>
    obtain ⟨first, more, hfirst, hmore, rfl⟩ := flattenLines_cons_eq_some_iff.mp h
    intro body hbody
    rcases List.mem_append.mp hbody with hbody | hbody
    · unfold lineBodies at hfirst
      cases hline : Line.classify raw with
      | skip =>
        rw [hline] at hfirst
        cases hfirst
        exact absurd hbody List.not_mem_nil
      | directive target =>
        rw [hline] at hfirst
        exact hfollow target first hfirst body hbody
      | input own =>
        rw [hline] at hfirst
        cases hfirst
        rw [List.mem_singleton.mp hbody]
        exact hraws raw List.mem_cons_self own hline
    · exact ih (fun raw hraw => hraws raw (List.mem_cons_of_mem _ hraw)) hmore body hbody

theorem isBody_of_mem_flattenFile {fs : FileSystem} {levels : Nat} {chain : IncludeChain}
    {path : Path} {bodies : List Text} (h : flattenFile fs levels chain path = some bodies) :
    ∀ body ∈ bodies, IsBody body := by
  induction levels generalizing chain path bodies with
  | zero => cases h
  | succ levels ih =>
    obtain ⟨canonical, source, -, -, -, hlines⟩ := flattenFile_succ_eq_some_iff.mp h
    refine isBody_of_mem_flattenLines ?_ (fun raw hraw body => isBody_of_mem_lines hraw) hlines
    intro target behind hbehind
    obtain ⟨next, -, hnext⟩ := follow_eq_some_iff.mp hbehind
    exact ih hnext

theorem flattenLines_of_isBody (follow : Text → Option (List Text)) {bodies : List Text}
    (h : ∀ body ∈ bodies, IsBody body) : flattenLines follow bodies = some bodies := by
  induction bodies with
  | nil => rfl
  | cons body bodies ih =>
    refine flattenLines_cons_eq_some_iff.mpr ⟨[body], bodies, ?_, ?_, rfl⟩
    · exact lineBodies_input (h body List.mem_cons_self).classify follow
    · exact ih fun other hother => h other (List.mem_cons_of_mem _ hother)

/-- A source text with these lines compiles to what the lines send. -/
theorem compile_eq_ok_iff_of_lines {fs : FileSystem} {options : Options} {source : Text}
    {bodies : List Text} (hlines : Text.lines source = bodies)
    (h : ∀ body ∈ bodies, IsBody body) {t : Timeline} :
    compile fs options source = .ok t ↔ Compiles bodies t.frames := by
  rw [compile_eq_ok_iff, compileSource_eq_ok_iff_flattenLines
    (agrees_expander fun _ _ => compileFileFrames_eq_ok_iff), hlines, flattenLines_of_isBody _ h]
  simp only [Option.some_inj, exists_eq_left']

/-- The script with these lines compiles to what the lines send. -/
theorem compile_join_eq_ok_iff {fs : FileSystem} {options : Options} {bodies : List Text}
    (h : ∀ body ∈ bodies, IsBody body) {t : Timeline} :
    compile fs options (Text.join ['\n'] bodies) = .ok t ↔ Compiles bodies t.frames :=
  compile_eq_ok_iff_of_lines (Text.lines_join fun body hbody => (h body hbody).isLine) h

theorem not_compiles_nil (t : Timeline) : ¬ Compiles [] t.frames := by
  rintro ⟨played, stop, hplays, hframes⟩
  obtain ⟨rfl, -⟩ := plays_nil_iff.mp hplays
  exact t.ne_nil hframes

theorem isBody_of_mem_flatten {fs : FileSystem} {options : Options} {path : Path}
    {bodies : List Text} (h : flatten fs options path = some bodies) :
    ∀ body ∈ bodies, IsBody body := by
  unfold flatten at h
  split at h
  · cases h
    exact fun _ hbody => absurd hbody List.not_mem_nil
  · exact isBody_of_mem_flattenFile h

theorem compileFile_eq_ok_iff_compiles {fs : FileSystem} {options : Options} {path : Path}
    {bodies : List Text} (h : flatten fs options path = some bodies) {t : Timeline} :
    compileFile fs options path = .ok t ↔ Compiles bodies t.frames := by
  rw [compileFile_eq_ok_iff, compileFileFrames_eq_ok_iff]
  unfold flatten at h
  split at h
  · rename_i cause hopen
    cases h
    constructor
    · rintro ⟨_, hflat, -⟩
      obtain ⟨canonical, source, hcanonical, -, hsource, -⟩ := flattenFile_succ_eq_some_iff.mp hflat
      have hread : fs.canonical path >>= fs.readText = .ok source :=
        bind_eq_ok_iff.mpr ⟨canonical, hcanonical, hsource⟩
      rw [hread] at hopen
      cases hopen
    · exact fun hcompiles => absurd hcompiles (not_compiles_nil t)
  · rw [h]
    simp only [Option.some_inj, exists_eq_left']

/-- **Includes are flattened.** If every directive that is met can be followed, a file and the
script of its gathered lines compile to the same timeline, which sends each gathered line at the
sum of the durations before it and rests once, at the end. A line that stands for no input line,
such as a directive to a file without any, sends nothing and takes no time. -/
theorem compileFile_iff_compile_flatten {fs : FileSystem} {options : Options} {path : Path}
    (h : (Visit.top options.maxDepth path).Expandable fs) :
    ∃ bodies, flatten fs options path = some bodies ∧
      (∀ t, compileFile fs options path = .ok t ↔
        compile fs .default (Text.join ['\n'] bodies) = .ok t) ∧
      (∀ t, compileFile fs options path = .ok t ↔
        ∃ inputs, Reads bodies inputs ∧ Performs inputs t.frames) ∧
      ∀ origin base levels chain number raw clock,
        lineBodies (follow fs base (flattenFile fs levels chain)) raw = some [] →
          stepLine origin (expander fs origin base
            (compileFileFrames fs options.maxDepth levels chain)) number raw clock =
              .ok ([], clock) := by
  obtain ⟨bodies, hbodies⟩ := exists_flatten_of_expandable h
  refine ⟨bodies, hbodies, fun t => ?_, fun t => ?_, ?_⟩
  · rw [compileFile_eq_ok_iff_compiles hbodies,
      compile_join_eq_ok_iff (isBody_of_mem_flatten hbodies)]
  · rw [compileFile_eq_ok_iff_compiles hbodies, compiles_iff_performs t.ne_nil]
  · intro origin base levels chain number raw clock hraw
    refine (stepLine_eq_ok_iff ?_).mpr ⟨[], hraw, .done⟩
    exact agrees_expander fun _ _ => compileFileFrames_eq_ok_iff

/-- The tree with these scripts, by name, in its root. -/
def scriptTree (scripts : List (String × String)) : FileTree :=
  scripts.foldl
    (fun tree script => tree.insert [script.1.toList] (.file (Utf8.encode script.2.toList)))
    (.ofHome [])

/-- A script that includes another one twice, and a third one without input lines. -/
def nestedScripts : FileTree :=
  scriptTree [("main", "A,100 # press\n@tap\n@notes\n @\"tap\" // again\nX,0x1E"),
    ("tap", "B,50\r\n\n"), ("notes", "# nothing\n// to send")]

theorem compileFile_nestedScripts :
    (Visit.top 10 ⟨"main".toList⟩).Expandable nestedScripts.fileSystem ∧
      ∃ t, compileFile nestedScripts.fileSystem .default ⟨"main".toList⟩ = .ok t ∧
        compile nestedScripts.fileSystem .default "A,100\nB,50\nB,50\nX,0x1E".toList = .ok t := by
  have hflat : flattenFile nestedScripts.fileSystem 11 IncludeChain.empty ⟨"main".toList⟩ =
      some ["A,100".toList, "B,50".toList, "B,50".toList, "X,0x1E".toList] := by decide +kernel
  have h : (Visit.top 10 ⟨"main".toList⟩).Expandable nestedScripts.fileSystem :=
    Visit.Flattens.expandable ⟨_, hflat⟩
  have hok : (compileFile nestedScripts.fileSystem .default ⟨"main".toList⟩).isOk = true := by
    decide +kernel
  refine ⟨h, ?_⟩
  obtain ⟨bodies, hbodies, hcompile, -⟩ := compileFile_iff_compile_flatten
    (show (Visit.top Options.default.maxDepth _).Expandable _ from h)
  have hlines : flatten nestedScripts.fileSystem .default ⟨"main".toList⟩ =
      some ["A,100".toList, "B,50".toList, "B,50".toList, "X,0x1E".toList] := by decide +kernel
  obtain rfl := Option.some.inj (hlines.symm.trans hbodies)
  cases hfile : compileFile nestedScripts.fileSystem .default ⟨"main".toList⟩ with
  | error e => rw [hfile] at hok; cases hok
  | ok t => exact ⟨t, rfl, (hcompile t).mp hfile⟩

end PadScript.Script
