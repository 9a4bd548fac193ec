import PadScript.Proofs.Result
import PadScript.Proofs.Timeline
import PadScript.Script

/-!
# When compiling succeeds and when it is refused

For each stage of the compiler, from a line to a file, what its result is made of: the results of
the stages inside it, or the fault that one of them found and the place it was given.
-/

namespace PadScript.Script

variable {fs : FileSystem} {origin base : Option Path} {expand : Expander}
  {file : Path → Except LocatedFault (List Frame)}

/-! ## Lines -/

theorem stepLine_skip {raw : Text} (h : Line.classify raw = .skip) (number : Nat)
    (clock : Millis) : stepLine origin expand number raw clock = .ok ([], clock) := by
  unfold stepLine; rw [h]

theorem stepLine_directive {raw target : Text} (h : Line.classify raw = .directive target)
    (number : Nat) (clock : Millis) :
    stepLine origin expand number raw clock =
      (expand number target >>= fun included =>
        (splice included clock).mapError (·.locate number origin)) := by
  unfold stepLine; rw [h]

theorem stepLine_input {raw body : Text} (h : Line.classify raw = .input body)
    (number : Nat) (clock : Millis) :
    stepLine origin expand number raw clock =
      ((compileLine body clock).mapError (·.locate number origin) >>= fun result =>
        .ok ([result.1], result.2)) := by
  unfold stepLine; rw [h]; rfl

/-- A line is compiled as what it is read as. -/
theorem stepLine_congr {raw raw' : Text} (h : Line.classify raw = Line.classify raw')
    (number : Nat) (clock : Millis) :
    stepLine origin expand number raw clock = stepLine origin expand number raw' clock := by
  unfold stepLine
  rw [h]

theorem runLines_cons (number : Nat) (raw : Text) (rest : List Text) (clock : Millis) :
    runLines origin expand number (raw :: rest) clock =
      (stepLine origin expand number raw clock >>= fun step =>
        runLines origin expand (number + 1) rest step.2 >>= fun more =>
          pure (step.1 ++ more.1, more.2)) := rfl

/-- Lines are compiled one part after the other. -/
theorem runLines_append (number : Nat) (first second : List Text) (clock : Millis) :
    runLines origin expand number (first ++ second) clock =
      (runLines origin expand number first clock >>= fun start =>
        runLines origin expand (number + first.length) second start.2 >>= fun rest =>
          pure (start.1 ++ rest.1, rest.2)) := by
  induction first generalizing number clock with
  | nil => exact (bind_pure _).symm
  | cons raw first ih =>
    have hnumber : number + 1 + first.length = number + (first.length + 1) := by omega
    simp only [List.cons_append, List.length_cons, runLines_cons, ih, hnumber, bind_assoc,
      pure_bind, List.append_assoc]

theorem runLines_cons_eq_ok_iff {number : Nat} {raw : Text} {rest : List Text}
    {clock stop : Millis} {frames : List Frame} :
    runLines origin expand number (raw :: rest) clock = .ok (frames, stop) ↔
      ∃ before middle after, stepLine origin expand number raw clock = .ok (before, middle) ∧
        runLines origin expand (number + 1) rest middle = .ok (after, stop) ∧
        frames = before ++ after := by
  rw [runLines]
  simp only [bind_eq_ok_iff, Prod.exists, pure, Except.pure, Except.ok.injEq, Prod.mk.injEq]
  constructor
  · rintro ⟨before, middle, hstep, after, _, hrest, rfl, rfl⟩
    exact ⟨before, middle, after, hstep, hrest, rfl⟩
  · rintro ⟨before, middle, after, hstep, hrest, rfl⟩
    exact ⟨before, middle, hstep, after, stop, hrest, rfl, rfl⟩

/-- Only what the directives among the lines are expanded to matters. -/
theorem runLines_congr {expand' : Expander} {raws : List Text}
    (h : ∀ raw ∈ raws, ∀ target, Line.classify raw = .directive target →
      ∀ number, expand number target = expand' number target) (number : Nat) (clock : Millis) :
    runLines origin expand number raws clock = runLines origin expand' number raws clock := by
  induction raws generalizing number clock with
  | nil => rfl
  | cons raw rest ih =>
    have hstep : stepLine origin expand number raw clock =
        stepLine origin expand' number raw clock := by
      cases hline : Line.classify raw with
      | skip => rw [stepLine_skip hline, stepLine_skip hline]
      | directive target =>
        rw [stepLine_directive hline, stepLine_directive hline,
          h raw List.mem_cons_self target hline]
      | input body => rw [stepLine_input hline, stepLine_input hline]
    have hrest := ih fun other hother => h other (List.mem_cons_of_mem _ hother)
    simp only [runLines_cons, hstep, hrest]

/-- In a run that ends well every line does. -/
theorem stepLine_of_runLines_eq_ok {number : Nat} {raws : List Text} {clock : Millis}
    {result : List Frame × Millis} (h : runLines origin expand number raws clock = .ok result)
    {raw : Text} (hraw : raw ∈ raws) :
    ∃ number' clock' result', stepLine origin expand number' raw clock' = .ok result' := by
  obtain ⟨frames, stop⟩ := result
  induction raws generalizing number clock frames with
  | nil => exact absurd hraw List.not_mem_nil
  | cons first rest ih =>
    obtain ⟨before, middle, after, hstep, hrest, -⟩ := runLines_cons_eq_ok_iff.mp h
    rcases List.mem_cons.mp hraw with rfl | hraw
    · exact ⟨number, clock, (before, middle), hstep⟩
    · exact ih hraw after hrest

/-- A run that is refused is refused at one of its lines. -/
theorem stepLine_of_runLines_eq_error {number : Nat} {raws : List Text} {clock : Millis}
    {e : LocatedFault} (h : runLines origin expand number raws clock = .error e) :
    ∃ index raw clock', raws[index]? = some raw ∧
      stepLine origin expand (number + index) raw clock' = .error e := by
  induction raws generalizing number clock with
  | nil => cases h
  | cons first rest ih =>
    rw [runLines] at h
    rcases bind_eq_error_iff.mp h with hstep | ⟨⟨before, middle⟩, -, h⟩
    · exact ⟨0, first, clock, rfl, hstep⟩
    · rcases bind_eq_error_iff.mp h with hrest | ⟨_, _, h⟩
      · obtain ⟨index, raw, clock', hraw, hline⟩ := ih hrest
        refine ⟨index + 1, raw, clock', hraw, ?_⟩
        rw [← hline, Nat.add_assoc, Nat.add_comm 1 index]
      · cases h

theorem compileSource_eq_ok_iff {source : Text} {frames : List Frame} :
    compileSource origin expand source = .ok frames ↔
      ∃ played stop, runLines origin expand 1 (Text.lines source) 0 = .ok (played, stop) ∧
        frames = close played stop := by
  unfold compileSource
  simp only [bind_eq_ok_iff, Prod.exists, pure, Except.pure, Except.ok.injEq]
  exact exists_congr fun _ => exists_congr fun _ => and_congr_right fun _ => eq_comm

theorem compileSource_eq_error {source : Text} {e : LocatedFault}
    (h : compileSource origin expand source = .error e) :
    ∃ index raw clock, (Text.lines source)[index]? = some raw ∧
      stepLine origin expand (index + 1) raw clock = .error e := by
  unfold compileSource at h
  rcases bind_eq_error_iff.mp h with h | ⟨_, _, h⟩
  · obtain ⟨index, raw, clock, hraw, hstep⟩ := stepLine_of_runLines_eq_error h
    rw [Nat.add_comm 1 index] at hstep
    exact ⟨index, raw, clock, hraw, hstep⟩
  · cases h

theorem splice_eq_error {included : List Frame} {clock : Millis} {fault : Fault}
    (h : splice included clock = .error fault) : fault = .clockOverflow none := by
  unfold splice at h
  split at h
  · cases h
  · split at h
    · cases h
    · cases h; rfl

/-! ## Directives -/

theorem expander_eq_ok_iff {number : Nat} {target : Text} {frames : List Frame} :
    expander fs origin base file number target = .ok frames ↔
      ∃ next, Include.resolve fs base target = .ok next ∧ file next = .ok frames := by
  unfold expander
  simp only [bind_eq_ok_iff, mapError_eq_ok_iff]

theorem expander_eq_error_iff {number : Nat} {target : Text} {e : LocatedFault} :
    expander fs origin base file number target = .error e ↔
      (∃ fault, Include.resolve fs base target = .error fault ∧ e = fault.locate number origin) ∨
        ∃ next e', Include.resolve fs base target = .ok next ∧ file next = .error e' ∧
          e = (e'.orAtLine number).orInFile origin := by
  unfold expander
  simp only [bind_eq_error_iff, mapError_eq_error_iff, mapError_eq_ok_iff, exists_and_left]

/-- Sources are compiled alike if the files that their directives lead to are. -/
theorem compileSource_congr {file' : Path → Except LocatedFault (List Frame)} {source : Text}
    (h : ∀ raw ∈ Text.lines source, ∀ target, Line.classify raw = .directive target →
      ∀ next, Include.resolve fs base target = .ok next → file next = file' next) :
    compileSource origin (expander fs origin base file) source =
      compileSource origin (expander fs origin base file') source := by
  unfold compileSource
  rw [runLines_congr]
  intro raw hraw target hline number
  unfold expander
  cases hnext : Include.resolve fs base target with
  | error fault => rfl
  | ok next =>
    show (file next).mapError _ = (file' next).mapError _
    rw [h raw hraw target hline next hnext]

/-! ## Files -/

theorem compileFileFrames_succ (limit levels : Nat) (chain : IncludeChain) (path : Path) :
    compileFileFrames fs limit (levels + 1) chain path =
      ((fs.canonical path).mapError (fun e => Fault.locate (.unreadable path e) 0 none) >>=
        fun canonical =>
          if chain.contains canonical then
            .error (Fault.locate (.circular (chain.extend canonical).paths) 0 none)
          else
            (fs.readText canonical).mapError (fun e => Fault.locate (.unreadable path e) 0 none) >>=
              compileSource (some canonical)
                (expander fs (some canonical) path.parent?
                  (compileFileFrames fs limit levels (chain.extend canonical)))) := rfl

theorem compileFileFrames_succ_eq_ok_iff {limit levels : Nat} {chain : IncludeChain} {path : Path}
    {frames : List Frame} :
    compileFileFrames fs limit (levels + 1) chain path = .ok frames ↔
      ∃ canonical source, fs.canonical path = .ok canonical ∧
        chain.contains canonical = false ∧ fs.readText canonical = .ok source ∧
        compileSource (some canonical)
          (expander fs (some canonical) path.parent?
            (compileFileFrames fs limit levels (chain.extend canonical))) source = .ok frames := by
  rw [compileFileFrames]
  simp only [bind_eq_ok_iff, mapError_eq_ok_iff]
  refine exists_congr fun canonical => ?_
  cases chain.contains canonical with
  | true => simp [bind_eq_ok_iff]
  | false => simp [bind_eq_ok_iff, mapError_eq_ok_iff]

theorem compileFileFrames_succ_eq_error_iff {limit levels : Nat} {chain : IncludeChain}
    {path : Path} {e : LocatedFault} :
    compileFileFrames fs limit (levels + 1) chain path = .error e ↔
      (∃ cause, fs.canonical path = .error cause ∧
        e = Fault.locate (.unreadable path cause) 0 none) ∨
      ∃ canonical, fs.canonical path = .ok canonical ∧
        (chain.contains canonical = true ∧
            e = Fault.locate (.circular (chain.extend canonical).paths) 0 none ∨
          chain.contains canonical = false ∧
            ((∃ cause, fs.readText canonical = .error cause ∧
                e = Fault.locate (.unreadable path cause) 0 none) ∨
              ∃ source, fs.readText canonical = .ok source ∧
                compileSource (some canonical)
                  (expander fs (some canonical) path.parent?
                    (compileFileFrames fs limit levels (chain.extend canonical))) source =
                  .error e)) := by
  rw [compileFileFrames]
  simp only [bind_eq_error_iff, mapError_eq_error_iff, mapError_eq_ok_iff]
  refine or_congr_right (exists_congr fun canonical => and_congr_right fun _ => ?_)
  cases chain.contains canonical with
  | true =>
    simp [bind_eq_error_iff]
    exact eq_comm
  | false => simp [bind_eq_error_iff, mapError_eq_error_iff, mapError_eq_ok_iff]

/-! ## Timelines -/

theorem finish_eq_ok_iff {frames : List Frame} {t : Timeline} :
    finish frames = .ok t ↔ t.frames = frames := by
  unfold finish
  rw [mapError_eq_ok_iff, Timeline.ofFrames_eq_ok_iff]

/-- Frames in the order of their times are refused only if there are none. -/
theorem finish_eq_error_of_ordered {frames : List Frame} (h : Ordered frames) {e : LocatedFault}
    (he : finish frames = .error e) : frames = [] ∧ e = Fault.locate .noFrames 0 none := by
  by_cases hne : frames = []
  · subst hne
    cases he
    exact ⟨rfl, rfl⟩
  · unfold finish at he
    rw [Timeline.ofFrames_of_ordered hne h] at he
    cases he

theorem compile_eq_ok_iff {options : Options} {source : Text} {t : Timeline} :
    compile fs options source = .ok t ↔
      compileSource none (expander fs none options.base
        (compileFileFrames fs options.maxDepth options.maxDepth IncludeChain.empty)) source =
          .ok t.frames := by
  unfold compile
  simp only [bind_eq_ok_iff, finish_eq_ok_iff, exists_eq_right']

theorem compileFile_eq_ok_iff {options : Options} {path : Path} {t : Timeline} :
    compileFile fs options path = .ok t ↔
      compileFileFrames fs options.maxDepth (options.maxDepth + 1) IncludeChain.empty path =
        .ok t.frames := by
  unfold compileFile
  simp only [mapError_eq_ok_iff, bind_eq_ok_iff, finish_eq_ok_iff, exists_eq_right']

theorem compile_eq_error_iff {options : Options} {source : Text} {e : LocatedFault} :
    compile fs options source = .error e ↔
      compileSource none (expander fs none options.base
          (compileFileFrames fs options.maxDepth options.maxDepth IncludeChain.empty)) source =
            .error e ∨
        ∃ frames, compileSource none (expander fs none options.base
            (compileFileFrames fs options.maxDepth options.maxDepth IncludeChain.empty)) source =
              .ok frames ∧ finish frames = .error e :=
  bind_eq_error_iff

theorem compileFile_eq_error_iff {options : Options} {path : Path} {e : LocatedFault} :
    compileFile fs options path = .error e ↔
      ∃ e', e = e'.orInFile (some path) ∧
        (compileFileFrames fs options.maxDepth (options.maxDepth + 1) IncludeChain.empty path =
            .error e' ∨
          ∃ frames, compileFileFrames fs options.maxDepth (options.maxDepth + 1)
            IncludeChain.empty path = .ok frames ∧ finish frames = .error e') := by
  unfold compileFile
  simp only [mapError_eq_error_iff, bind_eq_error_iff]
  exact exists_congr fun _ => and_comm

end PadScript.Script
