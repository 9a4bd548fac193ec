import PadScript.Proofs.Expansion
import PadScript.Proofs.Flattening

/-!
# Refused files

Every fault of a compiled file is where its place says.

1. An input line is refused for its form, an unknown token, a stick out of range or a duration. All
   but the last do not depend on the time at which the line starts (`compileLine_zero_eq_error`).
2. The kind of a fault tells directives from input lines (`Visit.Refuses.exists_directive`,
   `Visit.Refuses.exists_input`).
3. A file is refused without a line because it cannot be read or because nothing is sent. Every
   other fault is at a line of a file that is opened on the way (`compileFile_eq_error_cases`).
-/

namespace PadScript

/-! ## Codes -/

theorem Fault.Kind.code_injective {k l : Fault.Kind} (h : k.code = l.code) : k = l := by
  revert h
  cases k <;> cases l <;> decide

theorem Fault.code_eq_iff {f : Fault} {k : Fault.Kind} : f.code = k.code ↔ f.kind = k :=
  ⟨Fault.Kind.code_injective, fun h => congrArg Fault.Kind.code h⟩

/-! ## Kinds of faults -/

/-- The kinds of faults that input lines have. -/
def Fault.Kind.ofInput : Fault.Kind → Bool
  | .malformedLine | .unknownToken | .stickOutOfRange | .invalidDuration => true
  | _ => false

/-- The kinds of faults that only directives have. -/
def Fault.Kind.ofDirective : Fault.Kind → Bool
  | .unreadable | .includeNotFound | .circularInclude | .includeTooDeep => true
  | _ => false

theorem Fault.Kind.ofDirective_eq_false {k : Fault.Kind} (h : k.ofInput = true) :
    k.ofDirective = false := by
  revert h
  cases k <;> decide

theorem Fault.ofDirective_of_code {fault : Fault}
    (h : fault.code ∈ ["E2001".toList, "E2002".toList, "E2003".toList, "E2004".toList]) :
    fault.kind.ofDirective = true := by
  simp only [List.mem_cons, List.not_mem_nil, or_false] at h
  rcases h with h | h | h | h
  · rw [(Fault.code_eq_iff (k := .unreadable)).mp h]; rfl
  · rw [(Fault.code_eq_iff (k := .includeNotFound)).mp h]; rfl
  · rw [(Fault.code_eq_iff (k := .circularInclude)).mp h]; rfl
  · rw [(Fault.code_eq_iff (k := .includeTooDeep)).mp h]; rfl

theorem Axis.kind_of_get {token : Text} {axis : Axis} {fault : Fault}
    (h : axis.get token = .error fault) : fault.kind = .stickOutOfRange := by
  cases axis with
  | value v => cases h
  | outOfRange text => cases h; rfl

theorem Token.kind_of_classify {token : Text} {fault : Fault}
    (h : Token.classify token = .error fault) : fault.kind = .stickOutOfRange := by
  unfold Token.classify at h
  split at h
  · rcases bind_eq_error_iff.mp h with hx | ⟨x, -, h⟩
    · exact Axis.kind_of_get hx
    · rcases bind_eq_error_iff.mp h with hy | ⟨y, -, h⟩
      · exact Axis.kind_of_get hy
      · cases h
  · split at h <;> cases h

theorem Held.kind_of_add {expression token : Text} {held : Held} {fault : Fault}
    (h : held.add expression token = .error fault) : fault.kind.ofInput = true := by
  rcases bind_eq_error_iff.mp h with hclassify | ⟨t, -, h⟩
  · rw [Token.kind_of_classify hclassify]
    rfl
  · cases t with
    | symbol s => cases h
    | coordinate stick position => cases h
    | unknown name => cases h; rfl

theorem Expression.kind_of_encode {expression : Text} {fault : Fault}
    (h : Expression.encode expression = .error fault) : fault.kind.ofInput = true := by
  unfold Expression.encode at h
  simp only at h
  split at h
  · cases h
  · rcases bind_eq_error_iff.mp h with hfold | ⟨held, -, h⟩
    · obtain ⟨held, token, -, hadd⟩ := exists_of_foldlM_eq_error hfold
      exact Held.kind_of_add hadd
    · cases h

theorem Line.kind_of_split {body : Text} {fault : Fault} (h : Line.split body = .error fault) :
    fault.kind = .malformedLine := by
  unfold Line.split at h
  split at h <;> cases h
  rfl

theorem Line.kind_of_duration {text : Text} {fault : Fault}
    (h : Line.duration text = .error fault) : fault.kind = .invalidDuration := by
  unfold Line.duration at h
  split at h
  · cases h; rfl
  · split at h <;> cases h
    rfl

theorem Include.kind_of_resolve {fs : FileSystem} {base : Option Path} {target : Text}
    {fault : Fault} (h : Include.resolve fs base target = .error fault) :
    fault.kind = .malformedLine ∨ fault.kind = .includeNotFound := by
  rcases bind_eq_error_iff.mp h with hpath | ⟨full, -, h⟩
  · unfold Include.path at hpath
    simp only at hpath
    split at hpath
    · cases hpath; exact .inl rfl
    · split at hpath
      · cases hpath
      · split at hpath <;> cases hpath
        exact .inr rfl
  · split at h <;> cases h
    exact .inr rfl

namespace Script

theorem Input.kind_of_read {body : Text} {fault : Fault} (h : Input.read body = .error fault) :
    fault.kind.ofInput = true := by
  rcases bind_eq_error_iff.mp h with hsplit | ⟨⟨expression, duration⟩, -, h⟩
  · rw [Line.kind_of_split hsplit]
    rfl
  · rcases bind_eq_error_iff.mp h with hencode | ⟨packet, -, h⟩
    · exact Expression.kind_of_encode hencode
    · rcases bind_eq_error_iff.mp h with hduration | ⟨millis, -, h⟩
      · rw [Line.kind_of_duration hduration]
        rfl
      · cases h

theorem kind_of_compileLine {body : Text} {clock : Millis} {fault : Fault}
    (h : compileLine body clock = .error fault) : fault.kind.ofInput = true := by
  rcases compileLine_eq_error_iff.mp h with hread | ⟨input, -, -, rfl⟩
  · exact Input.kind_of_read hread
  · rfl

/-- Only faults of durations depend on the time at which a line starts. -/
theorem compileLine_zero_eq_error {body : Text} {clock : Millis} {fault : Fault}
    (h : compileLine body clock = .error fault) (hkind : fault.kind ≠ .invalidDuration) :
    compileLine body 0 = .error fault := by
  rcases compileLine_eq_error_iff.mp h with hread | ⟨input, -, -, rfl⟩
  · exact compileLine_eq_error_iff.mpr (.inl hread)
  · exact absurd rfl hkind

/-! ## Lines that are to blame -/

namespace LineFault

variable {fs : FileSystem} {base : Option Path} {raw : Text} {fault : Fault}

theorem classify_ne_skip (h : LineFault fs base raw fault) : Line.classify raw ≠ .skip := by
  cases h with
  | input hline _ => rw [hline]; exact Line.noConfusion
  | target hline _ => rw [hline]; exact Line.noConfusion
  | overrun hline => rw [hline]; exact Line.noConfusion

theorem exists_directive (h : LineFault fs base raw fault)
    (hkind : fault.kind.ofDirective = true) : ∃ target, Line.classify raw = .directive target := by
  cases h with
  | input _ hcompile =>
    rw [Fault.Kind.ofDirective_eq_false (kind_of_compileLine hcompile)] at hkind
    cases hkind
  | target hline _ => exact ⟨_, hline⟩
  | overrun hline => exact ⟨_, hline⟩

/-- A line by itself has a fault of input lines, or leads to no file. -/
theorem kind_ne (h : LineFault fs base raw fault) {kind : Fault.Kind}
    (hinput : kind.ofInput = false) (hkind : kind ≠ .includeNotFound) : fault.kind ≠ kind := by
  rintro rfl
  cases h with
  | input _ hcompile =>
    rw [kind_of_compileLine hcompile] at hinput
    cases hinput
  | target _ hresolve =>
    rcases Include.kind_of_resolve hresolve with hcase | hcase
    · rw [hcase] at hinput
      cases hinput
    · exact hkind hcase
  | overrun _ => cases hinput

theorem exists_input (h : LineFault fs base raw fault)
    (hkind : fault.kind = .unknownToken ∨ fault.kind = .stickOutOfRange ∨
      fault.kind = .malformedLine ∧ ∃ body, Line.classify raw = .input body) :
    ∃ body, Line.classify raw = .input body ∧ compileLine body 0 = .error fault := by
  cases h with
  | @input body clock _ hline hcompile =>
    refine ⟨body, hline, compileLine_zero_eq_error hcompile ?_⟩
    rcases hkind with hkind | hkind | ⟨hkind, -⟩ <;> rw [hkind] <;> exact Fault.Kind.noConfusion
  | target hline hresolve =>
    -- a directive that cannot be followed is never of the first two kinds
    rcases hkind with hkind | hkind | ⟨-, body, hbody⟩
    · rcases Include.kind_of_resolve hresolve with h | h <;> rw [h] at hkind <;> cases hkind
    · rcases Include.kind_of_resolve hresolve with h | h <;> rw [h] at hkind <;> cases hkind
    · rw [hline] at hbody
      cases hbody
  | overrun hline => rcases hkind with hkind | hkind | ⟨hkind, -⟩ <;> cases hkind

end LineFault

namespace Visit

variable {fs : FileSystem} {limit : Nat} {v : Visit} {raw : Text} {fault : Fault}

theorem OpeningFault.ofDirective (h : v.OpeningFault fs limit fault) :
    fault.kind.ofDirective = true := by
  cases h <;> rfl

theorem OpeningFault.kind_ne_empty (h : v.OpeningFault fs limit fault) : fault.kind ≠ .empty := by
  cases h <;> exact Fault.Kind.noConfusion

/-- The first file is never too deep, and no file is open before it. -/
theorem OpeningFault.of_top {path : Path} (h : (top limit path).OpeningFault fs limit fault) :
    ∃ cause, fault = .unreadable path cause ∧
      fs.canonical path >>= fs.readText = .error cause := by
  cases h with
  | tooDeep hlevels => exact absurd hlevels (Nat.succ_ne_zero limit)
  | noPath _ hcanonical => exact ⟨_, rfl, bind_eq_error_iff.mpr (.inl hcanonical)⟩
  | circular _ _ hopen => cases hopen
  | noText _ hcanonical htext =>
    exact ⟨_, rfl, bind_eq_error_iff.mpr (.inr ⟨_, hcanonical, htext⟩)⟩

theorem Refuses.classify_ne_skip (h : v.Refuses fs limit raw fault) :
    Line.classify raw ≠ .skip := by
  cases h with
  | line hfault => exact hfault.classify_ne_skip
  | directive hline _ _ => rw [hline]; exact Line.noConfusion

theorem Refuses.exists_directive (h : v.Refuses fs limit raw fault)
    (hkind : fault.kind.ofDirective = true) : ∃ target, Line.classify raw = .directive target := by
  cases h with
  | line hfault => exact hfault.exists_directive hkind
  | directive hline _ _ => exact ⟨_, hline⟩

theorem Refuses.exists_input (h : v.Refuses fs limit raw fault)
    (hkind : fault.kind = .unknownToken ∨ fault.kind = .stickOutOfRange ∨
      fault.kind = .malformedLine ∧ ∃ body, Line.classify raw = .input body) :
    ∃ body, Line.classify raw = .input body ∧ compileLine body 0 = .error fault := by
  cases h with
  | line hfault => exact hfault.exists_input hkind
  | directive _ _ hopening =>
    have hdirective := hopening.ofDirective
    rcases hkind with hkind | hkind | ⟨hkind, -⟩ <;> rw [hkind] at hdirective <;> cases hdirective

theorem Refuses.kind_ne_empty (h : v.Refuses fs limit raw fault) : fault.kind ≠ .empty := by
  cases h with
  | line hfault => exact hfault.kind_ne rfl Fault.Kind.noConfusion
  | directive _ _ hopening => exact hopening.kind_ne_empty

/-- An included file may send nothing. -/
theorem kind_ne_empty_of_frames_eq_error {e : LocatedFault} (h : v.frames fs limit = .error e) :
    e.fault.kind ≠ .empty := by
  rcases frames_eq_error h with ⟨hopening, -⟩ | ⟨w, canonical, source, index, raw, -, -, -, hrefuses,
    -⟩
  · exact hopening.kind_ne_empty
  · exact hrefuses.kind_ne_empty

end Visit

/-- No line is refused because nothing is sent: only a script as a whole is. -/
theorem kind_ne_empty_of_compileSource_eq_error {fs : FileSystem} {origin base : Option Path}
    {limit levels : Nat} {chain : IncludeChain} {source : Text} {e : LocatedFault}
    (h : compileSource origin
      (expander fs origin base (compileFileFrames fs limit levels chain)) source = .error e) :
    e.fault.kind ≠ .empty := by
  obtain ⟨index, raw, -, ⟨fault, hfault, rfl⟩ | ⟨target, next, e', -, -, hfile, rfl⟩⟩ :=
    compileSource_expander_eq_error h
  · exact hfault.kind_ne rfl Fault.Kind.noConfusion
  · rw [LocatedFault.fault_orInFile, LocatedFault.fault_orAtLine]
    exact Visit.kind_ne_empty_of_frames_eq_error (v := ⟨levels, chain, next⟩) hfile

/-! ## Files -/

/-- What a source compiles to is the frames of the input lines that it stands for. -/
theorem compiles_of_compileSource {fs : FileSystem} {origin base : Option Path} {limit : Nat}
    {levels : Nat} {chain : IncludeChain} {source : Text} {frames : List Frame}
    (h : compileSource origin
      (expander fs origin base (compileFileFrames fs limit levels chain)) source = .ok frames) :
    ∃ bodies, Compiles bodies frames := by
  have hx : Agrees (expander fs origin base (compileFileFrames fs limit levels chain))
      (follow fs base (flattenFile fs levels chain)) :=
    agrees_expander fun _ _ => compileFileFrames_eq_ok_iff
  obtain ⟨bodies, -, hcompiles⟩ := (compileSource_eq_ok_iff_flattenLines hx).mp h
  exact ⟨bodies, hcompiles⟩

theorem finish_error_of_compiles {bodies : List Text} {frames : List Frame}
    (h : Compiles bodies frames) {e : LocatedFault} (he : finish frames = .error e) :
    e = Fault.locate .noFrames 0 none :=
  (finish_eq_error_of_ordered h.ordered he).2

/-- Why a file is refused: without a line because it cannot be read or because nothing is sent, or
because of a line of a file that is opened on the way. -/
theorem compileFile_eq_error_cases {fs : FileSystem} {options : Options} {path : Path}
    {e : LocatedFault} (h : compileFile fs options path = .error e) :
    (e.line = 0 ∧ e.file = some path ∧
      ((Visit.top options.maxDepth path).OpeningFault fs options.maxDepth e.fault ∨
        e.fault = .noFrames)) ∨
      ∃ w canonical source index raw,
        Relation.ReflTransGen (Visit.Step fs) (Visit.top options.maxDepth path) w ∧
        w.Opens fs canonical source ∧ (Text.lines source)[index]? = some raw ∧
        w.Refuses fs options.maxDepth raw e.fault ∧ e.line = index + 1 ∧
        e.file = some canonical := by
  obtain ⟨e, rfl, hfile | ⟨frames, hfile, hfinish⟩⟩ := compileFile_eq_error_iff.mp h
  · rw [LocatedFault.fault_orInFile, LocatedFault.line_orInFile]
    rcases Visit.frames_eq_error (v := Visit.top options.maxDepth path) hfile with
      ⟨hfault, hline, hnone⟩ | ⟨w, canonical, source, index, raw, hreach, hopens, hraw, hrefuses,
        hline, hplace⟩
    · refine .inl ⟨hline, ?_, .inl hfault⟩
      rw [LocatedFault.orInFile, hnone]
    · refine .inr ⟨w, canonical, source, index, raw, hreach, hopens, hraw, hrefuses, hline, ?_⟩
      rw [LocatedFault.orInFile, hplace]
      exact hplace
  · obtain ⟨bodies, -, hcompiles⟩ := compileFileFrames_eq_ok_iff.mp hfile
    rw [finish_error_of_compiles hcompiles hfinish]
    exact .inl ⟨rfl, rfl, .inr rfl⟩

/-- The file has a line with this number, which is counted from one, and the line reads `raw`. -/
def LineAt (fs : FileSystem) (file : Path) (number : Nat) (raw : Text) : Prop :=
  ∃ source, fs.readText file = .ok source ∧ 1 ≤ number ∧ number ≤ (Text.lines source).length ∧
    (Text.lines source)[number - 1]? = some raw

theorem lineAt_succ {fs : FileSystem} {file : Path} {source raw : Text} {index : Nat}
    (htext : fs.readText file = .ok source) (hraw : (Text.lines source)[index]? = some raw) :
    LineAt fs file (index + 1) raw := by
  have hindex := (List.getElem?_eq_some_iff.mp hraw).1
  exact ⟨source, htext, by omega, by omega, hraw⟩

/-- **Every fault is where it says.** A fault always has a file. Without a line, it is that the
file itself cannot be read or that nothing is sent. With a line, the file is one that a chain of
directives leads to, and the line is the directive or the input line to blame. -/
theorem place_of_compileFile_error {fs : FileSystem} {options : Options} {path : Path}
    {e : LocatedFault} (h : compileFile fs options path = .error e) :
    (∃ file, e.file = some file) ∧
    (e.line = 0 → e.file = some path ∧
      ((e.fault.code = "E2001".toList ∧ ∃ cause, e.fault = .unreadable path cause ∧
          fs.canonical path >>= fs.readText = .error cause) ∨
        e.fault.code = "E3001".toList)) ∧
    (e.line ≠ 0 → ∃ p file raw, Relation.ReflTransGen (Includes fs) path p ∧
      fs.canonical p = .ok file ∧ e.file = some file ∧ LineAt fs file e.line raw ∧
      Line.classify raw ≠ .skip ∧
      (e.fault.code ∈ ["E2001".toList, "E2002".toList, "E2003".toList, "E2004".toList] →
        ∃ target, Line.classify raw = .directive target) ∧
      (e.fault.code = "E1002".toList ∨ e.fault.code = "E1003".toList ∨
          (e.fault.code = "E1001".toList ∧ ∃ body, Line.classify raw = .input body) →
        ∃ body, Line.classify raw = .input body ∧ compileLine body 0 = .error e.fault)) := by
  rcases compileFile_eq_error_cases h with ⟨hzero, hfile, hfault⟩ |
    ⟨w, canonical, source, index, raw, hreach, hopens, hraw, hrefuses, hline, hfile⟩
  · refine ⟨⟨path, hfile⟩, fun _ => ⟨hfile, ?_⟩, fun hne => absurd hzero hne⟩
    rcases hfault with hopening | hempty
    · obtain ⟨cause, hcause, hread⟩ := hopening.of_top
      rw [hcause]
      exact .inl ⟨rfl, cause, rfl, hread⟩
    · rw [hempty]
      exact .inr rfl
  · refine ⟨⟨canonical, hfile⟩, fun hzero => ?_, fun _ => ?_⟩
    · omega
    have hreach := Visit.includes_of_reaches hreach
    refine ⟨w.path, canonical, raw, hreach, hopens.place, hfile, ?_, hrefuses.classify_ne_skip,
      ?_, ?_⟩
    · rw [hline]
      exact lineAt_succ hopens.text hraw
    · intro hcode
      exact hrefuses.exists_directive (Fault.ofDirective_of_code hcode)
    · intro hcode
      refine hrefuses.exists_input ?_
      rcases hcode with hcode | hcode | ⟨hcode, hbody⟩
      · exact .inl ((Fault.code_eq_iff (k := .unknownToken)).mp hcode)
      · exact .inr (.inl ((Fault.code_eq_iff (k := .stickOutOfRange)).mp hcode))
      · exact .inr (.inr ⟨(Fault.code_eq_iff (k := .malformedLine)).mp hcode, hbody⟩)

/-- A script whose second include has an unknown token on its last line. -/
def brokenScripts : FileTree :=
  scriptTree [("main", "@tap\nA,100\n@outer"), ("tap", "B,50"), ("outer", "# next\n@tap\n@inner"),
    ("inner", "A,10\n\n  A+JUMP,20 # no such button")]

theorem place_of_brokenScripts_error :
    compileFile brokenScripts.fileSystem .default ⟨"main".toList⟩ =
        .error ⟨.unknownToken "JUMP".toList "A+JUMP".toList, 3, some ⟨"/inner".toList⟩⟩ ∧
      ∃ p raw body, Relation.ReflTransGen (Includes brokenScripts.fileSystem) ⟨"main".toList⟩ p ∧
        LineAt brokenScripts.fileSystem ⟨"/inner".toList⟩ 3 raw ∧
        Line.classify raw = .input body ∧
        compileLine body 0 = .error (.unknownToken "JUMP".toList "A+JUMP".toList) := by
  have h : compileFile brokenScripts.fileSystem .default ⟨"main".toList⟩ =
      .error ⟨.unknownToken "JUMP".toList "A+JUMP".toList, 3, some ⟨"/inner".toList⟩⟩ := by
    decide +kernel
  refine ⟨h, ?_⟩
  obtain ⟨p, file, raw, hreach, -, hfile, hraw, -, -, hinput⟩ :=
    (place_of_compileFile_error h).2.2 (Nat.succ_ne_zero 2)
  obtain ⟨body, hbody, hcompile⟩ := hinput (.inl rfl)
  cases hfile
  exact ⟨p, raw, body, hreach, hraw, hbody, hcompile⟩

end Script

end PadScript
