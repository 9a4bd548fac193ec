import PadScript.Proofs.Refusal

/-!
# Scripts one after the other

A script that is followed by another one on the next line is compiled as the two scripts are, one
after the other.

1. A line feed after a script changes nothing: its lines are read as before, and at most an empty
   line is added (`runLines_map_dropReturn`). So the lines of both scripts run one after the other,
   with the second script's lines numbered from where the first script ends (`runSource_append`).
2. What lines send does not depend on their numbers, and from a later time on they send the same
   that much later (`runLines_later`), unless the clock runs over (`runLines_overrun`). Lines that
   send nothing take no time (`runLines_silent`).
3. A script is refused for one of its lines, or else because it sends nothing
   (`runSource_of_refused`, `runSource_of_empty`).
-/

namespace PadScript

/-- The frame, sent later by `offset`. -/
def Frame.later (offset : Millis) (frame : Frame) : Frame := ⟨offset + frame.time, frame.packet⟩

@[simp] theorem Frame.later_neutral (offset time : Millis) :
    (Frame.neutral time).later offset = .neutral (offset + time) := rfl

theorem Frame.toNat_time_later {offset : Millis} {frame : Frame}
    (h : offset.toNat + frame.time.toNat < UInt32.size) :
    (frame.later offset).time.toNat = offset.toNat + frame.time.toNat := by
  show (offset + frame.time).toNat = _
  rw [UInt32.toNat_add, Nat.mod_eq_of_lt h]

namespace Script

theorem delay_eq_map {offset : Millis} {frames : List Frame}
    (h : ∀ frame ∈ frames, offset.toNat + frame.time.toNat < UInt32.size) :
    delay offset frames = some (frames.map (Frame.later offset)) := by
  induction frames with
  | nil => rfl
  | cons frame rest ih =>
    have hframe := h frame List.mem_cons_self
    have hrest := ih fun other hother => h other (List.mem_cons_of_mem _ hother)
    exact delay_cons_eq_some_iff.mpr ⟨_, _, if_pos hframe, hrest, rfl⟩

/-! ## The lines of two scripts -/

section Lines

variable {origin : Option Path} {expand : Expander}

/-- Lines that a line feed ends are compiled as the lines among the pieces: the last piece may lose
a carriage return, which is a blank, and if it is empty it is skipped. -/
theorem runLines_map_dropReturn {pieces : List Text} (hne : pieces ≠ []) (number : Nat)
    (clock : Millis) :
    runLines origin expand number (pieces.map Text.dropReturn) clock =
      runLines origin expand number (Text.linesOfPieces pieces) clock := by
  induction pieces generalizing number clock with
  | nil => exact absurd rfl hne
  | cons piece rest ih =>
    cases rest with
    | nil =>
      have hline : Line.classify (Text.dropReturn piece) = Line.classify piece :=
        Line.classify_congr (Text.trim_dropReturn piece)
      by_cases hempty : piece = []
      · subst hempty
        rw [List.map_cons, runLines_cons, stepLine_congr hline, stepLine_skip Line.classify_nil]
        rfl
      · have hlines : Text.linesOfPieces [piece] = [piece] := by
          simp [Text.linesOfPieces, hempty]
        rw [hlines, List.map_cons, runLines_cons, runLines_cons, stepLine_congr hline]
        rfl
    | cons next rest =>
      rw [List.map_cons, Text.linesOfPieces, runLines_cons, runLines_cons]
      simp only [ih (List.cons_ne_nil next rest)]

end Lines

/-! ## The same lines later -/

section Later

variable {origin : Option Path} {expand : Expander} {follow : Text → Option (List Text)}
  {raws : List Text} {frames : List Frame} {number : Nat} {clock stop : Millis}

theorem runLines_renumbered (hx : Agrees expand follow) {result : List Frame × Millis}
    (h : runLines origin expand number raws clock = .ok result) (number' : Nat) :
    runLines origin expand number' raws clock = .ok result :=
  (runLines_eq_ok_iff hx).mpr ((runLines_eq_ok_iff hx).mp h)

/-- Lines that run from zero on run from a later time on, and send the same that much later. -/
theorem runLines_later (hx : Agrees expand follow)
    (h : runLines origin expand number raws 0 = .ok (frames, stop))
    (hfits : clock.toNat + stop.toNat < UInt32.size) (number' : Nat) :
    runLines origin expand number' raws clock =
      .ok (frames.map (Frame.later clock), clock + stop) := by
  obtain ⟨bodies, hbodies, hplays⟩ := (runLines_eq_ok_iff hx).mp h
  refine (runLines_eq_ok_iff hx).mpr ⟨bodies, hbodies, ?_⟩
  apply (hplays.delay_iff (show clock.toNat + (0 : Millis).toNat = clock.toNat from rfl)).mp
  refine ⟨delay_eq_map ?_, if_pos hfits⟩
  intro frame hframe
  have hend := (hplays.bounds frame hframe).2
  omega

theorem runLines_silent (hx : Agrees expand follow)
    (h : runLines origin expand number raws clock = .ok ([], stop)) (number' : Nat)
    (clock' : Millis) : runLines origin expand number' raws clock' = .ok ([], clock') := by
  obtain ⟨bodies, hbodies, hplays⟩ := (runLines_eq_ok_iff hx).mp h
  cases hplays with
  | done => exact (runLines_eq_ok_iff hx).mpr ⟨[], hbodies, .done⟩

/-- A line that is compiled at one time is refused at another one only if the clock runs over. -/
theorem kind_of_stepLine_eq_error (hx : Agrees expand follow) {raw : Text}
    {result : List Frame × Millis} (h : stepLine origin expand number raw clock = .ok result)
    {number' : Nat} {clock' : Millis} {e : LocatedFault}
    (he : stepLine origin expand number' raw clock' = .error e) :
    e.fault.kind = .invalidDuration := by
  cases hline : Line.classify raw with
  | skip =>
    rw [stepLine_skip hline] at he
    cases he
  | directive target =>
    rw [stepLine_directive hline] at h he
    obtain ⟨included, hexpand, -⟩ := bind_eq_ok_iff.mp h
    have hexpand' : expand number' target = .ok included :=
      (hx number' target included).mpr ((hx number target included).mp hexpand)
    rcases bind_eq_error_iff.mp he with hrefused | ⟨included', -, hsplice⟩
    · rw [hexpand'] at hrefused
      cases hrefused
    · obtain ⟨fault, hfault, rfl⟩ := mapError_eq_error_iff.mp hsplice
      rw [splice_eq_error hfault]
      rfl
  | input body =>
    rw [stepLine_input hline] at h he
    obtain ⟨⟨frame, next⟩, hcompile, -⟩ := bind_eq_ok_iff.mp h
    obtain ⟨input, hread, -⟩ := compileLine_eq_ok_iff.mp (mapError_eq_ok_iff.mp hcompile)
    rcases bind_eq_error_iff.mp he with hrefused | ⟨_, _, he⟩
    · obtain ⟨fault, hfault, rfl⟩ := mapError_eq_error_iff.mp hrefused
      rcases compileLine_eq_error_iff.mp hfault with hread' | ⟨_, -, -, rfl⟩
      · rw [hread] at hread'
        cases hread'
      · rfl
    · cases he

/-- Lines that run from zero on are refused from a later time on if they would end too late, for a
duration. -/
theorem runLines_overrun (hx : Agrees expand follow)
    (h : runLines origin expand number raws 0 = .ok (frames, stop))
    (hover : UInt32.size ≤ clock.toNat + stop.toNat) (number' : Nat) :
    ∃ e, runLines origin expand number' raws clock = .error e ∧
      e.fault.kind = .invalidDuration := by
  cases hrun : runLines origin expand number' raws clock with
  | ok result =>
    obtain ⟨frames', stop'⟩ := result
    obtain ⟨bodies, hbodies, hplays⟩ := (runLines_eq_ok_iff hx).mp h
    obtain ⟨bodies', hbodies', hplays'⟩ := (runLines_eq_ok_iff hx).mp hrun
    obtain rfl := Option.some.inj (hbodies.symm.trans hbodies')
    have hzero : clock.toNat + (0 : Millis).toNat = clock.toNat := rfl
    have hstop := ((hplays.delay_iff hzero).mpr hplays').2
    rw [Millis.add?_eq_none_iff.mpr hover] at hstop
    cases hstop
  | error e =>
    obtain ⟨index, raw, clock', hraw, hstep⟩ := stepLine_of_runLines_eq_error hrun
    obtain ⟨_, _, _, hok⟩ := stepLine_of_runLines_eq_ok h (List.mem_of_getElem? hraw)
    exact ⟨e, rfl, kind_of_stepLine_eq_error hx hok hstep⟩

end Later

/-! ## Running a source -/

section Sources

variable {fs : FileSystem} {options : Options} {source first second : Text} {e : LocatedFault}

/-- How the directives of a source text are expanded. -/
def sourceExpander (fs : FileSystem) (options : Options) : Expander :=
  expander fs none options.base
    (compileFileFrames fs options.maxDepth options.maxDepth IncludeChain.empty)

/-- What the lines of a source text send, before the script is closed. -/
def runSource (fs : FileSystem) (options : Options) (source : Text) :
    Except LocatedFault (List Frame × Millis) :=
  runLines none (sourceExpander fs options) 1 (Text.lines source) 0

theorem agrees_sourceExpander (fs : FileSystem) (options : Options) :
    Agrees (sourceExpander fs options)
      (Script.follow fs options.base (flattenFile fs options.maxDepth IncludeChain.empty)) :=
  agrees_expander fun _ _ => compileFileFrames_eq_ok_iff

theorem compile_eq_runSource (fs : FileSystem) (options : Options) (source : Text) :
    compile fs options source =
      (runSource fs options source >>= fun result => finish (close result.1 result.2)) := by
  unfold compile compileSource
  rw [bind_assoc]
  rfl

theorem compile_eq_ok_iff_runSource {t : Timeline} :
    compile fs options source = .ok t ↔
      ∃ played stop, runSource fs options source = .ok (played, stop) ∧ played ≠ [] ∧
        t.frames = played ++ [.neutral stop] := by
  rw [compile_eq_runSource, bind_eq_ok_iff]
  simp only [Prod.exists, finish_eq_ok_iff]
  refine exists_congr fun played => exists_congr fun stop => and_congr_right fun _ => ?_
  by_cases hne : played = []
  · subst hne
    simp [t.ne_nil]
  · simp [close_of_ne_nil hne, hne]

/-- What a script compiles to, less its last frame, is what its lines send. -/
theorem runSource_of_compile {t : Timeline} (h : compile fs options source = .ok t) :
    runSource fs options source = .ok (t.frames.dropLast, t.duration) ∧ t.frames.dropLast ≠ [] ∧
      t.frames = t.frames.dropLast ++ [.neutral t.duration] := by
  obtain ⟨played, stop, hrun, hne, hframes⟩ := compile_eq_ok_iff_runSource.mp h
  have hduration : t.duration = stop := Timeline.duration_of_frames_eq_concat hframes
  have hplayed : t.frames.dropLast = played := by rw [hframes, List.dropLast_concat]
  rw [hduration, hplayed]
  exact ⟨hrun, hne, hframes⟩

/-- Lines that send something compile to what they send, and the rest after it. -/
theorem exists_compile_of_runSource {played : List Frame} {stop : Millis}
    (h : runSource fs options source = .ok (played, stop)) (hne : played ≠ []) :
    ∃ t, compile fs options source = .ok t ∧ t.frames = played ++ [.neutral stop] := by
  obtain ⟨bodies, -, hplays⟩ := (runLines_eq_ok_iff (agrees_sourceExpander fs options)).mp h
  have hordered : Ordered (played ++ [.neutral stop]) :=
    Compiles.ordered ⟨played, stop, hplays, (close_of_ne_nil hne stop).symm⟩
  let t : Timeline := ⟨played ++ [.neutral stop], List.concat_ne_nil _ _, hordered⟩
  exact ⟨t, compile_eq_ok_iff_runSource.mpr ⟨played, stop, h, hne, rfl⟩, rfl⟩

theorem runSource_of_refused (h : compile fs options source = .error e)
    (hcode : e.fault.code ≠ "E3001".toList) : runSource fs options source = .error e := by
  rw [compile_eq_runSource] at h
  rcases bind_eq_error_iff.mp h with hrun | ⟨⟨played, stop⟩, hrun, hfinish⟩
  · exact hrun
  · obtain ⟨bodies, -, hplays⟩ := (runLines_eq_ok_iff (agrees_sourceExpander fs options)).mp hrun
    rw [finish_error_of_compiles ⟨played, stop, hplays, rfl⟩ hfinish] at hcode
    exact absurd rfl hcode

theorem runSource_of_empty (h : compile fs options source = .error e)
    (hcode : e.fault.code = "E3001".toList) : runSource fs options source = .ok ([], 0) := by
  have hkind := (Fault.code_eq_iff (k := .empty)).mp hcode
  rcases compile_eq_error_iff.mp h with hsource | ⟨frames, hsource, hfinish⟩
  · exact absurd hkind (kind_ne_empty_of_compileSource_eq_error hsource)
  · obtain ⟨played, stop, hrun, rfl⟩ := compileSource_eq_ok_iff.mp hsource
    obtain ⟨bodies, -, hplays⟩ := (runLines_eq_ok_iff (agrees_sourceExpander fs options)).mp hrun
    have hnil := (finish_eq_error_of_ordered (Compiles.ordered ⟨played, stop, hplays, rfl⟩) hfinish).1
    have hplayed : played = [] := by
      by_contra hne
      rw [close_of_ne_nil hne] at hnil
      exact List.concat_ne_nil _ _ hnil
    subst hplayed
    exact runLines_silent (agrees_sourceExpander fs options) hrun 1 0

/-- The lines of a script and of the one after it run one after the other. -/
theorem runSource_append (fs : FileSystem) (options : Options) (first second : Text) :
    runSource fs options (first ++ '\n' :: second) =
      (runSource fs options first >>= fun start =>
        runLines none (sourceExpander fs options) (1 + (Text.pieces '\n' first).length)
          (Text.lines second) start.2 >>= fun rest => pure (start.1 ++ rest.1, rest.2)) := by
  unfold runSource
  rw [Text.lines_append, runLines_append, List.length_map,
    runLines_map_dropReturn (Text.pieces_ne_nil '\n' first)]
  rfl

theorem runSource_append_of_ok {start : List Frame × Millis}
    (h : runSource fs options first = .ok start) (second : Text) :
    runSource fs options (first ++ '\n' :: second) =
      (runLines none (sourceExpander fs options) (1 + (Text.pieces '\n' first).length)
        (Text.lines second) start.2 >>= fun rest => pure (start.1 ++ rest.1, rest.2)) := by
  rw [runSource_append, h]
  rfl

/-- What the first script is refused for, both are. -/
theorem compile_append_of_refused (h : compile fs options first = .error e)
    (hcode : e.fault.code ≠ "E3001".toList) (second : Text) :
    compile fs options (first ++ '\n' :: second) = .error e := by
  rw [compile_eq_runSource, runSource_append, runSource_of_refused h hcode]
  rfl

/-- The second script starts when the first one would rest. -/
theorem compile_append_of_ok {f g : Timeline} (hf : compile fs options first = .ok f)
    (hg : compile fs options second = .ok g)
    (hfits : f.duration.toNat + g.duration.toNat < UInt32.size) :
    ∃ t, compile fs options (first ++ '\n' :: second) = .ok t ∧
      t.frames = f.frames.dropLast ++ g.frames.map (Frame.later f.duration) := by
  obtain ⟨hfirst, hne, -⟩ := runSource_of_compile hf
  obtain ⟨hsecond, -, hframes⟩ := runSource_of_compile hg
  have hrun : runSource fs options (first ++ '\n' :: second) =
      .ok (f.frames.dropLast ++ g.frames.dropLast.map (Frame.later f.duration),
        f.duration + g.duration) := by
    rw [runSource_append_of_ok hfirst,
      runLines_later (agrees_sourceExpander fs options) hsecond hfits]
    rfl
  obtain ⟨t, ht, hconcat⟩ :=
    exists_compile_of_runSource hrun (List.append_ne_nil_of_left_ne_nil hne _)
  refine ⟨t, ht, ?_⟩
  have hmap : g.frames.map (Frame.later f.duration) =
      g.frames.dropLast.map (Frame.later f.duration) ++ [.neutral (f.duration + g.duration)] := by
    conv_lhs => rw [hframes]
    simp
  rw [hconcat, hmap, List.append_assoc]

theorem compile_append_of_overrun {f g : Timeline} (hf : compile fs options first = .ok f)
    (hg : compile fs options second = .ok g)
    (hover : UInt32.size ≤ f.duration.toNat + g.duration.toNat) :
    ∃ e, compile fs options (first ++ '\n' :: second) = .error e ∧
      e.fault.kind = .invalidDuration := by
  have hfirst := (runSource_of_compile hf).1
  have hsecond := (runSource_of_compile hg).1
  obtain ⟨e, hrun, hkind⟩ := runLines_overrun (agrees_sourceExpander fs options) hsecond hover
    (1 + (Text.pieces '\n' first).length)
  refine ⟨e, ?_, hkind⟩
  rw [compile_eq_runSource, runSource_append_of_ok hfirst, hrun]
  rfl

theorem compile_append_of_empty (h : compile fs options second = .error e)
    (hcode : e.fault.code = "E3001".toList) (first : Text) :
    compile fs options (first ++ '\n' :: second) = compile fs options first := by
  have hsilent := runLines_silent (agrees_sourceExpander fs options) (runSource_of_empty h hcode)
  rw [compile_eq_runSource, compile_eq_runSource]
  cases hrun : runSource fs options first with
  | error e =>
    rw [runSource_append, hrun]
    rfl
  | ok start =>
    rw [runSource_append_of_ok hrun, hsilent]
    show finish (close (start.1 ++ []) start.2) = finish (close start.1 start.2)
    rw [List.append_nil]

theorem compile_append_of_empty_of_ok {g : Timeline} (h : compile fs options first = .error e)
    (hcode : e.fault.code = "E3001".toList) (hg : compile fs options second = .ok g) :
    compile fs options (first ++ '\n' :: second) = .ok g := by
  obtain ⟨hsecond, hne, hframes⟩ := runSource_of_compile hg
  refine compile_eq_ok_iff_runSource.mpr ⟨_, _, ?_, hne, hframes⟩
  rw [runSource_append_of_ok (runSource_of_empty h hcode),
    runLines_renumbered (agrees_sourceExpander fs options) hsecond]
  rfl

end Sources

/-- **A script and the one after it.** Two scripts, one on the lines after the other, are refused
for what the first one is refused for, unless that is only that it sends nothing. If both compile,
together they send what the first one sends and, where it would rest, what the second one sends;
they are refused for a duration exactly if their times together leave the range of a time. A script
that sends nothing can be left out. -/
theorem compile_concatenation (fs : FileSystem) (options : Options) (first second : Text) :
    (∀ e, compile fs options first = .error e → e.fault.code ≠ "E3001".toList →
      compile fs options (first ++ '\n' :: second) = .error e) ∧
    (∀ f g, compile fs options first = .ok f → compile fs options second = .ok g →
      (f.duration.toNat + g.duration.toNat ≤ 2 ^ 32 - 1 →
        ∃ t, compile fs options (first ++ '\n' :: second) = .ok t ∧
          t.frames = f.frames.dropLast ++ g.frames.map (Frame.later f.duration) ∧
          ∀ frame ∈ g.frames, (frame.later f.duration).time.toNat =
            f.duration.toNat + frame.time.toNat) ∧
      (2 ^ 32 - 1 < f.duration.toNat + g.duration.toNat →
        ∃ e, compile fs options (first ++ '\n' :: second) = .error e ∧
          e.fault.code = "E1004".toList)) ∧
    (∀ e, compile fs options second = .error e → e.fault.code = "E3001".toList →
      compile fs options (first ++ '\n' :: second) = compile fs options first) ∧
    ∀ e g, compile fs options first = .error e → e.fault.code = "E3001".toList →
      compile fs options second = .ok g →
        compile fs options (first ++ '\n' :: second) = .ok g := by
  have hsize : UInt32.size = 2 ^ 32 := rfl
  refine ⟨fun e h hcode => compile_append_of_refused h hcode second, fun f g hf hg => ⟨?_, ?_⟩,
    fun e h hcode => compile_append_of_empty h hcode first,
    fun e g h hcode hg => compile_append_of_empty_of_ok h hcode hg⟩
  · intro hfits
    obtain ⟨t, ht, hframes⟩ := compile_append_of_ok hf hg (by omega)
    refine ⟨t, ht, hframes, fun frame hframe => Frame.toNat_time_later ?_⟩
    have hlast := UInt32.le_iff_toNat_le.mp (Timeline.time_le_duration hframe)
    omega
  · intro hover
    obtain ⟨e, he, hkind⟩ := compile_append_of_overrun hf hg (by omega)
    exact ⟨e, he, (Fault.code_eq_iff (k := .invalidDuration)).mpr hkind⟩

/-- Include paths start in the root directory. -/
def rootOptions : Options := ⟨some ⟨[]⟩, 10⟩

/-- Two scripts that include a third one, then a script that is refused before an include that
leads nowhere, one that is too long to be followed by anything, and one that sends nothing. -/
theorem compile_concatenation_taps :
    (∃ f g t, compile nestedScripts.fileSystem rootOptions "A,100\n@tap\r".toList = .ok f ∧
      compile nestedScripts.fileSystem rootOptions "@tap\nX,30".toList = .ok g ∧
      f.duration.toNat + g.duration.toNat = 230 ∧
      compile nestedScripts.fileSystem rootOptions
        ("A,100\n@tap\r".toList ++ '\n' :: "@tap\nX,30".toList) = .ok t ∧
      t.frames = f.frames.dropLast ++ g.frames.map (Frame.later f.duration)) ∧
    compile nestedScripts.fileSystem rootOptions
        ("A,1\nJUMP,1".toList ++ '\n' :: "@nowhere".toList) =
      .error ⟨.unknownToken "JUMP".toList "JUMP".toList, 2, none⟩ ∧
    (∃ e, compile nestedScripts.fileSystem rootOptions
        ("A,4294967295".toList ++ '\n' :: "B,1".toList) = .error e ∧
      e.fault.code = "E1004".toList) ∧
    compile nestedScripts.fileSystem rootOptions ("B,50".toList ++ '\n' :: "@notes".toList) =
      compile nestedScripts.fileSystem rootOptions "B,50".toList ∧
    ∃ g, compile nestedScripts.fileSystem rootOptions
      ("@notes".toList ++ '\n' :: "B,50".toList) = .ok g := by
  have hfirst : (compile nestedScripts.fileSystem rootOptions "A,100\n@tap\r".toList).map
      Timeline.duration = .ok 150 := by decide +kernel
  have hsecond : (compile nestedScripts.fileSystem rootOptions "@tap\nX,30".toList).map
      Timeline.duration = .ok 80 := by decide +kernel
  have hlong : (compile nestedScripts.fileSystem rootOptions "A,4294967295".toList).map
      Timeline.duration = .ok 4294967295 := by decide +kernel
  have hshort : (compile nestedScripts.fileSystem rootOptions "B,1".toList).map
      Timeline.duration = .ok 1 := by decide +kernel
  have hrefused : compile nestedScripts.fileSystem rootOptions "A,1\nJUMP,1".toList =
      .error ⟨.unknownToken "JUMP".toList "JUMP".toList, 2, none⟩ := by decide +kernel
  have hnotes : compile nestedScripts.fileSystem rootOptions "@notes".toList =
      .error ⟨.noFrames, 0, none⟩ := by decide +kernel
  have hpress : (compile nestedScripts.fileSystem rootOptions "B,50".toList).map
      Timeline.duration = .ok 50 := by decide +kernel
  obtain ⟨f, hf, hfd⟩ := map_eq_ok_iff.mp hfirst
  obtain ⟨g, hg, hgd⟩ := map_eq_ok_iff.mp hsecond
  obtain ⟨long, hlong, hlongd⟩ := map_eq_ok_iff.mp hlong
  obtain ⟨short, hshort, hshortd⟩ := map_eq_ok_iff.mp hshort
  obtain ⟨press, hpress, -⟩ := map_eq_ok_iff.mp hpress
  have htotal : f.duration.toNat + g.duration.toNat = 230 := by
    rw [← hfd, ← hgd]
    decide
  have hover : 2 ^ 32 - 1 < long.duration.toNat + short.duration.toNat := by
    rw [← hlongd, ← hshortd]
    decide
  refine ⟨?_, ?_, ?_, ?_, press, ?_⟩
  · obtain ⟨t, ht, hframes, -⟩ :=
      ((compile_concatenation _ _ _ _).2.1 f g hf hg).1 (by omega)
    exact ⟨f, g, t, hf, hg, htotal, ht, hframes⟩
  · exact (compile_concatenation _ _ _ _).1 _ hrefused (by decide)
  · exact ((compile_concatenation _ _ _ _).2.1 long short hlong hshort).2 hover
  · exact (compile_concatenation _ _ _ _).2.2.1 _ hnotes rfl
  · exact (compile_concatenation _ _ _ _).2.2.2 _ press hnotes rfl hpress

end Script

end PadScript
