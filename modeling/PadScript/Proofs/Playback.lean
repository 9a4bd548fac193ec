import PadScript.Proofs.Flattening

/-!
# Playing a compiled script

A player looks up the last frame whose time has come. `Timeline.indexAt` is the place of that frame,
and in a timeline the place is settled by the frame itself and the one after it
(`Timeline.indexAt_eq`).

The frames of a compiled script start where the inputs before them end, so at every moment before
the end exactly one input spans the moment, and its frame is the one that is sent
(`Performs.replays`). An input that takes no time spans no moment.
-/

namespace PadScript

namespace Timeline

variable {t : Timeline} {elapsed : Millis} {looped : Bool}

/-- The index of the frame that is sent `elapsed` after the start. -/
def indexAt (t : Timeline) (elapsed : Millis) (looped : Bool) : Nat :=
  (t.frames.takeWhile fun f => f.time ≤ t.moment elapsed looped).length - 1

theorem getElem?_indexAt (t : Timeline) (elapsed : Millis) (looped : Bool) :
    t.frames[t.indexAt elapsed looped]? = some (t.frameAt elapsed looped) := by
  unfold indexAt frameAt
  obtain ⟨rest, hrest⟩ :=
    List.takeWhile_prefix (l := t.frames) fun f => decide (f.time ≤ t.moment elapsed looped)
  simp only
  generalize t.frames.takeWhile (fun f => decide (f.time ≤ t.moment elapsed looped)) = due at *
  cases hlast : due.getLast? with
  | none =>
    -- no time has come yet: the first frame is sent
    rw [List.getLast?_eq_none_iff.mp hlast, Option.getD_none, List.length_nil, Nat.zero_sub,
      ← List.head?_eq_getElem?, first, List.head?_eq_some_head]
  | some frame =>
    rw [List.getLast?_eq_getElem?] at hlast
    have hlt := (List.getElem?_eq_some_iff.mp hlast).1
    rw [← hrest, List.getElem?_append_left hlt, hlast, Option.getD_some]

theorem frameAt_eq_of_indexAt {i : Nat} {frame : Frame} (h : t.indexAt elapsed looped = i)
    (hframe : t.frames[i]? = some frame) : t.frameAt elapsed looped = frame := by
  have hat := getElem?_indexAt t elapsed looped
  rw [h, hframe] at hat
  exact (Option.some.inj hat).symm

theorem getElem?_duration (t : Timeline) : ∃ frame, t.frames[t.size - 1]? = some frame ∧
    frame = t.last ∧ frame.time = t.duration := by
  refine ⟨t.last, ?_, rfl, rfl⟩
  rw [size, ← List.getLast?_eq_getElem?, last, List.getLast?_eq_some_getLast]

/-- A frame whose time has come is sent if the time of the next one has not: those before it are
no later, so their times have come as well. -/
theorem indexAt_eq {i : Nat} {frame : Frame} (hframe : t.frames[i]? = some frame)
    (hcome : frame.time ≤ t.moment elapsed looped)
    (hnext : ∀ next, t.frames[i + 1]? = some next → t.moment elapsed looped < next.time) :
    t.indexAt elapsed looped = i := by
  obtain ⟨hi, rfl⟩ := List.getElem?_eq_some_iff.mp hframe
  have hbefore : ∀ f ∈ t.frames.take (i + 1), f.time ≤ t.moment elapsed looped := by
    intro f hf
    obtain ⟨j, hj, rfl⟩ := List.mem_take_iff_getElem.mp hf
    rcases Nat.lt_or_eq_of_le (show j ≤ i by omega) with hlt | rfl
    · exact UInt32.le_trans (List.pairwise_iff_getElem.mp t.ordered j i _ hi hlt) hcome
    · exact hcome
  have hdue : t.frames.takeWhile (fun f => decide (f.time ≤ t.moment elapsed looped)) =
      t.frames.take (i + 1) := by
    conv_lhs => rw [← List.take_append_drop (i + 1) t.frames]
    rw [List.takeWhile_append_of_pos (by simpa using hbefore)]
    have hstop : (t.frames.drop (i + 1)).takeWhile
        (fun f => decide (f.time ≤ t.moment elapsed looped)) = [] := by
      cases hdrop : t.frames.drop (i + 1) with
      | nil => rfl
      | cons next rest =>
        have hat : t.frames[i + 1]? = some next := by
          rw [← List.head?_drop, hdrop, List.head?_cons]
        rw [List.takeWhile_cons_of_neg]
        simpa using hnext next hat
    rw [hstop, List.append_nil]
  unfold indexAt
  rw [hdue, List.length_take]
  omega

theorem moment_looped (h : 0 < t.duration) (elapsed : Millis) :
    t.moment elapsed true = elapsed % t.duration := by
  unfold moment
  rw [Bool.true_and, if_pos (decide_eq_true h)]

/-- Looked up in a loop is looked up once, at the moment of the loop. -/
theorem frameAt_looped (t : Timeline) (elapsed : Millis) :
    t.frameAt elapsed true = t.frameAt (t.moment elapsed true) false := rfl

end Timeline

namespace Script

/-! ## The inputs of a source -/

/-- The input lines of a source text, directives aside. -/
def inputLines (source : Text) : List Text :=
  (Text.lines source).filterMap fun raw =>
    match Line.classify raw with
    | .input body => some body
    | _ => none

/-- No line of the source text is a directive. -/
def Undirected (source : Text) : Prop :=
  ∀ raw ∈ Text.lines source, ∀ target, Line.classify raw ≠ .directive target

instance (source : Text) : Decidable (Undirected source) :=
  decidable_of_iff (∀ raw ∈ Text.lines source,
      (match Line.classify raw with | .directive _ => false | _ => true) = true) <| by
    refine forall₂_congr fun raw _ => ?_
    cases Line.classify raw with
    | skip => simp
    | directive target => simp
    | input body => simp

theorem flattenLines_eq_filterMap (follow : Text → Option (List Text)) {raws : List Text}
    (h : ∀ raw ∈ raws, ∀ target, Line.classify raw ≠ .directive target) :
    flattenLines follow raws = some (raws.filterMap fun raw =>
      match Line.classify raw with
      | .input body => some body
      | _ => none) := by
  induction raws with
  | nil => rfl
  | cons raw rest ih =>
    have hrest := ih fun raw hraw => h raw (List.mem_cons_of_mem _ hraw)
    refine flattenLines_cons_eq_some_iff.mpr ?_
    unfold lineBodies
    cases hline : Line.classify raw with
    | skip => exact ⟨[], _, rfl, hrest, by simp [hline]⟩
    | directive target => exact absurd hline (h raw List.mem_cons_self target)
    | input body => exact ⟨[body], _, rfl, hrest, by simp [hline]⟩

/-- A source text without directives compiles to what its input lines send. -/
theorem compile_undirected_eq_ok_iff {fs : FileSystem} {options : Options} {source : Text}
    {t : Timeline} (h : Undirected source) :
    compile fs options source = .ok t ↔ Compiles (inputLines source) t.frames := by
  rw [compile_eq_ok_iff, compileSource_eq_ok_iff_flattenLines
    (agrees_expander fun _ _ => compileFileFrames_eq_ok_iff), flattenLines_eq_filterMap _ h]
  simp only [Option.some_inj, exists_eq_left']
  rfl

/-! ## The spans of inputs -/

/-- The time that the inputs take together. -/
def totalTime (inputs : List Input) : Nat := startTime inputs inputs.length

/-- The input with an index is under way at a moment: it has started and has not ended. -/
def Spans (inputs : List Input) (i now : Nat) : Prop :=
  ∃ input, inputs[i]? = some input ∧ startTime inputs i ≤ now ∧
    now < startTime inputs i + input.duration.toNat

theorem startTime_succ {inputs : List Input} {i : Nat} {input : Input}
    (h : inputs[i]? = some input) :
    startTime inputs (i + 1) = startTime inputs i + input.duration.toNat := by
  unfold startTime
  rw [List.take_add_one, h, List.map_append, List.sum_append]
  simp

theorem startTime_le {inputs : List Input} {i j : Nat} (h : i ≤ j) :
    startTime inputs i ≤ startTime inputs j := by
  obtain ⟨k, rfl⟩ := Nat.exists_eq_add_of_le h
  unfold startTime
  rw [List.take_add, List.map_append, List.sum_append]
  omega

theorem exists_spans {inputs : List Input} {now : Nat} (h : now < totalTime inputs) :
    ∃ i, Spans inputs i now := by
  unfold totalTime at h
  induction inputs generalizing now with
  | nil => simp at h
  | cons input inputs ih =>
    rw [List.length_cons, startTime_cons_succ] at h
    by_cases hfirst : now < input.duration.toNat
    · exact ⟨0, input, rfl, by simp, by simpa using hfirst⟩
    · have hrest : now - input.duration.toNat < startTime inputs inputs.length := by omega
      obtain ⟨i, other, hother, hstart, hend⟩ := ih hrest
      refine ⟨i + 1, other, hother, ?_, ?_⟩ <;> rw [startTime_cons_succ] <;> omega

theorem Spans.not_lt {inputs : List Input} {i j now : Nat} (hi : Spans inputs i now)
    (hj : Spans inputs j now) : ¬ i < j := by
  intro hlt
  obtain ⟨input, hinput, -, hend⟩ := hi
  obtain ⟨other, -, hstart, -⟩ := hj
  have hle : startTime inputs (i + 1) ≤ startTime inputs j := startTime_le hlt
  rw [startTime_succ hinput] at hle
  omega

theorem existsUnique_spans {inputs : List Input} {now : Nat} (h : now < totalTime inputs) :
    ∃! i, Spans inputs i now := by
  obtain ⟨i, hi⟩ := exists_spans h
  refine ⟨i, hi, fun j hj => ?_⟩
  have hij := hi.not_lt hj
  have hji := hj.not_lt hi
  omega

/-! ## Lookups -/

/-- What a player of the timeline sends, in terms of the inputs that it was compiled from. -/
structure Replays (inputs : List Input) (t : Timeline) : Prop where
  duration : t.duration.toNat = totalTime inputs
  /-- Before the end, one input is under way. -/
  under_way : ∀ elapsed : Millis, elapsed.toNat < totalTime inputs →
    ∃! i, Spans inputs i elapsed.toNat
  /-- The frame of the input that is under way is sent. -/
  once : ∀ (elapsed : Millis) (i : Nat), Spans inputs i elapsed.toNat →
    t.indexAt elapsed false = i ∧ ∃ input, inputs[i]? = some input ∧
      t.frameAt elapsed false = ⟨UInt32.ofNat (startTime inputs i), input.packet⟩
  /-- From the end on, the controller is at rest. -/
  ended : ∀ elapsed : Millis, totalTime inputs ≤ elapsed.toNat →
    t.indexAt elapsed false = inputs.length ∧ t.frameAt elapsed false = t.last ∧
      t.frameAt elapsed false = .neutral t.duration
  /-- A loop starts again at the end, and never sends the last frame. -/
  looped : 0 < totalTime inputs → ∀ elapsed : Millis,
    t.frameAt elapsed true = t.frameAt (elapsed % t.duration) false ∧
      t.indexAt elapsed true < inputs.length ∧ t.frameAt elapsed true ≠ t.last
  /-- A loop that takes no time is at rest. -/
  still : totalTime inputs = 0 → ∀ elapsed : Millis,
    t.frameAt elapsed true = t.last ∧ t.frameAt elapsed true = .neutral t.duration
  /-- An input that takes no time is never sent. -/
  momentary : ∀ (i : Nat) (input : Input), inputs[i]? = some input → input.duration = 0 →
    ∀ elapsed looped, t.indexAt elapsed looped ≠ i

section Performed

variable {inputs : List Input} {t : Timeline}

theorem Performs.time (h : Performs inputs t.frames) {i : Nat} {frame : Frame}
    (hframe : t.frames[i]? = some frame) : frame.time.toNat = startTime inputs i := by
  have hi := (List.getElem?_eq_some_iff.mp hframe).1
  have hlength := h.length
  rcases Nat.lt_or_eq_of_le (show i ≤ inputs.length by omega) with hlt | rfl
  · obtain ⟨_, hat, -, htime⟩ := h.frame i _ (List.getElem?_eq_getElem hlt)
    rw [hframe, Option.some_inj] at hat
    rwa [hat]
  · obtain ⟨_, hat, -, htime⟩ := h.rest
    rw [hframe, Option.some_inj] at hat
    rwa [hat]

theorem Performs.last (h : Performs inputs t.frames) :
    t.frames[inputs.length]? = some t.last ∧ t.last = .neutral t.duration ∧
      t.duration.toNat = totalTime inputs := by
  have hsize : t.size - 1 = inputs.length := by
    rw [Timeline.size, h.length, Nat.add_sub_cancel]
  obtain ⟨frame, hat, rfl, -⟩ := t.getElem?_duration
  rw [hsize] at hat
  obtain ⟨rest, hrest, hneutral, -⟩ := h.rest
  rw [hat, Option.some_inj] at hrest
  refine ⟨hat, ?_, h.time hat⟩
  rw [← hrest] at hneutral
  show t.last = ⟨t.last.time, .neutral⟩
  rw [← hneutral]

theorem Performs.indexAt_of_spans (h : Performs inputs t.frames) {elapsed : Millis}
    {looped : Bool} {i : Nat} (hi : Spans inputs i (t.moment elapsed looped).toNat) :
    t.indexAt elapsed looped = i := by
  obtain ⟨input, hinput, hstart, hend⟩ := hi
  obtain ⟨frame, hframe, -, htime⟩ := h.frame i input hinput
  refine Timeline.indexAt_eq hframe ?_ fun next hnext => ?_
  · rw [UInt32.le_iff_toNat_le]
    omega
  · rw [UInt32.lt_iff_toNat_lt, h.time hnext, startTime_succ hinput]
    exact hend

theorem Performs.indexAt_of_totalTime_le (h : Performs inputs t.frames) {elapsed : Millis}
    {looped : Bool} (hend : totalTime inputs ≤ (t.moment elapsed looped).toNat) :
    t.indexAt elapsed looped = inputs.length := by
  obtain ⟨hlast, -, hduration⟩ := h.last
  refine Timeline.indexAt_eq hlast ?_ fun next hnext => ?_
  · rw [UInt32.le_iff_toNat_le]
    exact hduration.trans_le hend
  · have hlt := (List.getElem?_eq_some_iff.mp hnext).1
    have hlength := h.length
    omega

theorem Performs.duration_pos (h : Performs inputs t.frames) (hpos : 0 < totalTime inputs) :
    0 < t.duration := by
  rw [UInt32.lt_iff_toNat_lt, h.last.2.2]
  exact hpos

theorem Performs.moment_lt (h : Performs inputs t.frames) (hpos : 0 < totalTime inputs)
    (elapsed : Millis) : (t.moment elapsed true).toNat < totalTime inputs := by
  rw [Timeline.moment_looped (h.duration_pos hpos), UInt32.toNat_mod, h.last.2.2]
  exact Nat.mod_lt _ hpos

/-- Played once, the frame of the input that is under way is sent. -/
theorem Performs.frameAt_of_spans (h : Performs inputs t.frames) {elapsed : Millis} {i : Nat}
    (hi : Spans inputs i elapsed.toNat) : t.indexAt elapsed false = i ∧
      ∃ input, inputs[i]? = some input ∧
        t.frameAt elapsed false = ⟨UInt32.ofNat (startTime inputs i), input.packet⟩ := by
  have hindex : t.indexAt elapsed false = i := h.indexAt_of_spans hi
  obtain ⟨input, hinput, -⟩ := hi
  obtain ⟨frame, hframe, hpacket, htime⟩ := h.frame i input hinput
  refine ⟨hindex, input, hinput, ?_⟩
  rw [Timeline.frameAt_eq_of_indexAt hindex hframe, ← htime, ← hpacket, UInt32.ofNat_toNat]

/-- From the end on, the last frame is sent. -/
theorem Performs.frameAt_of_totalTime_le (h : Performs inputs t.frames) {elapsed : Millis}
    {looped : Bool} (hend : totalTime inputs ≤ (t.moment elapsed looped).toNat) :
    t.frameAt elapsed looped = t.last ∧ t.frameAt elapsed looped = .neutral t.duration := by
  obtain ⟨hat, hrest, -⟩ := h.last
  have hframe := Timeline.frameAt_eq_of_indexAt (h.indexAt_of_totalTime_le hend) hat
  exact ⟨hframe, hframe.trans hrest⟩

/-- The frames that a loop sends start before the end, and the last one at the end. -/
theorem Performs.frameAt_looped_ne_last (h : Performs inputs t.frames)
    (hpos : 0 < totalTime inputs) (elapsed : Millis) :
    t.indexAt elapsed true < inputs.length ∧ t.frameAt elapsed true ≠ t.last := by
  have hlt := h.moment_lt hpos elapsed
  obtain ⟨i, hi⟩ := exists_spans hlt
  have hindex := h.indexAt_of_spans hi
  obtain ⟨input, hinput, hstart, -⟩ := hi
  obtain ⟨frame, hframe, -, htime⟩ := h.frame i input hinput
  refine ⟨?_, ?_⟩
  · rw [hindex]
    exact (List.getElem?_eq_some_iff.mp hinput).1
  · rw [Timeline.frameAt_eq_of_indexAt hindex hframe]
    rintro rfl
    have hduration : t.last.time.toNat = totalTime inputs := h.last.2.2
    omega

/-- No moment is under an input that takes no time. -/
theorem Performs.indexAt_ne (h : Performs inputs t.frames) {i : Nat} {input : Input}
    (hinput : inputs[i]? = some input) (hzero : input.duration = 0) (elapsed : Millis)
    (looped : Bool) : t.indexAt elapsed looped ≠ i := by
  intro hindex
  by_cases hlt : (t.moment elapsed looped).toNat < totalTime inputs
  · obtain ⟨j, hj⟩ := exists_spans hlt
    obtain rfl := hindex.symm.trans (h.indexAt_of_spans hj)
    obtain ⟨other, hother, hstart, hend⟩ := hj
    obtain rfl := Option.some.inj (hinput.symm.trans hother)
    rw [hzero, UInt32.toNat_zero] at hend
    omega
  · have hi := (List.getElem?_eq_some_iff.mp hinput).1
    rw [h.indexAt_of_totalTime_le (Nat.le_of_not_lt hlt)] at hindex
    omega

/-- A timeline that performs inputs replays them. -/
theorem Performs.replays (h : Performs inputs t.frames) : Replays inputs t where
  duration := h.last.2.2
  under_way elapsed := existsUnique_spans
  once elapsed i := h.frameAt_of_spans
  ended elapsed hend := ⟨h.indexAt_of_totalTime_le hend, h.frameAt_of_totalTime_le hend⟩
  looped hpos elapsed := by
    refine ⟨?_, h.frameAt_looped_ne_last hpos elapsed⟩
    rw [Timeline.frameAt_looped, Timeline.moment_looped (h.duration_pos hpos)]
  still hzero elapsed := h.frameAt_of_totalTime_le (hzero.trans_le (Nat.zero_le _))
  momentary i input hinput hzero := h.indexAt_ne hinput hzero

end Performed

/-- **What is compiled is what is played.** The timeline of a script without directives replays the
inputs that its lines are read as. -/
theorem replays_of_compile {fs : FileSystem} {options : Options} {source : Text} {t : Timeline}
    (h : compile fs options source = .ok t) (hplain : Undirected source) :
    ∃ inputs, Reads (inputLines source) inputs ∧ Replays inputs t := by
  have hcompiles := (compile_undirected_eq_ok_iff hplain).mp h
  obtain ⟨inputs, hreads, hperforms⟩ := (compiles_iff_performs t.ne_nil).mp hcompiles
  exact ⟨inputs, hreads, hperforms.replays⟩

/-- A script with inputs that take no time at its start, between others and at its end. -/
def momentaryScript : Text := "X,0\nA,100\n# hold\nB,0\nY,50\nHOME,0".toList

theorem replays_momentaryScript :
    ∃ t, compile (scriptTree []).fileSystem .default momentaryScript = .ok t ∧
      Undirected momentaryScript ∧
      ∃ inputs, Reads ["X,0".toList, "A,100".toList, "B,0".toList, "Y,50".toList, "HOME,0".toList]
        inputs ∧ Replays inputs t := by
  have hok : (compile (scriptTree []).fileSystem .default momentaryScript).isOk = true := by
    decide +kernel
  have hplain : Undirected momentaryScript := by decide +kernel
  have hlines : inputLines momentaryScript =
      ["X,0".toList, "A,100".toList, "B,0".toList, "Y,50".toList, "HOME,0".toList] := by
    decide +kernel
  cases hcompile : compile (scriptTree []).fileSystem .default momentaryScript with
  | error e => rw [hcompile] at hok; cases hok
  | ok t =>
    obtain ⟨inputs, hreads, hreplays⟩ := replays_of_compile hcompile hplain
    rw [hlines] at hreads
    exact ⟨t, rfl, hplain, inputs, hreads, hreplays⟩

end Script

end PadScript
