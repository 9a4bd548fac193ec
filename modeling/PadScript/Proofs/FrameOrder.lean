import Mathlib.Data.List.Chain
import PadScript.FrameTable
import PadScript.Proofs.Compiling
import PadScript.Recording

/-!
# Frames in order

Frames are checked by comparing neighbours, and the lookup and the tables rely on the order of any
two of them.

1. Frames of which no neighbours are out of order are in order as a whole
   (`Ordered.of_neighbours`).
2. The check is exact, and it names the first frame that breaks the order: the frames before that
   one are in order (`BreaksAt`). There is only one such frame (`DropsAt.unique`), so the fault
   tells where it is (`Timeline.ofFrames_eq_outOfOrder_iff`).
3. Frames, scripts, recordings and frame tables all become timelines through this check
   (`Timeline.Origin.timeline?_eq_some_iff`).
-/

namespace PadScript

variable {frames : List Frame} {k : Nat} {time previous : Millis}

/-! ## Neighbours -/

/-- Of any two frames, the one that stands first is not the later one. -/
def Ascending (frames : List Frame) : Prop :=
  ∀ (i j : Nat) (a b : Frame), i < j → frames[i]? = some a → frames[j]? = some b → a.time ≤ b.time

theorem ascending_iff_ordered : Ascending frames ↔ Ordered frames :=
  ⟨.of_getElem?, fun h _ _ _ _ => h.le_of_getElem?⟩

instance (frames : List Frame) : Decidable (Ascending frames) :=
  decidable_of_iff (Ordered frames) ascending_iff_ordered.symm

/-- Comparing neighbours is enough. -/
theorem Ordered.of_neighbours
    (h : ∀ (i : Nat) (a b : Frame), frames[i]? = some a → frames[i + 1]? = some b →
      a.time ≤ b.time) : Ordered frames := by
  have : Trans (fun a b : Frame => a.time ≤ b.time) (fun a b : Frame => a.time ≤ b.time)
      (fun a b : Frame => a.time ≤ b.time) := ⟨UInt32.le_trans⟩
  refine List.isChain_iff_pairwise.mp (List.isChain_iff_getElem.mpr fun i hi => ?_)
  exact h i _ _ (List.getElem?_eq_getElem (Nat.lt_of_succ_lt hi)) (List.getElem?_eq_getElem hi)

/-! ## The first frame that breaks the order -/

/-- The frame at place `k` is earlier than the frame before it, and all frames before it are in
order. -/
structure BreaksAt (frames : List Frame) (k : Nat) (time previous : Millis) : Prop where
  ascending : Ascending (frames.take k)
  pos : 0 < k
  before : (frames.map Frame.time)[k - 1]? = some previous
  here : (frames.map Frame.time)[k]? = some time
  lt : time < previous

theorem DropsAt.unique {times : List Millis} {k' : Nat} {time' previous' : Millis}
    (h : DropsAt times k previous time) (h' : DropsAt times k' previous' time') :
    k = k' ∧ previous = previous' ∧ time = time' := by
  have hk : k = k' := by
    -- the earlier of two drops would be among the places that the later one has in order
    rcases Nat.lt_trichotomy k k' with hlt | heq | hlt
    · exact absurd h.lt (UInt32.not_lt.mpr (h'.first k hlt _ _ h.before h.after))
    · exact heq
    · exact absurd h'.lt (UInt32.not_lt.mpr (h.first k' hlt _ _ h'.before h'.after))
  subst hk
  exact ⟨rfl, Option.some.inj (h.before.symm.trans h'.before),
    Option.some.inj (h.after.symm.trans h'.after)⟩

theorem breaksAt_iff_dropsAt :
    BreaksAt frames (k + 1) time previous ↔ DropsAt (frames.map Frame.time) k previous time := by
  constructor
  · intro h
    refine ⟨h.before, h.here, h.lt, fun j hj a b ha hb => ?_⟩
    rw [List.getElem?_map, Option.map_eq_some_iff] at ha hb
    obtain ⟨f, hf, rfl⟩ := ha
    obtain ⟨g, hg, rfl⟩ := hb
    refine h.ascending j (j + 1) f g (Nat.lt_succ_self j) ?_ ?_
    · rwa [List.getElem?_take_of_lt (by omega)]
    · rwa [List.getElem?_take_of_lt (by omega)]
  · intro h
    refine ⟨ascending_iff_ordered.mpr (.of_neighbours fun i a b ha hb => ?_), Nat.succ_pos k,
      h.before, h.after, h.lt⟩
    -- both neighbours stand before the break, so the later one is not the frame that breaks
    have hi : i < k := by
      by_contra hi
      rw [List.getElem?_take, if_neg (by omega)] at hb
      cases hb
    rw [List.getElem?_take_of_lt (by omega)] at ha hb
    refine h.first i hi a.time b.time ?_ ?_
    · rw [List.getElem?_map, ha, Option.map_some]
    · rw [List.getElem?_map, hb, Option.map_some]

theorem DropsAt.not_ordered (h : DropsAt (frames.map Frame.time) k previous time) :
    ¬ Ordered frames := by
  intro hordered
  have hbefore := h.before
  have hafter := h.after
  rw [List.getElem?_map, Option.map_eq_some_iff] at hbefore hafter
  obtain ⟨a, ha, rfl⟩ := hbefore
  obtain ⟨b, hb, rfl⟩ := hafter
  exact absurd h.lt (UInt32.not_lt.mpr (hordered.le_of_getElem? (Nat.lt_succ_self k) ha hb))

namespace Timeline

/-! ## The check -/

theorem ofFrames_eq_empty_iff : ofFrames frames = .error .empty ↔ frames = [] := by
  constructor
  · intro h
    by_contra hne
    by_cases hordered : Ordered frames
    · rw [ofFrames_of_ordered hne hordered] at h
      cases h
    · obtain ⟨k, previous, time, -, herror⟩ := ofFrames_of_not_ordered hordered
      rw [herror] at h
      cases h
  · rintro rfl
    rfl

theorem ofFrames_eq_outOfOrder_iff :
    ofFrames frames = .error (.outOfOrder k time previous) ↔ BreaksAt frames k time previous := by
  constructor
  · intro h
    have hordered : ¬ Ordered frames := by
      intro hordered
      have hne : frames ≠ [] := by
        rintro rfl
        cases h
      rw [ofFrames_of_ordered hne hordered] at h
      cases h
    obtain ⟨k', previous', time', hdrop, herror⟩ := ofFrames_of_not_ordered hordered
    rw [herror] at h
    cases h
    exact breaksAt_iff_dropsAt.mpr hdrop
  · intro h
    obtain ⟨j, rfl⟩ := Nat.exists_eq_succ_of_ne_zero (Nat.pos_iff_ne_zero.mp h.pos)
    have hdrop := breaksAt_iff_dropsAt.mp h
    obtain ⟨k', previous', time', hdrop', herror⟩ := ofFrames_of_not_ordered hdrop.not_ordered
    obtain ⟨rfl, rfl, rfl⟩ := hdrop.unique hdrop'
    exact herror

/-- What the result of the check must be for these frames. -/
structure Checked (frames : List Frame) (result : Except SequenceFault Timeline) : Prop where
  accepted : (∃ t : Timeline, result = .ok t ∧ t.frames = frames) ↔
    frames ≠ [] ∧ Ascending frames
  unchanged : ∀ t : Timeline, result = .ok t → t.frames = frames
  empty : result = .error .empty ↔ frames = []
  broken : frames ≠ [] → ¬ Ascending frames →
    ∃ k time previous, result = .error (.outOfOrder k time previous) ∧
      BreaksAt frames k time previous
  named : ∀ k time previous,
    result = .error (.outOfOrder k time previous) ↔ BreaksAt frames k time previous

theorem exists_frames_eq_iff :
    (∃ t : Timeline, t.frames = frames) ↔ frames ≠ [] ∧ Ascending frames := by
  constructor
  · rintro ⟨t, rfl⟩
    exact ⟨t.ne_nil, ascending_iff_ordered.mpr t.ordered⟩
  · rintro ⟨hne, hascending⟩
    exact ⟨⟨frames, hne, ascending_iff_ordered.mp hascending⟩, rfl⟩

theorem checked_ofFrames (frames : List Frame) : Checked frames (ofFrames frames) where
  accepted := by
    simp only [ofFrames_eq_ok_iff, and_self]
    exact exists_frames_eq_iff
  unchanged _ h := frames_of_ofFrames h
  empty := ofFrames_eq_empty_iff
  broken _ h := by
    obtain ⟨k, previous, time, hdrop, herror⟩ :=
      ofFrames_of_not_ordered (mt ascending_iff_ordered.mpr h)
    exact ⟨k + 1, time, previous, herror, breaksAt_iff_dropsAt.mpr hdrop⟩
  named _ _ _ := ofFrames_eq_outOfOrder_iff

end Timeline

/-! ## Recordings and frame tables -/

/-- The frames of a recording, whatever their order. -/
def Recording.frames? (json : Text) : Option (List Frame) := do
  let entries ← (entries (Utf8.encode json)).toOption
  (Recording.frames 0 entries).toOption

theorem Recording.load_eq_ok_iff {json : Text} {t : Timeline} :
    load json = .ok t ↔ frames? json = some t.frames := by
  unfold load timeline frames?
  simp only [bind_eq_ok_iff, mapError_eq_ok_iff, Timeline.ofFrames_eq_ok_iff, exists_eq_right',
    Option.bind_eq_bind, Option.bind_eq_some_iff, toOption_eq_some_iff]

theorem Recording.loadFile_eq_ok_iff {fs : FileSystem} {path : Path} {t : Timeline} :
    loadFile fs path = .ok t ↔ ((fs.readText path).toOption >>= frames?) = some t.frames := by
  unfold loadFile
  simp only [bind_eq_ok_iff, mapError_eq_ok_iff, load_eq_ok_iff, Option.bind_eq_bind,
    Option.bind_eq_some_iff, toOption_eq_some_iff]

/-- The frames of a table with nothing after it, whatever their order. -/
def FrameTable.frames? (json : Bytes) : Option (List Frame) := do
  let (found, rest) ← (FrameTable.frames json).toOption
  let _ ← (Json.finish rest).toOption
  return found

theorem FrameTable.parse_eq_ok_iff {json : Bytes} {t : Timeline} :
    parse json = .ok t ↔ frames? json = some t.frames := by
  unfold parse frames?
  simp only [bind_eq_ok_iff, mapError_eq_ok_iff, Timeline.ofFrames_eq_ok_iff,
    Option.bind_eq_bind, Option.bind_eq_some_iff, toOption_eq_some_iff, Option.pure_def,
    Option.some_inj]
  refine exists_congr fun ⟨found, rest⟩ => and_congr_right fun _ => ?_
  constructor
  · rintro ⟨t', rfl, last, hlast, h⟩
    cases h
    exact ⟨last, hlast, rfl⟩
  · rintro ⟨last, hlast, rfl⟩
    exact ⟨t, rfl, last, hlast, rfl⟩

theorem FrameTable.load_eq_ok_iff {json : Text} {t : Timeline} :
    load json = .ok t ↔ frames? (Utf8.encode json) = some t.frames :=
  mapError_eq_ok_iff.trans parse_eq_ok_iff

theorem FrameTable.loadFile_eq_ok_iff {fs : FileSystem} {path : Path} {t : Timeline} :
    loadFile fs path = .ok t ↔ ((fs.read path).toOption >>= frames?) = some t.frames := by
  unfold loadFile
  simp only [bind_eq_ok_iff, mapError_eq_ok_iff, parse_eq_ok_iff, Option.bind_eq_bind,
    Option.bind_eq_some_iff, toOption_eq_some_iff]

namespace Timeline

/-! ## Ways to a timeline -/

/-- What a timeline can be made from. -/
inductive Origin where
  | frames (frames : List Frame)
  | script (fs : FileSystem) (options : Script.Options) (source : Text)
  | scriptFile (fs : FileSystem) (options : Script.Options) (path : Path)
  | recording (json : Text)
  | recordingFile (fs : FileSystem) (path : Path)
  | table (json : Text)
  | tableFile (fs : FileSystem) (path : Path)

namespace Origin

/-- The frames that are read, whatever their order. -/
def frames? : Origin → Option (List Frame)
  | .frames frames => some frames
  | .script fs options source =>
    (Script.compileSource none (Script.expander fs none options.base
      (Script.compileFileFrames fs options.maxDepth options.maxDepth IncludeChain.empty))
      source).toOption
  | .scriptFile fs options path =>
    (Script.compileFileFrames fs options.maxDepth (options.maxDepth + 1) IncludeChain.empty
      path).toOption
  | .recording json => Recording.frames? json
  | .recordingFile fs path => (fs.readText path).toOption >>= Recording.frames?
  | .table json => FrameTable.frames? (Utf8.encode json)
  | .tableFile fs path => (fs.read path).toOption >>= FrameTable.frames?

/-- The timeline that is made. -/
def timeline? : Origin → Option Timeline
  | .frames frames => (ofFrames frames).toOption
  | .script fs options source => (Script.compile fs options source).toOption
  | .scriptFile fs options path => (Script.compileFile fs options path).toOption
  | .recording json => (Recording.load json).toOption
  | .recordingFile fs path => (Recording.loadFile fs path).toOption
  | .table json => (FrameTable.load json).toOption
  | .tableFile fs path => (FrameTable.loadFile fs path).toOption

/-- Every way to a timeline checks the frames that it has read, and passes them on. -/
theorem timeline?_eq_some_iff {origin : Origin} {t : Timeline} :
    origin.timeline? = some t ↔ origin.frames? = some t.frames := by
  cases origin with
  | frames frames =>
    rw [timeline?, frames?, toOption_eq_some_iff, ofFrames_eq_ok_iff, Option.some_inj, eq_comm]
  | script fs options source =>
    rw [timeline?, frames?, toOption_eq_some_iff, toOption_eq_some_iff, Script.compile_eq_ok_iff]
  | scriptFile fs options path =>
    rw [timeline?, frames?, toOption_eq_some_iff, toOption_eq_some_iff,
      Script.compileFile_eq_ok_iff]
  | recording json => rw [timeline?, frames?, toOption_eq_some_iff, Recording.load_eq_ok_iff]
  | recordingFile fs path =>
    rw [timeline?, frames?, toOption_eq_some_iff, Recording.loadFile_eq_ok_iff]
  | table json => rw [timeline?, frames?, toOption_eq_some_iff, FrameTable.load_eq_ok_iff]
  | tableFile fs path =>
    rw [timeline?, frames?, toOption_eq_some_iff, FrameTable.loadFile_eq_ok_iff]

theorem exists_timeline?_iff {origin : Origin} :
    (∃ t, origin.timeline? = some t ∧ t.frames = frames) ↔
      origin.frames? = some frames ∧ frames ≠ [] ∧ Ascending frames := by
  rw [← exists_frames_eq_iff, ← exists_and_left]
  refine exists_congr fun t => and_congr_left ?_
  rintro rfl
  exact timeline?_eq_some_iff

end Origin

/-- **The order of frames is checked exactly, and on every way to a timeline.** Frames are accepted,
unchanged, exactly if there are any and each is no later than all frames after it; otherwise the
fault is that there are none, or it names the first frame that is earlier than the one before it.
Whatever a timeline is made from, it is made exactly if the frames that are read pass this check. So
every timeline has frames, and they are in order. -/
theorem frame_order_verdicts :
    (∀ frames : List Frame, Checked frames (ofFrames frames)) ∧
    (∀ (origin : Origin) (frames : List Frame),
      (∃ t, origin.timeline? = some t ∧ t.frames = frames) ↔
        origin.frames? = some frames ∧ frames ≠ [] ∧ Ascending frames) ∧
    ∀ (origin : Origin) (t : Timeline), origin.timeline? = some t →
      t.frames ≠ [] ∧ Ascending t.frames := by
  refine ⟨checked_ofFrames, fun origin frames => Origin.exists_timeline?_iff,
    fun origin t h => ?_⟩
  obtain ⟨-, hne, hascending⟩ := Origin.exists_timeline?_iff.mp ⟨t, h, rfl⟩
  exact ⟨hne, hascending⟩

/-- Frames that go back twice, after two at the same time. -/
def unsteadyFrames : List Frame := [5, 5, 9, 4, 7, 2].map Frame.neutral

/-- A recording that starts late and has two frames at the same time. -/
def steadyJson : Text :=
  "[\x7b\"TimestampMs\":5,\"Packet\":\"AAAIgICAgAA=\"\x7d,".toList ++
    "\x7b\"TimestampMs\":5,\"Packet\":[0,4,8,128,128,128,128,0]\x7d]".toList

theorem frame_order_verdicts_unsteady :
    unsteadyFrames ≠ [] ∧ ¬ Ascending unsteadyFrames ∧
      (∃ k time previous, ofFrames unsteadyFrames = .error (.outOfOrder k time previous)) ∧
      BreaksAt unsteadyFrames 3 4 9 ∧ ofFrames unsteadyFrames = .error (.outOfOrder 3 4 9) ∧
      (∃ t, (Origin.recording steadyJson).timeline? = some t ∧ t.frames ≠ [] ∧
        Ascending t.frames) ∧
      ∃ t, (Origin.script .empty .default "A,5\nB,0".toList).timeline? = some t ∧ t.frames ≠ [] ∧
        Ascending t.frames := by
  have hne : unsteadyFrames ≠ [] := by decide
  have hnot : ¬ Ascending unsteadyFrames := by decide
  have hbreaks : BreaksAt unsteadyFrames 3 4 9 := ⟨by decide, by decide, rfl, rfl, by decide⟩
  have hrecording : (Origin.recording steadyJson).timeline?.isSome = true := by decide +kernel
  have hscript : (Origin.script .empty .default "A,5\nB,0".toList).timeline?.isSome = true := by
    decide +kernel
  obtain ⟨hchecked, -, hmade⟩ := frame_order_verdicts
  obtain ⟨k, time, previous, herror, -⟩ := (hchecked unsteadyFrames).broken hne hnot
  obtain ⟨t, ht⟩ := Option.isSome_iff_exists.mp hrecording
  obtain ⟨t', ht'⟩ := Option.isSome_iff_exists.mp hscript
  exact ⟨hne, hnot, ⟨k, time, previous, herror⟩, hbreaks,
    ((hchecked unsteadyFrames).named 3 4 9).mpr hbreaks, ⟨t, ht, hmade _ t ht⟩,
    ⟨t', ht', hmade _ t' ht'⟩⟩

end Timeline

end PadScript
