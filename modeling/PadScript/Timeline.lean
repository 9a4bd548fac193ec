import PadScript.Packet
import PadScript.Text.Numeral

/-!
# Timelines

A timeline is what a player plays: frames in the order of their times, at least one. Every
timeline is built by `Timeline.ofFrames`, which checks both, and names the first frame that goes
back in time otherwise.
-/

namespace PadScript

/-- A time or a duration, in milliseconds. -/
abbrev Millis := UInt32

/-- The sum of two times, unless it leaves the range of a time. -/
def Millis.add? (a b : Millis) : Option Millis :=
  if a.toNat + b.toNat < UInt32.size then some (a + b) else none

theorem Millis.add?_eq_some_iff {a b c : Millis} :
    Millis.add? a b = some c ↔ a.toNat + b.toNat = c.toNat := by
  unfold Millis.add?
  split
  · rename_i h
    rw [Option.some_inj, ← UInt32.toNat_inj, UInt32.toNat_add, Nat.mod_eq_of_lt h]
  · rename_i h
    have := c.toNat_lt_size
    constructor
    · intro h'; cases h'
    · intro h'; omega

/-- A report and the time at which it starts to be sent. -/
structure Frame where
  time : Millis
  packet : Packet
  deriving DecidableEq, Repr

/-- The frame that puts the controller to rest. -/
def Frame.neutral (time : Millis) : Frame := ⟨time, .neutral⟩

/-- Why a list of frames is no timeline. -/
inductive SequenceFault where
  | empty
  | outOfOrder (index : Nat) (time previous : Millis)
  deriving DecidableEq, Repr

/-- The text of a sequence fault. -/
def SequenceFault.message : SequenceFault → Text
  | .empty => "frame sequence is empty".toList
  | .outOfOrder index time previous =>
    "frame ".toList ++ Text.ofNat index ++ " goes back in time (".toList ++
      Text.ofNat time.toNat ++ "ms < ".toList ++ Text.ofNat previous.toNat ++ "ms)".toList

/-- No frame is followed by an earlier one. -/
def Ordered (frames : List Frame) : Prop :=
  frames.Pairwise fun a b => a.time ≤ b.time

/-- The first frame that is earlier than the frame before it, when the first frame of the list has
the given index. -/
def firstDrop (index : Nat) : List Frame → Option SequenceFault
  | a :: b :: rest =>
    if b.time < a.time then some (.outOfOrder (index + 1) b.time a.time)
    else firstDrop (index + 1) (b :: rest)
  | _ => none

theorem ordered_of_firstDrop_eq_none {frames : List Frame} {index : Nat}
    (h : firstDrop index frames = none) : Ordered frames := by
  induction frames generalizing index with
  | nil => exact List.Pairwise.nil
  | cons a rest ih =>
    cases rest with
    | nil => exact List.pairwise_singleton _ _
    | cons b rest =>
      unfold firstDrop at h
      split at h
      · cases h
      · rename_i hab
        have hle : a.time ≤ b.time := UInt32.not_lt.mp hab
        have hrest := ih h
        refine List.Pairwise.cons ?_ hrest
        intro c hc
        rcases List.mem_cons.mp hc with rfl | hc
        · exact hle
        · exact UInt32.le_trans hle ((List.pairwise_cons.mp hrest).1 c hc)

/-- At least one frame, in the order of their times. -/
structure Timeline where
  frames : List Frame
  ne_nil : frames ≠ []
  ordered : Ordered frames

namespace Timeline

instance : DecidableEq Timeline := fun a b =>
  if h : a.frames = b.frames then
    isTrue (by cases a; cases b; cases h; rfl)
  else isFalse fun hab => h (congrArg Timeline.frames hab)

/-- The timeline with these frames, or what is wrong with them. -/
def ofFrames (frames : List Frame) : Except SequenceFault Timeline :=
  if hne : frames = [] then .error .empty
  else
    match hd : firstDrop 0 frames with
    | some fault => .error fault
    | none => .ok ⟨frames, hne, ordered_of_firstDrop_eq_none hd⟩

theorem frames_of_ofFrames {frames : List Frame} {t : Timeline} (h : ofFrames frames = .ok t) :
    t.frames = frames := by
  unfold ofFrames at h
  split at h
  · cases h
  · split at h
    · cases h
    · cases h; rfl

/-- The number of frames. -/
def size (t : Timeline) : Nat := t.frames.length

theorem size_pos (t : Timeline) : 0 < t.size := List.length_pos_iff.mpr t.ne_nil

/-- The first frame. -/
def first (t : Timeline) : Frame := t.frames.head t.ne_nil

/-- The frame that stays when playback has ended. -/
def last (t : Timeline) : Frame := t.frames.getLast t.ne_nil

/-- The time at which the last frame starts. -/
def duration (t : Timeline) : Millis := t.last.time

/-- The moment of the timeline that is played `elapsed` after the start: a looped timeline starts
again when it reaches its last frame. -/
def moment (t : Timeline) (elapsed : Millis) (looped : Bool) : Millis :=
  if looped && 0 < t.duration then elapsed % t.duration else elapsed

/-- The frame that is sent `elapsed` after the start: the last one whose time has come, or the
first one before that. -/
def frameAt (t : Timeline) (elapsed : Millis) (looped : Bool) : Frame :=
  let now := t.moment elapsed looped
  ((t.frames.takeWhile fun f => f.time ≤ now).getLast?).getD t.first

end Timeline

end PadScript
