import Mathlib.Order.Bounds.Basic
import PadScript.Proofs.Playback

/-!
# Looking up frames

The frame that is sent is the one with the greatest index among those whose time has come, or the
first one if there is none.

1. Frames are in the order of their times, so those whose time has come stand before all others
   (`Timeline.isDue_iff_lt`): however often times repeat and however late the first one is, their
   number settles the lookup.
2. A search that halves the range finds that number (`bisect_eq`), so it finds the frame
   (`Timeline.search_eq`).
-/

namespace PadScript

/-! ## Search by halving -/

/-- The first index from `low` on, and below `high`, that does not pass, or `high`; the indices that
pass stand before those that do not. -/
def bisect (passes : Nat → Bool) (low high : Nat) : Nat :=
  if low < high then
    let middle := (low + high) / 2
    if passes middle then bisect passes (middle + 1) high else bisect passes low middle
  else low
termination_by high - low

/-- If those below `count` pass, the search ends at `count`, because it stays in range. -/
theorem bisect_eq {passes : Nat → Bool} {count low high : Nat}
    (h : ∀ i, low ≤ i → i < high → (passes i = true ↔ i < count)) (hlow : low ≤ count)
    (hhigh : count ≤ high) : bisect passes low high = count := by
  fun_induction bisect passes low high with
  | case1 low high hlt middle hpasses ih =>
    have hmiddle : middle < count := (h middle (by omega) (by omega)).mp hpasses
    exact ih (fun i hi => h i (by omega)) hmiddle hhigh
  | case2 low high hlt middle hpasses ih =>
    have hmiddle : ¬ middle < count := fun hc => hpasses ((h middle (by omega) (by omega)).mpr hc)
    exact ih (fun i hi hi' => h i hi (by omega)) hlow (by omega)
  | case3 low high hlt => omega

/-! ## Frames whose time has come -/

/-- In the order of times, the frames whose time has come are the first ones. -/
theorem Ordered.lt_length_takeWhile_iff {frames : List Frame} (h : Ordered frames) (now : Millis)
    (i : Nat) :
    i < (frames.takeWhile fun f => f.time ≤ now).length ↔
      ∃ frame, frames[i]? = some frame ∧ frame.time ≤ now := by
  induction frames generalizing i with
  | nil => simp
  | cons first rest ih =>
    obtain ⟨hfirst, hrest⟩ := List.pairwise_cons.mp h
    by_cases hcome : first.time ≤ now
    · rw [List.takeWhile_cons_of_pos (by simpa using hcome)]
      cases i with
      | zero => simp [hcome]
      | succ i => simpa using ih hrest i
    · -- no later frame is earlier than the first one
      have hnone : ∀ frame ∈ first :: rest, ¬ frame.time ≤ now := by
        intro frame hframe hle
        rcases List.mem_cons.mp hframe with rfl | hframe
        · exact hcome hle
        · exact hcome (UInt32.le_trans (hfirst frame hframe) hle)
      rw [List.takeWhile_cons_of_neg (by simpa using hcome)]
      refine iff_of_false (Nat.not_lt_zero i) ?_
      rintro ⟨frame, hframe, hle⟩
      exact hnone frame (List.mem_of_getElem? hframe) hle

namespace Timeline

variable {t : Timeline} {now : Millis}

/-- There is a frame with this index, and its time has come. -/
def IsDue (t : Timeline) (now : Millis) (i : Nat) : Prop :=
  ∃ frame, t.frames[i]? = some frame ∧ frame.time ≤ now

/-- The number of frames whose time has come. -/
def dueCount (t : Timeline) (now : Millis) : Nat :=
  (t.frames.takeWhile fun f => f.time ≤ now).length

theorem isDue_iff_lt {i : Nat} : t.IsDue now i ↔ i < t.dueCount now :=
  (t.ordered.lt_length_takeWhile_iff now i).symm

theorem dueCount_le (t : Timeline) (now : Millis) : t.dueCount now ≤ t.size :=
  (List.takeWhile_prefix _).length_le

theorem dueCount_mono {later : Millis} (h : now ≤ later) : t.dueCount now ≤ t.dueCount later := by
  by_contra hlt
  rw [Nat.not_le] at hlt
  obtain ⟨frame, hframe, hcome⟩ := isDue_iff_lt.mpr hlt
  exact Nat.lt_irrefl _ (isDue_iff_lt.mp ⟨frame, hframe, UInt32.le_trans hcome h⟩)

/-- The number of frames whose time has come, found by halving. -/
def search (t : Timeline) (now : Millis) : Nat :=
  bisect (fun i => t.frames[i]?.any fun f => f.time ≤ now) 0 t.size

theorem search_eq (t : Timeline) (now : Millis) : t.search now = t.dueCount now := by
  refine bisect_eq (fun i _ _ => ?_) (Nat.zero_le _) (t.dueCount_le now)
  rw [← isDue_iff_lt, Option.any_eq_true]
  simp [IsDue]

/-! ## The last frame whose time has come -/

/-- The frame has the greatest index among those whose time has come, or it is the first frame if
there is none. -/
structure Latest (t : Timeline) (now : Millis) (i : Nat) (frame : Frame) : Prop where
  frame : t.frames[i]? = some frame
  greatest : (∃ j, t.IsDue now j) → IsGreatest {j | t.IsDue now j} i
  first : (∀ j, ¬ t.IsDue now j) → i = 0

theorem indexAt_eq_dueCount (t : Timeline) (elapsed : Millis) (looped : Bool) :
    t.indexAt elapsed looped = t.dueCount (t.moment elapsed looped) - 1 := rfl

theorem latest_frameAt (t : Timeline) (elapsed : Millis) (looped : Bool) :
    t.Latest (t.moment elapsed looped) (t.indexAt elapsed looped) (t.frameAt elapsed looped) where
  frame := t.getElem?_indexAt elapsed looped
  greatest := by
    rintro ⟨j, hj⟩
    rw [indexAt_eq_dueCount]
    have hpos := isDue_iff_lt.mp hj
    refine ⟨isDue_iff_lt.mpr (by omega), fun k hk => ?_⟩
    have hlt := isDue_iff_lt.mp hk
    omega
  first hnone := by
    have hzero := mt isDue_iff_lt.mpr (hnone 0)
    rw [indexAt_eq_dueCount]
    omega

theorem frameAt_congr {elapsed elapsed' : Millis} {looped looped' : Bool}
    (h : t.moment elapsed looped = t.moment elapsed' looped') :
    t.frameAt elapsed looped = t.frameAt elapsed' looped' := by
  unfold frameAt
  rw [h]

/-- A loop is at the same moment one duration later. -/
theorem moment_add_duration (hpos : 0 < t.duration) {elapsed : Millis}
    (h : elapsed.toNat + t.duration.toNat < UInt32.size) :
    t.moment (elapsed + t.duration) true = t.moment elapsed true := by
  rw [moment_looped hpos, moment_looped hpos, ← UInt32.toNat_inj, UInt32.toNat_mod,
    UInt32.toNat_mod, UInt32.toNat_add, Nat.mod_eq_of_lt h, Nat.add_mod_right]

/-- **A lookup gives the last frame whose time has come.** At every time, played once or in a loop,
the frame that is sent is the one with the greatest index among those whose time has come at the
moment that is played, or the first one if there is none; a search by halving finds it. Played once,
the index never goes back, and a loop sends the same frame one duration later. -/
theorem frameAt_latest (t : Timeline) :
    (∀ (elapsed : Millis) (looped : Bool),
      t.moment elapsed looped =
        (if looped = true ∧ 0 < t.duration then elapsed % t.duration else elapsed) ∧
      t.indexAt elapsed looped < t.size ∧
      t.Latest (t.moment elapsed looped) (t.indexAt elapsed looped) (t.frameAt elapsed looped) ∧
      t.indexAt elapsed looped = t.search (t.moment elapsed looped) - 1) ∧
    (∀ elapsed later : Millis, elapsed ≤ later →
      t.indexAt elapsed false ≤ t.indexAt later false) ∧
    (0 < t.duration → ∀ elapsed : Millis, elapsed.toNat + t.duration.toNat ≤ 2 ^ 32 - 1 →
      t.frameAt (elapsed + t.duration) true = t.frameAt elapsed true) := by
  refine ⟨fun elapsed looped => ⟨?_, ?_, t.latest_frameAt elapsed looped, ?_⟩,
    fun elapsed later h => ?_, fun hpos elapsed h => ?_⟩
  · unfold moment
    simp only [Bool.and_eq_true, decide_eq_true_eq]
  · exact (List.getElem?_eq_some_iff.mp (t.getElem?_indexAt elapsed looped)).1
  · rw [search_eq, indexAt_eq_dueCount]
  · rw [indexAt_eq_dueCount, indexAt_eq_dueCount]
    exact Nat.sub_le_sub_right (dueCount_mono h) 1
  · have hsize : UInt32.size = 2 ^ 32 := rfl
    exact frameAt_congr (moment_add_duration hpos (by omega))

/-- A recording that starts late and has several frames at one time. -/
def lateRecording : Timeline where
  frames := [⟨5, .ofParts 1 8 .centre .centre⟩, ⟨5, .ofParts 2 8 .centre .centre⟩,
    ⟨20, .ofParts 4 8 .centre .centre⟩, ⟨20, .neutral⟩]
  ne_nil := List.cons_ne_nil _ _
  ordered := by
    unfold Ordered
    decide

/-- Before its start, at a time that two frames have, and a duration later in a loop. -/
theorem frameAt_latest_lateRecording :
    lateRecording.Latest 4 0 (lateRecording.frameAt 4 false) ∧
      lateRecording.Latest 5 1 (lateRecording.frameAt 5 false) ∧
      lateRecording.indexAt 4 false ≤ lateRecording.indexAt 5 false ∧
      lateRecording.frameAt 27 true = ⟨5, .ofParts 2 8 .centre .centre⟩ := by
  obtain ⟨hlatest, hmono, hloop⟩ := frameAt_latest lateRecording
  refine ⟨(hlatest 4 false).2.2.1, (hlatest 5 false).2.2.1, hmono 4 5 (by decide), ?_⟩
  have h7 : lateRecording.frameAt 7 true = ⟨5, .ofParts 2 8 .centre .centre⟩ := by decide
  exact (hloop (by decide) 7 (by decide)).trans h7

end Timeline

end PadScript
