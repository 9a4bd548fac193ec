import PadScript.Timeline

/-!
# Building timelines

Frames in the order of their times have no first drop, so `Timeline.ofFrames` accepts exactly the
frames of timelines, and gives the timeline they belong to. Frames that are not in order are
refused with the first place where a time goes back (`DropsAt`).
-/

namespace PadScript

instance (frames : List Frame) : Decidable (Ordered frames) :=
  inferInstanceAs (Decidable (List.Pairwise _ frames))

theorem Ordered.le_of_getElem? {frames : List Frame} (h : Ordered frames) {i j : Nat}
    {a b : Frame} (hij : i < j) (ha : frames[i]? = some a) (hb : frames[j]? = some b) :
    a.time ≤ b.time := by
  obtain ⟨hi, rfl⟩ := List.getElem?_eq_some_iff.mp ha
  obtain ⟨hj, rfl⟩ := List.getElem?_eq_some_iff.mp hb
  exact List.pairwise_iff_getElem.mp h i j hi hj hij

theorem Ordered.of_getElem? {frames : List Frame}
    (h : ∀ (i j : Nat) (a b : Frame), i < j → frames[i]? = some a → frames[j]? = some b →
      a.time ≤ b.time) : Ordered frames := by
  refine List.pairwise_iff_getElem.mpr fun i j hi hj hij => ?_
  exact h i j _ _ hij (List.getElem?_eq_getElem hi) (List.getElem?_eq_getElem hj)

theorem firstDrop_eq_none_of_ordered {frames : List Frame} (index : Nat) (h : Ordered frames) :
    firstDrop index frames = none := by
  induction frames generalizing index with
  | nil => rfl
  | cons a rest ih =>
    cases rest with
    | nil => rfl
    | cons b rest =>
      have hab : a.time ≤ b.time := List.rel_of_pairwise_cons h List.mem_cons_self
      unfold firstDrop
      rw [if_neg (UInt32.not_lt.mpr hab)]
      exact ih (index + 1) h.of_cons

theorem Timeline.ofFrames_of_ordered {frames : List Frame} (hne : frames ≠ [])
    (h : Ordered frames) : Timeline.ofFrames frames = .ok ⟨frames, hne, h⟩ := by
  have hdrop := firstDrop_eq_none_of_ordered 0 h
  unfold Timeline.ofFrames
  rw [dif_neg hne]
  split
  · rename_i fault hfault
    rw [hdrop] at hfault
    cases hfault
  · rfl

theorem Timeline.ofFrames_eq_ok_iff {frames : List Frame} {t : Timeline} :
    Timeline.ofFrames frames = .ok t ↔ t.frames = frames := by
  constructor
  · exact Timeline.frames_of_ofFrames
  · rintro rfl
    exact Timeline.ofFrames_of_ordered t.ne_nil t.ordered

/-- No frame starts after the last one. -/
theorem Timeline.time_le_duration {t : Timeline} {frame : Frame} (h : frame ∈ t.frames) :
    frame.time ≤ t.duration := by
  have hsplit : t.frames = t.frames.dropLast ++ [t.last] :=
    (List.dropLast_concat_getLast t.ne_nil).symm
  have hordered := t.ordered
  rw [Ordered, hsplit, List.pairwise_append] at hordered
  rw [hsplit] at h
  rcases List.mem_append.mp h with h | h
  · exact hordered.2.2 frame h t.last (List.mem_singleton_self _)
  · rw [List.mem_singleton.mp h]
    exact UInt32.le_refl _

theorem Timeline.duration_of_frames_eq_concat {t : Timeline} {frames : List Frame} {last : Frame}
    (h : t.frames = frames ++ [last]) : t.duration = last.time := by
  unfold Timeline.duration Timeline.last
  simp only [h, List.getLast_concat]

/-- The time after place `k` is the first that is earlier than the time before it. -/
structure DropsAt (times : List Millis) (k : Nat) (previous time : Millis) : Prop where
  before : times[k]? = some previous
  after : times[k + 1]? = some time
  lt : time < previous
  first : ∀ j < k, ∀ a b, times[j]? = some a → times[j + 1]? = some b → a ≤ b

theorem DropsAt.cons {times : List Millis} {k : Nat} {previous time first second : Millis}
    (h : DropsAt (second :: times) k previous time) (hle : first ≤ second) :
    DropsAt (first :: second :: times) (k + 1) previous time where
  before := h.before
  after := h.after
  lt := h.lt
  first j hj a b ha hb := by
    cases j with
    | zero =>
      cases ha
      cases hb
      exact hle
    | succ j => exact h.first j (Nat.lt_of_succ_lt_succ hj) a b ha hb

theorem exists_firstDrop_of_not_ordered {frames : List Frame} (index : Nat)
    (h : ¬ Ordered frames) :
    ∃ k previous time, DropsAt (frames.map Frame.time) k previous time ∧
      firstDrop index frames = some (.outOfOrder (index + k + 1) time previous) := by
  induction frames generalizing index with
  | nil => exact absurd List.Pairwise.nil h
  | cons a rest ih =>
    cases rest with
    | nil => exact absurd (List.pairwise_singleton _ _) h
    | cons b rest =>
      unfold firstDrop
      split
      · rename_i hlt
        exact ⟨0, a.time, b.time, ⟨rfl, rfl, hlt, fun j hj => absurd hj (Nat.not_lt_zero j)⟩, rfl⟩
      · rename_i hlt
        have hrest : ¬ Ordered (b :: rest) := by
          intro hrest
          refine h (@ordered_of_firstDrop_eq_none _ 0 ?_)
          unfold firstDrop
          rw [if_neg hlt]
          exact firstDrop_eq_none_of_ordered 1 hrest
        obtain ⟨k, previous, time, hdrop, hfirst⟩ := ih (index + 1) hrest
        refine ⟨k + 1, previous, time, hdrop.cons (UInt32.not_lt.mp hlt), ?_⟩
        rw [hfirst, Nat.add_right_comm index 1 k, Nat.add_assoc index k 1]

/-- Frames that are not in order are refused with their first drop. -/
theorem Timeline.ofFrames_of_not_ordered {frames : List Frame} (h : ¬ Ordered frames) :
    ∃ k previous time, DropsAt (frames.map Frame.time) k previous time ∧
      Timeline.ofFrames frames = .error (.outOfOrder (k + 1) time previous) := by
  obtain ⟨k, previous, time, hdrop, hfirst⟩ := exists_firstDrop_of_not_ordered 0 h
  refine ⟨k, previous, time, hdrop, ?_⟩
  have hne : frames ≠ [] := by
    rintro rfl
    exact h List.Pairwise.nil
  unfold Timeline.ofFrames
  rw [dif_neg hne]
  split
  · rename_i fault hfault
    rw [hfirst, Nat.zero_add] at hfault
    cases hfault
    rfl
  · rename_i hnone
    rw [hfirst] at hnone
    cases hnone

end PadScript
