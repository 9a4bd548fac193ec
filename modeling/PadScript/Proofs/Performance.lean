import Mathlib.Algebra.GroupWithZero.Nat
import Mathlib.Data.List.Forall2
import PadScript.Proofs.Playing

/-!
# Performing inputs

What lines send, frame by frame: the report of every input, from the time on at which the inputs
before it end. A closed script performs its inputs and then puts the controller to rest, once
(`compiles_iff_performs`).
-/

namespace PadScript.Script

/-- The inputs that input lines are read as. -/
def Reads (bodies : List Text) (inputs : List Input) : Prop :=
  List.Forall₂ (fun body input => Input.read body = .ok input) bodies inputs

/-- The time at which the input with an index starts if the first one starts at zero. -/
def startTime (inputs : List Input) (i : Nat) : Nat :=
  ((inputs.take i).map fun input => input.duration.toNat).sum

@[simp] theorem startTime_zero (inputs : List Input) : startTime inputs 0 = 0 := by
  simp [startTime]

@[simp] theorem startTime_cons_succ (input : Input) (inputs : List Input) (i : Nat) :
    startTime (input :: inputs) (i + 1) = input.duration.toNat + startTime inputs i := by
  simp [startTime]

/-! ## Frames without the closing one -/

/-- The frames send the inputs from the time `clock` to the time `stop`. -/
structure Sends (clock : Millis) (inputs : List Input) (frames : List Frame) (stop : Millis) :
    Prop where
  length : frames.length = inputs.length
  frame : ∀ i input, inputs[i]? = some input → ∃ frame, frames[i]? = some frame ∧
    frame.packet = input.packet ∧ frame.time.toNat = clock.toNat + startTime inputs i
  stop : stop.toNat = clock.toNat + startTime inputs inputs.length

theorem sends_nil_iff {clock stop : Millis} {frames : List Frame} :
    Sends clock [] frames stop ↔ frames = [] ∧ stop = clock := by
  constructor
  · intro h
    refine ⟨List.length_eq_zero_iff.mp h.length, UInt32.toNat_inj.mp ?_⟩
    rw [h.stop, List.length_nil, startTime_zero, Nat.add_zero]
  · rintro ⟨rfl, rfl⟩
    exact ⟨rfl, fun i input h => by simp at h, by simp⟩

theorem sends_cons_iff {clock stop : Millis} {input : Input} {inputs : List Input}
    {frames : List Frame} :
    Sends clock (input :: inputs) frames stop ↔
      ∃ next more, clock.toNat + input.duration.toNat = next.toNat ∧
        Sends next inputs more stop ∧ frames = ⟨clock, input.packet⟩ :: more := by
  constructor
  · intro h
    obtain ⟨frame, hframe, hpacket, htime⟩ := h.frame 0 input rfl
    have hstop := h.stop
    have hsize := stop.toNat_lt_size
    rw [List.length_cons, startTime_cons_succ] at hstop
    obtain ⟨next, hnext⟩ := Millis.exists_add (a := clock) (b := input.duration) (by omega)
    cases frames with
    | nil => cases hframe
    | cons first more =>
      cases hframe
      rw [startTime_zero, Nat.add_zero, UInt32.toNat_inj] at htime
      refine ⟨next, more, hnext, ⟨?_, ?_, by omega⟩, ?_⟩
      · have hlength := h.length
        rw [List.length_cons, List.length_cons] at hlength
        omega
      · intro i other hother
        obtain ⟨frame, hframe, hpacket, htime⟩ := h.frame (i + 1) other hother
        rw [startTime_cons_succ] at htime
        exact ⟨frame, hframe, hpacket, by omega⟩
      · rw [← htime, ← hpacket]
  · rintro ⟨next, more, hnext, h, rfl⟩
    have hstop := h.stop
    refine ⟨?_, ?_, ?_⟩
    · rw [List.length_cons, List.length_cons, h.length]
    · intro i other hother
      cases i with
      | zero =>
        cases hother
        exact ⟨_, rfl, rfl, by rw [startTime_zero, Nat.add_zero]⟩
      | succ i =>
        obtain ⟨frame, hframe, hpacket, htime⟩ := h.frame i other hother
        exact ⟨frame, hframe, hpacket, by rw [startTime_cons_succ]; omega⟩
    · rw [List.length_cons, startTime_cons_succ]
      omega

/-- Lines play exactly if they can be read and their inputs can be sent. -/
theorem plays_iff_sends {clock stop : Millis} {bodies : List Text} {frames : List Frame} :
    Plays clock bodies frames stop ↔
      ∃ inputs, Reads bodies inputs ∧ Sends clock inputs frames stop := by
  induction bodies generalizing clock frames with
  | nil =>
    rw [plays_nil_iff, ← sends_nil_iff]
    constructor
    · intro h; exact ⟨[], .nil, h⟩
    · rintro ⟨inputs, hread, h⟩
      cases hread
      exact h
  | cons body bodies ih =>
    rw [plays_cons_iff]
    constructor
    · rintro ⟨frame, next, more, hline, hrest, rfl⟩
      obtain ⟨input, hread, rfl, hadd⟩ := compileLine_eq_ok_iff.mp hline
      obtain ⟨inputs, hreads, hsends⟩ := ih.mp hrest
      exact ⟨input :: inputs, .cons hread hreads,
        sends_cons_iff.mpr ⟨next, more, hadd, hsends, rfl⟩⟩
    · rintro ⟨inputs, hreads, hsends⟩
      cases hreads with
      | cons hread hreads =>
        obtain ⟨next, more, hadd, hrest, rfl⟩ := sends_cons_iff.mp hsends
        exact ⟨_, next, more, compileLine_eq_ok_iff.mpr ⟨_, hread, rfl, hadd⟩,
          ih.mpr ⟨_, hreads, hrest⟩, rfl⟩

/-! ## Closed scripts -/

/-- The frames of a script with these input lines. -/
def Compiles (bodies : List Text) (frames : List Frame) : Prop :=
  ∃ played stop, Plays 0 bodies played stop ∧ frames = close played stop

theorem Compiles.ordered {bodies : List Text} {frames : List Frame}
    (h : Compiles bodies frames) : Ordered frames := by
  obtain ⟨played, stop, hplays, rfl⟩ := h
  by_cases hne : played = []
  · rw [hne]
    exact List.Pairwise.nil
  · rw [close_of_ne_nil hne]
    refine List.pairwise_append.mpr ⟨hplays.ordered, List.pairwise_singleton _ _, ?_⟩
    intro frame hframe rest hrest
    rw [List.mem_singleton.mp hrest, UInt32.le_iff_toNat_le]
    exact (hplays.bounds frame hframe).2

/-- The frames send every input at its start and then put the controller to rest. -/
structure Performs (inputs : List Input) (frames : List Frame) : Prop where
  ne_nil : inputs ≠ []
  length : frames.length = inputs.length + 1
  frame : ∀ i input, inputs[i]? = some input → ∃ frame, frames[i]? = some frame ∧
    frame.packet = input.packet ∧ frame.time.toNat = startTime inputs i
  rest : ∃ frame, frames[inputs.length]? = some frame ∧ frame.packet = .neutral ∧
    frame.time.toNat = startTime inputs inputs.length

theorem performs_iff_sends {inputs : List Input} {frames : List Frame} :
    Performs inputs frames ↔
      inputs ≠ [] ∧ ∃ played stop, Sends 0 inputs played stop ∧
        frames = played ++ [.neutral stop] := by
  constructor
  · intro h
    refine ⟨h.ne_nil, ?_⟩
    obtain ⟨played, last, hframes⟩ := (List.eq_nil_or_concat frames).resolve_left (by
      intro hnil
      have := h.length
      rw [hnil, List.length_nil] at this
      omega)
    rw [List.concat_eq_append] at hframes
    have hlength : played.length = inputs.length := by
      have := h.length
      rw [hframes, List.length_append, List.length_singleton] at this
      omega
    obtain ⟨frame, hframe, hneutral, htime⟩ := h.rest
    rw [hframes, ← hlength, List.getElem?_concat_length, Option.some_inj] at hframe
    rw [← hframe] at hneutral htime
    refine ⟨played, last.time, ⟨hlength, ?_, ?_⟩, ?_⟩
    · intro i input hinput
      obtain ⟨frame, hframe, hpacket, htime⟩ := h.frame i input hinput
      have hi := (List.getElem?_eq_some_iff.mp hinput).1
      rw [hframes, List.getElem?_append_left (by omega)] at hframe
      exact ⟨frame, hframe, hpacket, by simpa using htime⟩
    · simpa using htime
    · rw [hframes, Frame.neutral, ← hneutral]
  · rintro ⟨hne, played, stop, h, rfl⟩
    refine ⟨hne, ?_, ?_, ?_⟩
    · rw [List.length_append, List.length_singleton, h.length]
    · intro i input hinput
      obtain ⟨frame, hframe, hpacket, htime⟩ := h.frame i input hinput
      have hi := (List.getElem?_eq_some_iff.mp hframe).1
      refine ⟨frame, ?_, hpacket, by simpa using htime⟩
      rw [List.getElem?_append_left hi, hframe]
    · refine ⟨.neutral stop, ?_, rfl, ?_⟩
      · rw [← h.length, List.getElem?_concat_length]
      · show stop.toNat = _
        simpa using h.stop

theorem compiles_iff_performs {bodies : List Text} {frames : List Frame} (hne : frames ≠ []) :
    Compiles bodies frames ↔ ∃ inputs, Reads bodies inputs ∧ Performs inputs frames := by
  constructor
  · rintro ⟨played, stop, hplays, rfl⟩
    obtain ⟨inputs, hreads, hsends⟩ := plays_iff_sends.mp hplays
    have hplayed : played ≠ [] := by
      rintro rfl
      exact hne (close_nil stop)
    refine ⟨inputs, hreads, performs_iff_sends.mpr ⟨?_, played, stop, hsends, ?_⟩⟩
    · rintro rfl
      exact hplayed (sends_nil_iff.mp hsends).1
    · exact close_of_ne_nil hplayed stop
  · rintro ⟨inputs, hreads, hperforms⟩
    obtain ⟨hinputs, played, stop, hsends, rfl⟩ := performs_iff_sends.mp hperforms
    have hplayed : played ≠ [] := by
      rintro rfl
      exact hinputs (List.length_eq_zero_iff.mp hsends.length.symm)
    exact ⟨played, stop, plays_iff_sends.mpr ⟨inputs, hreads, hsends⟩,
      (close_of_ne_nil hplayed stop).symm⟩

end PadScript.Script
