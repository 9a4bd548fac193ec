import PadScript.Proofs.Expression
import PadScript.Proofs.Refusal

/-!
# What a player may rely on

A timeline that is compiled from a script is `Playable`: it starts at zero, never goes back in
time, rests at the end, and holds legal reports only. The order of the frames is a property of what
lines send, between the time they start at and the time they end at, so the check of that order
never refuses a script.
-/

namespace PadScript

/-- At least two frames, from zero on and in order, of legal reports; the last one is at rest. -/
structure Playable (frames : List Frame) : Prop where
  two_le : 2 ≤ frames.length
  first : ∃ frame, frames.head? = some frame ∧ frame.time = 0
  ordered : ∀ (i j : Nat) (a b : Frame), i < j → frames[i]? = some a → frames[j]? = some b →
    a.time ≤ b.time
  last : ∃ frame, frames.getLast? = some frame ∧ frame.packet = .neutral
  legal : ∀ frame ∈ frames, frame.packet.Legal

namespace Playable

variable {frames : List Frame}

theorem ne_nil (h : Playable frames) : frames ≠ [] := by
  rintro rfl
  exact absurd h.two_le (by decide)

theorem pairwise (h : Playable frames) : Ordered frames := .of_getElem? h.ordered

end Playable

namespace Script

/-! ## What lines send -/

theorem Input.legal_of_read {body : Text} {input : Input} (h : Input.read body = .ok input) :
    input.packet.Legal := by
  unfold Input.read at h
  simp only [bind_eq_ok_iff, pure, Except.pure, Except.ok.injEq] at h
  obtain ⟨⟨expression, duration⟩, -, packet, hencode, millis, -, rfl⟩ := h
  exact Expression.legal_of_encode hencode

theorem Plays.legal {clock stop : Millis} {bodies : List Text} {frames : List Frame}
    (h : Plays clock bodies frames stop) : ∀ frame ∈ frames, frame.packet.Legal := by
  induction h with
  | done => exact fun _ hmem => absurd hmem List.not_mem_nil
  | line hline _ ih =>
    obtain ⟨input, hread, rfl, -⟩ := compileLine_eq_ok_iff.mp hline
    intro frame hmem
    rcases List.mem_cons.mp hmem with rfl | hmem
    · exact Input.legal_of_read hread
    · exact ih frame hmem

theorem Plays.head_time {clock stop : Millis} {bodies : List Text} {frames : List Frame}
    (h : Plays clock bodies frames stop) {frame : Frame} (hframe : frames.head? = some frame) :
    frame.time = clock := by
  cases h with
  | done => cases hframe
  | line hline _ =>
    obtain ⟨input, -, rfl, -⟩ := compileLine_eq_ok_iff.mp hline
    cases hframe
    rfl

/-! ## What scripts compile to -/

theorem Compiles.playable {bodies : List Text} {frames : List Frame} (h : Compiles bodies frames)
    (hne : frames ≠ []) : Playable frames := by
  have hordered := h.ordered
  obtain ⟨played, stop, hplays, rfl⟩ := h
  have hplayed : played ≠ [] := by
    rintro rfl
    exact hne (close_nil stop)
  rw [close_of_ne_nil hplayed] at hordered ⊢
  obtain ⟨frame, rest, rfl⟩ := List.exists_cons_of_ne_nil hplayed
  refine ⟨?_, ⟨frame, rfl, hplays.head_time rfl⟩, ?_, ?_, ?_⟩
  · rw [List.length_append, List.length_cons, List.length_singleton]
    omega
  · exact fun i j a b => hordered.le_of_getElem?
  · exact ⟨.neutral stop, List.getLast?_concat, rfl⟩
  · intro other hother
    rcases List.mem_append.mp hother with hother | hother
    · exact hplays.legal other hother
    · rw [List.mem_singleton.mp hother]
      exact Packet.legal_neutral

/-- **The output contract.** Whatever is compiled is playable, and no fault of a duration, which
includes frames out of order, lacks a line. -/
theorem compiled_playable (fs : FileSystem) (options : Options) :
    (∀ source t, compile fs options source = .ok t → Playable t.frames) ∧
    (∀ path t, compileFile fs options path = .ok t → Playable t.frames) ∧
    (∀ source e, compile fs options source = .error e →
      e.fault.code = "E1004".toList → e.line ≠ 0) ∧
    ∀ path e, compileFile fs options path = .error e →
      e.fault.code = "E1004".toList → e.line ≠ 0 := by
  refine ⟨fun source t h => ?_, fun path t h => ?_, fun source e h hcode => ?_,
    fun path e h hcode => ?_⟩
  · obtain ⟨bodies, hcompiles⟩ := compiles_of_compileSource (compile_eq_ok_iff.mp h)
    exact hcompiles.playable t.ne_nil
  · obtain ⟨bodies, -, hcompiles⟩ := compileFileFrames_eq_ok_iff.mp (compileFile_eq_ok_iff.mp h)
    exact hcompiles.playable t.ne_nil
  · rcases compile_eq_error_iff.mp h with hsource | ⟨frames, hsource, hfinish⟩
    · exact compileSource_error_line_ne_zero hsource
    · obtain ⟨bodies, hcompiles⟩ := compiles_of_compileSource hsource
      rw [finish_error_of_compiles hcompiles hfinish] at hcode
      exact absurd hcode (by decide)
  · have hkind := (Fault.code_eq_iff (k := .invalidDuration)).mp hcode
    rcases compileFile_eq_error_cases h with ⟨-, -, hfault | hfault⟩ |
      ⟨w, canonical, source, index, raw, -, -, -, -, hline, -⟩
    · have hdirective := hfault.ofDirective
      rw [hkind] at hdirective
      cases hdirective
    · rw [hfault] at hkind
      cases hkind
    · rw [hline]
      exact Nat.succ_ne_zero index

theorem compiled_playable_nestedScripts :
    (∃ t, compileFile nestedScripts.fileSystem .default ⟨"main".toList⟩ = .ok t ∧
      Playable t.frames) ∧
    ∃ e, compile nestedScripts.fileSystem .default "A,4294967295\nB,1".toList = .error e ∧
      e.fault.code = "E1004".toList ∧ e.line ≠ 0 := by
  have hok : (compileFile nestedScripts.fileSystem .default ⟨"main".toList⟩).isOk = true := by
    decide +kernel
  have herror : compile nestedScripts.fileSystem .default "A,4294967295\nB,1".toList =
      .error ⟨.clockOverflow (some "B,1".toList), 2, none⟩ := by
    decide +kernel
  refine ⟨?_, _, herror, rfl, (compiled_playable _ _).2.2.1 _ _ herror rfl⟩
  cases hfile : compileFile nestedScripts.fileSystem .default ⟨"main".toList⟩ with
  | error e => rw [hfile] at hok; cases hok
  | ok t => exact ⟨t, rfl, (compiled_playable _ _).2.1 _ t hfile⟩

end Script

end PadScript
