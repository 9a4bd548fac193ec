import PadScript.Proofs.Result
import PadScript.Proofs.Timeline
import PadScript.Script

/-!
# Playing input lines

`Plays clock bodies frames stop` says that the input lines `bodies`, one after the other from the
time `clock` on, send `frames` and end at the time `stop`.

1. Lines play one part after the other (`plays_append_iff`), and lines that play from some time on
   play from every earlier time on (`Plays.earlier`). Their frames lie between the start and the
   end, in order (`Plays.bounds`, `Plays.ordered`).
2. A script whose lines play from zero on can be spliced in at a time exactly if its lines play
   from that time on, and then it sends the same frames (`splice_close_eq_ok_iff`): nothing of the
   frame that closes it is left.
-/

namespace PadScript

theorem Millis.exists_add {a b : Millis} (h : a.toNat + b.toNat < UInt32.size) :
    ∃ c : Millis, a.toNat + b.toNat = c.toNat := by
  refine ⟨a + b, ?_⟩
  rw [UInt32.toNat_add, Nat.mod_eq_of_lt h]

theorem Millis.add?_eq_none_iff {a b : Millis} :
    Millis.add? a b = none ↔ UInt32.size ≤ a.toNat + b.toNat := by
  unfold Millis.add?
  split
  · rename_i h
    constructor
    · intro h'; cases h'
    · intro h'; omega
  · rename_i h
    exact ⟨fun _ => Nat.le_of_not_lt h, fun _ => rfl⟩

namespace Script

/-! ## Input lines -/

/-- What an input line asks for: a report, and how long it is sent. -/
structure Input where
  packet : Packet
  duration : Millis
  deriving DecidableEq, Repr

/-- Reads an input line. -/
def Input.read (body : Text) : Except Fault Input := do
  let (expression, duration) ← Line.split body
  let packet ← Expression.encode expression
  let duration ← Line.duration duration
  return ⟨packet, duration⟩

theorem compileLine_eq (body : Text) (clock : Millis) :
    compileLine body clock = (Input.read body >>= fun input =>
      match Millis.add? clock input.duration with
      | some next => .ok (⟨clock, input.packet⟩, next)
      | none => .error (.clockOverflow (some body))) := by
  unfold compileLine Input.read
  cases Line.split body with
  | error f => rfl
  | ok parts =>
    obtain ⟨expression, duration⟩ := parts
    show (Expression.encode expression >>= _) = (Expression.encode expression >>= _) >>= _
    cases Expression.encode expression with
    | error f => rfl
    | ok packet => cases Line.duration duration <;> rfl

theorem compileLine_eq_ok_iff {body : Text} {clock next : Millis} {frame : Frame} :
    compileLine body clock = .ok (frame, next) ↔
      ∃ input, Input.read body = .ok input ∧ frame = ⟨clock, input.packet⟩ ∧
        clock.toNat + input.duration.toNat = next.toNat := by
  rw [compileLine_eq, bind_eq_ok_iff]
  refine exists_congr fun input => and_congr_right fun _ => ?_
  constructor
  · intro h
    split at h
    · rename_i next' hadd
      cases h
      exact ⟨rfl, Millis.add?_eq_some_iff.mp hadd⟩
    · cases h
  · rintro ⟨rfl, hadd⟩
    rw [Millis.add?_eq_some_iff.mpr hadd]

/-- An input line is refused because it cannot be read, or because the clock runs over. -/
theorem compileLine_eq_error_iff {body : Text} {clock : Millis} {fault : Fault} :
    compileLine body clock = .error fault ↔
      Input.read body = .error fault ∨
        ∃ input, Input.read body = .ok input ∧
          UInt32.size ≤ clock.toNat + input.duration.toNat ∧
          fault = .clockOverflow (some body) := by
  rw [compileLine_eq, bind_eq_error_iff]
  refine or_congr_right (exists_congr fun input => and_congr_right fun _ => ?_)
  rw [← Millis.add?_eq_none_iff]
  cases Millis.add? clock input.duration with
  | some next =>
    constructor
    · intro h; cases h
    · rintro ⟨h, _⟩; cases h
  | none =>
    constructor
    · intro h; cases h; exact ⟨rfl, rfl⟩
    · rintro ⟨_, rfl⟩; rfl

/-! ## Input lines one after the other -/

/-- The input lines, one after the other from the time `clock` on, send the frames and end at the
time `stop`. -/
inductive Plays : (clock : Millis) → (bodies : List Text) → (frames : List Frame) →
    (stop : Millis) → Prop
  | done {clock} : Plays clock [] [] clock
  | line {clock next stop body bodies frame frames} :
      compileLine body clock = .ok (frame, next) → Plays next bodies frames stop →
      Plays clock (body :: bodies) (frame :: frames) stop

theorem plays_nil_iff {clock stop : Millis} {frames : List Frame} :
    Plays clock [] frames stop ↔ frames = [] ∧ stop = clock := by
  constructor
  · intro h; cases h; exact ⟨rfl, rfl⟩
  · rintro ⟨rfl, rfl⟩; exact .done

theorem plays_cons_iff {clock stop : Millis} {body : Text} {bodies : List Text}
    {frames : List Frame} :
    Plays clock (body :: bodies) frames stop ↔
      ∃ frame next more, compileLine body clock = .ok (frame, next) ∧
        Plays next bodies more stop ∧ frames = frame :: more := by
  constructor
  · intro h
    cases h with
    | line hline hrest => exact ⟨_, _, _, hline, hrest, rfl⟩
  · rintro ⟨frame, next, more, hline, hrest, rfl⟩
    exact .line hline hrest

theorem plays_append_iff {clock stop : Millis} {first second : List Text} {frames : List Frame} :
    Plays clock (first ++ second) frames stop ↔
      ∃ before middle after, Plays clock first before middle ∧
        Plays middle second after stop ∧ frames = before ++ after := by
  induction first generalizing clock frames with
  | nil =>
    constructor
    · intro h; exact ⟨[], clock, frames, .done, h, rfl⟩
    · rintro ⟨before, middle, after, hbefore, hafter, rfl⟩
      obtain ⟨rfl, rfl⟩ := plays_nil_iff.mp hbefore
      exact hafter
  | cons body first ih =>
    rw [List.cons_append, plays_cons_iff]
    constructor
    · rintro ⟨frame, next, more, hline, hrest, rfl⟩
      obtain ⟨before, middle, after, hbefore, hafter, rfl⟩ := ih.mp hrest
      exact ⟨frame :: before, middle, after, .line hline hbefore, hafter, rfl⟩
    · rintro ⟨before, middle, after, hbefore, hafter, rfl⟩
      obtain ⟨frame, next, more, hline, hmore, rfl⟩ := plays_cons_iff.mp hbefore
      exact ⟨frame, next, more ++ after, hline, ih.mpr ⟨more, middle, after, hmore, hafter, rfl⟩,
        rfl⟩

theorem Plays.le {clock stop : Millis} {bodies : List Text} {frames : List Frame}
    (h : Plays clock bodies frames stop) : clock.toNat ≤ stop.toNat := by
  induction h with
  | done => exact Nat.le_refl _
  | line hline _ ih =>
    obtain ⟨input, -, -, hadd⟩ := compileLine_eq_ok_iff.mp hline
    omega

/-- Lines that play from some time on play from every earlier time on. -/
theorem Plays.earlier {clock stop : Millis} {bodies : List Text} {frames : List Frame}
    (h : Plays clock bodies frames stop) {start : Millis} (hle : start.toNat ≤ clock.toNat) :
    ∃ frames' stop', Plays start bodies frames' stop' := by
  induction h generalizing start with
  | done => exact ⟨[], start, .done⟩
  | @line clock next stop body bodies frame frames hline _ ih =>
    obtain ⟨input, hread, -, hadd⟩ := compileLine_eq_ok_iff.mp hline
    have hnext := next.toNat_lt_size
    obtain ⟨next', hadd'⟩ := Millis.exists_add (a := start) (b := input.duration) (by omega)
    obtain ⟨frames', stop', hrest⟩ := ih (show next'.toNat ≤ next.toNat by omega)
    exact ⟨_, _, .line (compileLine_eq_ok_iff.mpr ⟨input, hread, rfl, hadd'⟩) hrest⟩

/-- The frames that lines send lie between the start and the end. -/
theorem Plays.bounds {clock stop : Millis} {bodies : List Text} {frames : List Frame}
    (h : Plays clock bodies frames stop) :
    ∀ frame ∈ frames, clock.toNat ≤ frame.time.toNat ∧ frame.time.toNat ≤ stop.toNat := by
  induction h with
  | done => exact fun _ hmem => absurd hmem List.not_mem_nil
  | @line clock next stop body bodies frame frames hline hrest ih =>
    obtain ⟨input, -, rfl, hadd⟩ := compileLine_eq_ok_iff.mp hline
    have hle := hrest.le
    intro later hmem
    rcases List.mem_cons.mp hmem with rfl | hmem
    · show clock.toNat ≤ clock.toNat ∧ clock.toNat ≤ stop.toNat
      omega
    · have := ih later hmem
      omega

theorem Plays.ordered {clock stop : Millis} {bodies : List Text} {frames : List Frame}
    (h : Plays clock bodies frames stop) : Ordered frames := by
  induction h with
  | done => exact List.Pairwise.nil
  | @line clock next stop body bodies frame frames hline hrest ih =>
    obtain ⟨input, -, rfl, hadd⟩ := compileLine_eq_ok_iff.mp hline
    refine List.Pairwise.cons ?_ ih
    intro later hlater
    have := (hrest.bounds later hlater).1
    rw [UInt32.le_iff_toNat_le]
    show clock.toNat ≤ later.time.toNat
    omega

/-! ## Splicing -/

theorem delay_cons_eq_some_iff {clock : Millis} {frame : Frame} {rest frames : List Frame} :
    delay clock (frame :: rest) = some frames ↔
      ∃ time more, Millis.add? clock frame.time = some time ∧ delay clock rest = some more ∧
        frames = ⟨time, frame.packet⟩ :: more := by
  rw [delay]
  simp only [bind, pure, Option.bind_eq_some_iff, Option.some_inj]
  constructor
  · rintro ⟨time, htime, more, hmore, rfl⟩
    exact ⟨time, more, htime, hmore, rfl⟩
  · rintro ⟨time, more, htime, hmore, rfl⟩
    exact ⟨time, htime, more, hmore, rfl⟩

/-- Delaying the frames that lines send from `start` on gives the frames that they send that much
later, if they can be sent then. -/
theorem Plays.delay_iff {start stop clock later : Millis} {bodies : List Text}
    {frames : List Frame} (h : Plays start bodies frames stop)
    (hlater : clock.toNat + start.toNat = later.toNat) {frames' : List Frame} {stop' : Millis} :
    (delay clock frames = some frames' ∧ Millis.add? clock stop = some stop') ↔
      Plays later bodies frames' stop' := by
  induction h generalizing later frames' with
  | @done start =>
    rw [plays_nil_iff, Millis.add?_eq_some_iff, hlater, UInt32.toNat_inj]
    show some [] = some frames' ∧ later = stop' ↔ _
    rw [Option.some_inj]
    exact and_congr eq_comm eq_comm
  | @line start next stop body bodies frame frames hline hrest ih =>
    obtain ⟨input, hread, rfl, hadd⟩ := compileLine_eq_ok_iff.mp hline
    rw [delay_cons_eq_some_iff, plays_cons_iff]
    constructor
    · rintro ⟨⟨time, more, htime, hmore, rfl⟩, hstop⟩
      have hle := hrest.le
      have hend := Millis.add?_eq_some_iff.mp hstop
      have hsize := stop'.toNat_lt_size
      have htime : time = later := by
        rw [Millis.add?_eq_some_iff] at htime
        exact UInt32.toNat_inj.mp (htime.symm.trans hlater)
      obtain ⟨next', hnext⟩ := Millis.exists_add (a := clock) (b := next) (by omega)
      refine ⟨_, next', more, ?_, (ih hnext).mp ⟨hmore, hstop⟩, rfl⟩
      rw [htime]
      exact compileLine_eq_ok_iff.mpr ⟨input, hread, rfl, by omega⟩
    · rintro ⟨frame, next', more, hline', hrest', rfl⟩
      obtain ⟨input', hread', rfl, hadd'⟩ := compileLine_eq_ok_iff.mp hline'
      obtain rfl : input = input' := by
        rw [hread] at hread'
        exact Except.ok.inj hread'
      have hnext : clock.toNat + next.toNat = next'.toNat := by omega
      obtain ⟨hmore, hstop⟩ := (ih hnext).mpr hrest'
      exact ⟨⟨later, more, Millis.add?_eq_some_iff.mpr hlater, hmore, rfl⟩, hstop⟩

@[simp] theorem close_nil (clock : Millis) : close [] clock = [] := rfl

theorem close_of_ne_nil {frames : List Frame} (h : frames ≠ []) (clock : Millis) :
    close frames clock = frames ++ [.neutral clock] := by
  unfold close
  rw [List.isEmpty_eq_false_iff.mpr h, if_neg Bool.false_ne_true]

theorem splice_concat_eq_ok_iff {frames : List Frame} {last : Frame} {clock stop : Millis}
    {frames' : List Frame} :
    splice (frames ++ [last]) clock = .ok (frames', stop) ↔
      delay clock frames = some frames' ∧ Millis.add? clock last.time = some stop := by
  unfold splice
  rw [List.getLast?_concat, List.dropLast_concat]
  simp only
  split
  · rename_i delayed next hdelayed hnext
    rw [hdelayed, hnext, Except.ok.injEq, Prod.mk.injEq, Option.some_inj, Option.some_inj]
  · rename_i hnot
    constructor
    · intro h; cases h
    · rintro ⟨hdelayed, hnext⟩
      exact absurd hnext (hnot frames' stop hdelayed)

theorem splice_nil (clock : Millis) : splice [] clock = .ok ([], clock) := rfl

/-- A closed script is spliced in at a time exactly if its lines play from that time on. -/
theorem splice_close_eq_ok_iff {bodies : List Text} {frames : List Frame} {stop : Millis}
    (h : Plays 0 bodies frames stop) {clock stop' : Millis} {frames' : List Frame} :
    splice (close frames stop) clock = .ok (frames', stop') ↔
      Plays clock bodies frames' stop' := by
  rw [← h.delay_iff (show clock.toNat + (0 : Millis).toNat = clock.toNat from rfl)]
  by_cases hne : frames = []
  · cases h with
    | done =>
      rw [close_nil, splice_nil, Millis.add?_eq_some_iff, Except.ok.injEq, Prod.mk.injEq]
      show [] = frames' ∧ clock = stop' ↔ some [] = some frames' ∧ clock.toNat = stop'.toNat
      rw [Option.some_inj, UInt32.toNat_inj]
    | line => cases hne
  · rw [close_of_ne_nil hne, splice_concat_eq_ok_iff]
    rfl

end Script

end PadScript
