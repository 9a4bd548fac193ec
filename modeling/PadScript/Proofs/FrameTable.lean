import PadScript.FrameTable
import PadScript.Proofs.Json.Record
import PadScript.Proofs.Timeline

/-!
# Frame tables load back

A frame table is a layout of words (`laid_render`), and from these words, in whatever layout, the
reader takes the frames that they were written for (`takes_frames`). The frames of a timeline pass
the check of their order, so loading a table gives back the timeline.
-/

namespace PadScript.FrameTable

open Json (Laid Takes)

theorem keyed_recordType : recordType.Keyed := ⟨by decide, by decide, by decide⟩

/-! ## The words of a table -/

/-- The words of the bytes of a report. -/
def byteWords (content : Bytes) : List (List Json.Word) := content.map fun b => [.natural b.toNat]

/-- The words of a frame. -/
def frameWords (frame : Frame) : List Json.Word :=
  Json.recordWords recordType false frame.time (Json.listWords (byteWords frame.packet.toBytes))

/-- The words of a table. -/
def words (frames : List Frame) : List Json.Word := Json.listWords (frames.map frameWords)

/-! ## Reading -/

theorem packetItems_separated {content : Bytes} (done : Nat) {more : List Json.Word} {text : Text}
    (h : Laid (Json.separated (done = 0) (byteWords content) ++ .closing .list :: more) text) :
    ∃ rest, Laid (.closing .list :: more) rest ∧
      packetItems done content.length (Utf8.encode text) = .ok (content, Utf8.encode rest) := by
  induction content generalizing done text with
  | nil => exact ⟨text, h, rfl⟩
  | cons b content ih =>
    obtain ⟨start, middle, hnext, hread, hmiddle⟩ :=
      Json.nextItem_part (Json.takes_byte b) (Json.markNext_closing .list more) h
    have hlater : decide (done + 1 = 0) = false := decide_eq_false (Nat.succ_ne_zero done)
    rw [← hlater] at hmiddle
    obtain ⟨rest, hrest, hitems⟩ := ih (done + 1) hmiddle
    refine ⟨rest, hrest, ?_⟩
    rw [List.length_cons, packetItems, hnext]
    show (Json.byte (Utf8.encode start) >>= _) = _
    rw [hread]
    show (packetItems (done + 1) content.length (Utf8.encode middle) >>= _) = _
    rw [hitems]
    rfl

theorem takes_packet (p : Packet) :
    Takes packet (Json.listWords (byteWords p.toBytes)) p where
  opens := ⟨_, _, rfl, rfl⟩
  takes more text _ hlaid := by
    rw [Json.listWords, List.cons_append, List.append_assoc] at hlaid
    obtain ⟨inner, hinner, hskip⟩ := hlaid.skipSpace
    obtain ⟨middle, hmiddle, hitems⟩ := packetItems_separated 0 hinner
    obtain ⟨rest, hrest, henclose⟩ := Json.Bracket.enclose_laid hitems hmiddle
    refine ⟨rest, hrest, ?_⟩
    unfold packet
    rw [hskip]
    show (Json.Bracket.list.enclose (packetItems 0 Packet.size) (Utf8.encode inner) >>= _) = _
    rw [Packet.length_toBytes] at henclose
    rw [henclose]
    rfl

theorem takes_frames (fs : List Frame) : Takes frames (words fs) fs := by
  have hrecords : List.Forall₂ (Takes (Json.record recordType packet)) (fs.map frameWords)
      (fs.map fun frame => (frame.time, frame.packet)) :=
    Json.forall₂_map fun frame _ =>
      Json.takes_record keyed_recordType false frame.time (takes_packet _)
  have htakes := (Json.takes_array hrecords "a sequence".toList).map
    (List.map fun record => (⟨record.1, record.2⟩ : Frame))
  rw [List.map_map, show (fun record : Millis × Packet => (⟨record.1, record.2⟩ : Frame)) ∘
    (fun frame : Frame => (frame.time, frame.packet)) = id from rfl, List.map_id] at htakes
  exact htakes

/-! ## Writing -/

theorem laid_separated {parts : List (List Json.Word)} {texts : List Text}
    (h : List.Forall₂ Laid parts texts) :
    Laid (Json.separated true parts) (separated texts) := by
  induction h with
  | nil => exact .done fun _ hc => absurd hc List.not_mem_nil
  | @cons part text parts texts hpart hrest ih =>
    cases hrest with
    | nil =>
      have hline : Laid [] ['\n'] := Json.laid_of_laysOut (by decide)
      exact hpart.append hline
    | @cons next other parts texts hnext hrest =>
      have hcomma : Laid [.comma] [',', '\n'] := Json.laid_of_laysOut (by decide)
      have hlaid := hpart.append (hcomma.append ih)
      rw [← List.append_assoc text] at hlaid
      exact hlaid

theorem laid_byteLine (b : UInt8) : Laid [.natural b.toNat] (byteLine b) := by
  have hindent : Laid [] (List.replicate 6 ' ') := Json.laid_of_laysOut (by decide)
  exact hindent.append (.of_word _)

theorem frameWords_eq (frame : Frame) :
    frameWords frame =
      ([.opening .object, .string recordType.timeKey, .colon] : List Json.Word) ++
        ([.natural frame.time.toNat] : List Json.Word) ++
        ([.comma, .string recordType.payloadKey, .colon, .opening .list] : List Json.Word) ++
        Json.separated true (byteWords frame.packet.toBytes) ++
        ([.closing .list, .closing .object] : List Json.Word) := by
  simp [frameWords, Json.recordWords, Json.memberList, Json.separated, Json.lead,
    Json.memberWords, Json.listWords]

theorem laid_frameLines (frame : Frame) : Laid (frameWords frame) (frameLines frame) := by
  rw [frameWords_eq]
  unfold frameLines
  have hbytes : List.Forall₂ Laid (byteWords frame.packet.toBytes)
      (frame.packet.toBytes.map byteLine) :=
    Json.forall₂_map fun b _ => laid_byteLine b
  refine Laid.append (Laid.append (Laid.append (Laid.append ?_ (.of_word _)) ?_) ?_) ?_
  · exact Json.laid_of_laysOut (by decide)
  · exact Json.laid_of_laysOut (by decide)
  · exact laid_separated hbytes
  · exact Json.laid_of_laysOut (by decide)

theorem laid_render (t : Timeline) : Laid (words t.frames) (render t) := by
  have hframes : List.Forall₂ Laid (t.frames.map frameWords) (t.frames.map frameLines) :=
    Json.forall₂_map fun frame _ => laid_frameLines frame
  have hopen : Laid [.opening .list] "[\n".toList := Json.laid_of_laysOut (by decide)
  have hclose : Laid [.closing .list] "]".toList := Json.laid_of_laysOut (by decide)
  have hlaid := (hopen.append (laid_separated hframes)).append hclose
  exact hlaid

/-- **Frame tables load back.** Loading the table of a timeline gives the timeline. -/
theorem load_render (t : Timeline) : load (render t) = .ok t := by
  obtain ⟨rest, hread, hfinish⟩ := (takes_frames t.frames).whole (laid_render t)
  have hparse : parse (Utf8.encode (render t)) = .ok t := by
    unfold parse
    rw [hread]
    show ((Timeline.ofFrames t.frames).mapError _ >>= _) = _
    rw [Timeline.ofFrames_eq_ok_iff.mpr rfl]
    show ((Json.finish rest).mapError _ >>= _) = _
    rw [hfinish]
    rfl
  unfold load
  rw [hparse]
  rfl

end PadScript.FrameTable
