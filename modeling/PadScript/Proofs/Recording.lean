import PadScript.Proofs.Base64
import PadScript.Proofs.Json.Record
import PadScript.Proofs.Json.Value
import PadScript.Proofs.Result
import PadScript.Proofs.Timeline
import PadScript.Recording

/-!
# Recordings are passed on as they are

A recording can be written in many ways: each report as a list of bytes or as base64 text, the
keys of a record in either order, and any blanks between the words.

1. From every writing the same records are read (`entries_laid`), with the same bytes
   (`content_payload`).
2. The records become a timeline if every report has eight bytes, there is a record, and no time
   goes back (`exists_timeline_iff`). The reports are checked before the number of records, and
   that before the times.
-/

namespace PadScript.Recording

open Json (Laid Takes)

theorem keyed_recordType : recordType.Keyed := ⟨by decide, by decide, by decide⟩

/-! ## Records as they are written -/

/-- How a report is written: as a list of bytes, or as base64 text between spaces. -/
inductive Form where
  | list
  | base64 (before after : Nat)
  deriving DecidableEq, Repr

/-- A record as it is written. -/
structure Written where
  time : Millis
  content : Bytes
  form : Form
  payloadFirst : Bool
  deriving DecidableEq, Repr

/-- Base64 text between spaces. -/
def spaced (before after : Nat) (content : Bytes) : Text :=
  List.replicate before ' ' ++ Base64.encode content ++ List.replicate after ' '

/-- The words of a report. -/
def Form.words (content : Bytes) : Form → List Json.Word
  | .list => Json.listWords (content.map fun b => [.natural b.toNat])
  | .base64 before after => [.string (spaced before after content)]

/-- A report as it is recorded. -/
def Form.payload (content : Bytes) : Form → Payload
  | .list => .bytes content
  | .base64 before after => .base64 (spaced before after content)

/-- The words of a record. -/
def Written.words (record : Written) : List Json.Word :=
  Json.recordWords recordType record.payloadFirst record.time (record.form.words record.content)

/-- The entry of a record. -/
def Written.entry (record : Written) : Entry := ⟨record.time, record.form.payload record.content⟩

/-- The words of a recording. -/
def words (records : List Written) : List Json.Word := Json.listWords (records.map Written.words)

/-! ## Reading -/

theorem plain_spaced (before after : Nat) (content : Bytes) :
    Json.Plain (spaced before after content) := by
  intro c hc
  unfold spaced at hc
  rw [List.mem_append, List.mem_append] at hc
  rcases hc with (hc | hc) | hc
  · rw [List.eq_of_mem_replicate hc]
    rfl
  · exact (Base64.isSymbol_of_mem_encode hc).isPlain
  · rw [List.eq_of_mem_replicate hc]
    rfl

/-- A byte as a JSON value. -/
def byteValue (b : UInt8) : Json.Value := .scalar (.number (.natural b.toNat))

theorem byteOf_byteValue (b : UInt8) : byteOf (byteValue b) = some b := by
  show (if b.toNat < UInt8.size then some (UInt8.ofNat b.toNat) else none) = _
  rw [if_pos b.toNat_lt, UInt8.ofNat_toNat]

theorem mapM_byteOf (content : Bytes) : (content.map byteValue).mapM byteOf = some content := by
  induction content with
  | nil => rfl
  | cons b content ih =>
    rw [List.map_cons, List.mapM_cons, byteOf_byteValue, ih]
    rfl

theorem takes_payload_of_value {words : List Json.Word} {v : Json.Value} {p : Payload}
    (h : Takes (Json.value (Json.maxDepth - 2)) words v) (hp : Payload.ofValue v = some p) :
    Takes payload words p where
  opens := h.opens
  takes more text hmark hlaid := by
    obtain ⟨rest, hrest, hread⟩ := h.takes more text hmark hlaid
    refine ⟨rest, hrest, ?_⟩
    unfold payload
    rw [hread]
    simp only [bind, Except.bind, hp]

theorem takes_payload (form : Form) (content : Bytes) :
    Takes payload (form.words content) (form.payload content) := by
  cases form with
  | list =>
    have hbytes : List.Forall₂ (Takes (Json.value (Json.maxDepth - 3)))
        (content.map fun b => [.natural b.toNat]) (content.map byteValue) :=
      Json.forall₂_map fun b _ => Json.takes_value_natural (b.toNat_lt.le.trans (by decide)) _
    refine takes_payload_of_value (Json.takes_value_list hbytes) ?_
    rw [Payload.ofValue, mapM_byteOf]
    rfl
  | base64 before after =>
    exact takes_payload_of_value (Json.takes_value_string (plain_spaced before after content) _) rfl

/-- From every writing of a recording its entries are read. -/
theorem entries_laid {records : List Written} {json : Text} (h : Laid (words records) json) :
    entries (Utf8.encode json) = .ok (records.map Written.entry) := by
  have hrecords : List.Forall₂ (Takes (Json.record recordType payload))
      (records.map Written.words)
      (records.map fun record => (record.time, record.form.payload record.content)) :=
    Json.forall₂_map fun record _ =>
      Json.takes_record keyed_recordType record.payloadFirst record.time (takes_payload _ _)
  obtain ⟨rest, hread, hfinish⟩ :=
    (Json.takes_array hrecords "a sequence".toList).whole h
  have hreader : reader (Utf8.encode json) = .ok (records.map Written.entry, []) := by
    unfold reader
    rw [hread]
    show (Json.finish rest >>= _) = _
    rw [hfinish]
    show Except.ok ((records.map _).map _, []) = _
    rw [List.map_map]
    rfl
  unfold entries
  rw [hreader]

/-! ## Reports -/

/-- A report has the bytes that it was written for. -/
theorem content_payload (form : Form) (content : Bytes) (index : Nat) :
    (form.payload content).content index = .ok content := by
  cases form with
  | list => rfl
  | base64 before after =>
    have hspace : ∀ count, ∀ c ∈ List.replicate count ' ', Text.isBlank c = true := by
      intro count c hc
      rw [List.eq_of_mem_replicate hc]
      rfl
    have htrim : Text.trim (spaced before after content) = Base64.encode content :=
      Text.trim_blanks_append (hspace before) (hspace after)
        fun c hc => (Base64.isSymbol_of_mem_encode hc).isBlank
    rw [Form.payload, Payload.content, htrim, Base64.decode_encode]
    rfl

theorem frame_entry {record : Written} {p : Packet} (h : p.toBytes = record.content)
    (index : Nat) : record.entry.frame index = .ok ⟨record.time, p⟩ := by
  unfold Entry.frame Written.entry
  rw [content_payload, ← h]
  rfl

theorem frame_entry_of_length_ne {record : Written} (h : record.content.length ≠ Packet.size)
    (index : Nat) :
    record.entry.frame index = .error (.recordingLength index record.content.length) := by
  unfold Entry.frame Written.entry
  rw [content_payload]
  simp only [bind, Except.bind, Packet.ofBytes?_eq_none h]

/-! ## Frames -/

/-- The frames are those of the records, in order. -/
def Holds (frames : List Frame) (records : List Written) : Prop :=
  frames.map (fun f => (f.time, f.packet.toBytes)) = records.map fun r => (r.time, r.content)

theorem Holds.times {frames : List Frame} {records : List Written} (h : Holds frames records) :
    frames.map Frame.time = records.map Written.time := by
  have htimes := congrArg (List.map Prod.fst) h
  rwa [List.map_map, List.map_map] at htimes

theorem Holds.ordered_iff {frames : List Frame} {records : List Written}
    (h : Holds frames records) :
    Ordered frames ↔ (records.map Written.time).Pairwise (· ≤ ·) := by
  rw [← h.times, List.pairwise_map]
  rfl

/-- The report at place `k` is the first that does not have eight bytes. -/
structure MisfitAt (records : List Written) (k : Nat) (record : Written) : Prop where
  place : records[k]? = some record
  length_ne : record.content.length ≠ Packet.size
  first : ∀ j < k, ∀ r, records[j]? = some r → r.content.length = Packet.size

theorem MisfitAt.cons {records : List Written} {k : Nat} {record r : Written}
    (h : MisfitAt records k record) (hr : r.content.length = Packet.size) :
    MisfitAt (r :: records) (k + 1) record where
  place := h.place
  length_ne := h.length_ne
  first j hj s hs := by
    cases j with
    | zero =>
      cases hs
      exact hr
    | succ j => exact h.first j (Nat.lt_of_succ_lt_succ hj) s hs

theorem frames_of_length {records : List Written}
    (h : ∀ r ∈ records, r.content.length = Packet.size) (index : Nat) :
    ∃ fs, frames index (records.map Written.entry) = .ok fs ∧ Holds fs records := by
  induction records generalizing index with
  | nil => exact ⟨[], rfl, rfl⟩
  | cons r records ih =>
    obtain ⟨p, hp⟩ := Packet.exists_toBytes_eq (h r List.mem_cons_self)
    obtain ⟨fs, hframes, hholds⟩ := ih (fun s hs => h s (List.mem_cons_of_mem _ hs)) (index + 1)
    refine ⟨⟨r.time, p⟩ :: fs, ?_, ?_⟩
    · rw [List.map_cons, frames, frame_entry hp]
      show (frames (index + 1) _ >>= _) = _
      rw [hframes]
      rfl
    · unfold Holds at hholds ⊢
      rw [List.map_cons, List.map_cons, hholds, hp]

theorem frames_of_misfit {records : List Written}
    (h : ∃ r ∈ records, r.content.length ≠ Packet.size) (index : Nat) :
    ∃ k record, MisfitAt records k record ∧
      frames index (records.map Written.entry) =
        .error (.recordingLength (index + k) record.content.length) := by
  induction records generalizing index with
  | nil =>
    obtain ⟨r, hr, -⟩ := h
    exact absurd hr List.not_mem_nil
  | cons r records ih =>
    by_cases hr : r.content.length = Packet.size
    · have hrest : ∃ s ∈ records, s.content.length ≠ Packet.size := by
        obtain ⟨s, hs, hne⟩ := h
        rcases List.mem_cons.mp hs with rfl | hs
        · exact absurd hr hne
        · exact ⟨s, hs, hne⟩
      obtain ⟨p, hp⟩ := Packet.exists_toBytes_eq hr
      obtain ⟨k, record, hmisfit, hframes⟩ := ih hrest (index + 1)
      refine ⟨k + 1, record, hmisfit.cons hr, ?_⟩
      rw [List.map_cons, frames, frame_entry hp]
      show (frames (index + 1) _ >>= _) = _
      rw [hframes, Nat.add_assoc index 1 k, Nat.add_comm 1 k]
      rfl
    · refine ⟨0, r, ⟨rfl, hr, fun j hj => absurd hj (Nat.not_lt_zero j)⟩, ?_⟩
      rw [List.map_cons, frames, frame_entry_of_length_ne hr]
      rfl

/-! ## Timelines -/

section Timelines

variable {records : List Written}

theorem timeline_of_misfit (h : ∃ r ∈ records, r.content.length ≠ Packet.size) :
    ∃ k record, MisfitAt records k record ∧
      timeline (records.map Written.entry) =
        .error (.recordingLength k record.content.length) := by
  obtain ⟨k, record, hmisfit, hframes⟩ := frames_of_misfit h 0
  refine ⟨k, record, hmisfit, ?_⟩
  unfold timeline
  rw [hframes, Nat.zero_add]
  rfl

theorem timeline_of_ordered (h : ∀ r ∈ records, r.content.length = Packet.size)
    (hne : records ≠ []) (horder : (records.map Written.time).Pairwise (· ≤ ·)) :
    ∃ t : Timeline, timeline (records.map Written.entry) = .ok t ∧ Holds t.frames records := by
  obtain ⟨fs, hframes, hholds⟩ := frames_of_length h 0
  have hfs : fs ≠ [] := by
    rintro rfl
    exact hne (List.map_eq_nil_iff.mp hholds.symm)
  have hordered : Ordered fs := hholds.ordered_iff.mpr horder
  refine ⟨⟨fs, hfs, hordered⟩, ?_, hholds⟩
  unfold timeline
  rw [hframes]
  show (Timeline.ofFrames fs).mapError _ = _
  rw [Timeline.ofFrames_of_ordered hfs hordered]
  rfl

theorem timeline_of_not_ordered (h : ∀ r ∈ records, r.content.length = Packet.size)
    (horder : ¬ (records.map Written.time).Pairwise (· ≤ ·)) :
    ∃ k previous time, DropsAt (records.map Written.time) k previous time ∧
      timeline (records.map Written.entry) =
        .error (.recordingOrder (.outOfOrder (k + 1) time previous)) := by
  obtain ⟨fs, hframes, hholds⟩ := frames_of_length h 0
  have hordered : ¬ Ordered fs := mt hholds.ordered_iff.mp horder
  obtain ⟨k, previous, time, hdrop, hofFrames⟩ := Timeline.ofFrames_of_not_ordered hordered
  rw [hholds.times] at hdrop
  refine ⟨k, previous, time, hdrop, ?_⟩
  unfold timeline
  rw [hframes]
  show (Timeline.ofFrames fs).mapError _ = _
  rw [hofFrames]
  rfl

/-- Records become their timeline under three conditions. Each is necessary, since records that
break it are refused. -/
theorem exists_timeline_iff :
    (∃ t : Timeline, timeline (records.map Written.entry) = .ok t ∧ Holds t.frames records) ↔
      (∀ r ∈ records, r.content.length = Packet.size) ∧ records ≠ [] ∧
        (records.map Written.time).Pairwise (· ≤ ·) := by
  constructor
  · rintro ⟨t, hok, hholds⟩
    have hlength : ∀ r ∈ records, r.content.length = Packet.size := by
      by_contra hmisfit
      obtain ⟨k, record, -, herror⟩ := timeline_of_misfit (by simpa using hmisfit)
      rw [herror] at hok
      cases hok
    refine ⟨hlength, ?_, ?_⟩
    · rintro rfl
      exact t.ne_nil (List.map_eq_nil_iff.mp hholds)
    · by_contra horder
      obtain ⟨k, previous, time, -, herror⟩ := timeline_of_not_ordered hlength horder
      rw [herror] at hok
      cases hok
  · rintro ⟨hlength, hne, horder⟩
    exact timeline_of_ordered hlength hne horder

end Timelines

/-! ## Verdicts -/

/-- The result is this fault, which belongs to no line, under this code. -/
structure Refused (result : Except LocatedFault Timeline) (code : Text) (fault : Fault) : Prop where
  result_eq : result = .error (fault.locate 0 none)
  code_eq : fault.code = code

/-- What the result must be for these records. -/
structure Judged (records : List Written) (result : Except LocatedFault Timeline) : Prop where
  accepted : (∃ t : Timeline, result = .ok t ∧ Holds t.frames records) ↔
    (∀ r ∈ records, r.content.length = Packet.size) ∧ records ≠ [] ∧
      (records.map Written.time).Pairwise (· ≤ ·)
  misfit : (∃ r ∈ records, r.content.length ≠ Packet.size) →
    ∃ k record, MisfitAt records k record ∧
      Refused result "E4001".toList (.recordingLength k record.content.length)
  empty : records = [] → Refused result "E3001".toList .noRecords
  drop : (∀ r ∈ records, r.content.length = Packet.size) →
    ¬ (records.map Written.time).Pairwise (· ≤ ·) →
    ∃ k previous time, DropsAt (records.map Written.time) k previous time ∧
      Refused result "E4001".toList (.recordingOrder (.outOfOrder (k + 1) time previous))

theorem load_laid {records : List Written} {json : Text} (h : Laid (words records) json) :
    load json = (timeline (records.map Written.entry)).mapError (·.locate 0 none) := by
  unfold load
  rw [entries_laid h]
  rfl

theorem refused_of_timeline {records : List Written} {json : Text} {fault : Fault}
    (h : Laid (words records) json)
    (hfault : timeline (records.map Written.entry) = .error fault) :
    Refused (load json) fault.code fault := by
  refine ⟨?_, rfl⟩
  rw [load_laid h, hfault]
  rfl

/-- **Recordings are passed on as they are.** However records are written, loading gives them back
if all reports have eight bytes, there are any, and no time goes back; otherwise it names the first
report of another size, or else that there are none, or else the first time that goes back. -/
theorem judged_of_laid {records : List Written} {json : Text} (h : Laid (words records) json) :
    Judged records (load json) where
  accepted := by
    rw [load_laid h]
    simp only [mapError_eq_ok_iff]
    exact exists_timeline_iff
  misfit hmisfit := by
    obtain ⟨k, record, hfirst, hfault⟩ := timeline_of_misfit hmisfit
    exact ⟨k, record, hfirst, refused_of_timeline h hfault⟩
  empty hnil := by
    subst hnil
    exact refused_of_timeline h rfl
  drop hlength horder := by
    obtain ⟨k, previous, time, hfirst, hfault⟩ := timeline_of_not_ordered hlength horder
    exact ⟨k, previous, time, hfirst, refused_of_timeline h hfault⟩

/-- Three records, of which the second goes back in time and the third has three bytes. -/
def mixedRecords : List Written :=
  [⟨20, [0, 4, 8, 128, 128, 128, 128, 0], .base64 2 1, true⟩,
    ⟨10, [0, 0, 8, 128, 128, 128, 128, 0], .list, false⟩,
    ⟨30, [1, 2, 255], .base64 0 0, true⟩]

/-- A way to write them. -/
def mixedJson : Text :=
  "[ \x7b\"Packet\" : \"  AAQIgICAgAA= \",".toList ++ "\n\t\"TimestampMs\":20\x7d,".toList ++
    "\x7b\"TimestampMs\":10,".toList ++ "\"Packet\":[0,0, 8,128,128,128,128 ,0]\x7d,".toList ++
    "\x7b\"Packet\":\"AQL/\",".toList ++ " \"TimestampMs\": 30 \x7d]\r\n".toList

theorem judged_mixedRecords : Laid (words mixedRecords) mixedJson ∧
    Judged mixedRecords (load mixedJson) := by
  have hlaid : Laid (words mixedRecords) mixedJson := Json.laid_of_laysOut (by decide +kernel)
  exact ⟨hlaid, judged_of_laid hlaid⟩

end PadScript.Recording
