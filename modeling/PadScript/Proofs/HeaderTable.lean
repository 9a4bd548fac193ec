import PadScript.Header
import PadScript.Proofs.Numeral
import PadScript.Proofs.Timeline

/-!
# Tables in headers

A header keeps all of its timeline: the frames can be read back from its text, and so can how it was
written as far as the firmware depends on it (`render_lossless`).

1. A header is made of printed lines, so its text falls into those lines again (`lines_render`).
   Only one of them defines the number of frames, and only one opens the table (`exists_lines`).
2. Between the line that opens the table and the one that ends it stand its rows
   (`tableLines_render`), and a row shows its frame: the time in decimal, and the bytes in two
   hexadecimal digits each (`showsFrame_row`).
3. A line shows at most one frame (`ShowsFrame.unique`): decimal digits end at the first comma, and
   all bytes are equally long. So timelines with the same header have the same frames.
-/

namespace PadScript

/-! ## Printed text -/

namespace Text

/-- The printable ASCII characters. -/
def isPrinted (c : Char) : Bool := 0x20 ≤ c.toNat && c.toNat ≤ 0x7E

/-- The text is made of printable ASCII characters. -/
def Printed (s : Text) : Prop := ∀ c ∈ s, isPrinted c = true

instance (s : Text) : Decidable (Printed s) := List.decidableBAll (fun c => isPrinted c = true) s

namespace Printed

variable {s t : Text}

theorem append (hs : Printed s) (ht : Printed t) : Printed (s ++ t) :=
  List.forall_mem_append.mpr ⟨hs, ht⟩

theorem ofNat (n : Nat) : Printed (Text.ofNat n) := by
  intro c hc
  have hdigit := toNat_of_mem_ofNat hc
  unfold isPrinted
  simp only [Bool.and_eq_true, decide_eq_true_eq]
  omega

theorem join {sep : Text} (hsep : Printed sep) {ps : List Text} (h : ∀ p ∈ ps, Printed p) :
    Printed (Text.join sep ps) := by
  induction ps with
  | nil => exact fun _ hc => absurd hc List.not_mem_nil
  | cons p ps ih =>
    have hp := h p List.mem_cons_self
    cases ps with
    | nil => exact hp
    | cons q qs => exact (hp.append hsep).append (ih fun r hr => h r (List.mem_cons_of_mem _ hr))

theorem not_mem (h : Printed s) {c : Char} (hc : isPrinted c = false) : c ∉ s := by
  intro hmem
  rw [h c hmem] at hc
  cases hc

end Printed

/-- Printed texts are the lines of what they make up when each is ended. -/
theorem lines_join_ended {ps : List Text} (hne : ps ≠ []) (h : ∀ p ∈ ps, Printed p) :
    lines (join ['\n'] ps ++ ['\n']) = ps := by
  have hpieces : pieces '\n' (join ['\n'] ps) = ps :=
    pieces_join hne fun p hp => (h p hp).not_mem (by decide)
  have hdrop : ps.map dropReturn = ps.map id := by
    refine List.map_congr_left fun p hp => if_neg fun hlast => ?_
    exact (h p hp).not_mem (c := '\r') (by decide) (List.mem_of_getLast? hlast)
  rw [lines_append, hpieces, hdrop, List.map_id]
  exact List.append_nil ps

/-- Texts without a separator can be told apart from what follows the separator. -/
theorem append_cons_inj {sep : Char} {a a' b b' : Text} (h : sep ∉ a) (h' : sep ∉ a')
    (heq : a ++ sep :: b = a' ++ sep :: b') : a = a' ∧ b = b' := by
  have hcut := cutFirst_append_cons h b
  rw [heq, cutFirst_append_cons h' b', Option.some_inj, Prod.mk.injEq] at hcut
  exact ⟨hcut.1.symm, hcut.2.symm⟩

/-- Equally long texts can be told apart when they are joined. -/
theorem join_append_inj {sep : Text} {k : Nat} {ps qs : List Text} {s t : Text}
    (hps : ∀ p ∈ ps, p.length = k) (hqs : ∀ q ∈ qs, q.length = k) (hlength : ps.length = qs.length)
    (h : join sep ps ++ s = join sep qs ++ t) : ps = qs ∧ s = t := by
  induction ps generalizing qs with
  | nil =>
    obtain rfl := List.length_eq_zero_iff.mp hlength.symm
    exact ⟨rfl, h⟩
  | cons p ps ih =>
    obtain ⟨q, qs, rfl⟩ := List.exists_cons_of_length_eq_add_one hlength.symm
    have hp := hps p List.mem_cons_self
    have hq := hqs q List.mem_cons_self
    rw [List.forall_mem_cons] at hps hqs
    cases ps with
    | nil =>
      obtain rfl : qs = [] := by simpa using hlength.symm
      obtain ⟨rfl, rfl⟩ := List.append_inj h (hp.trans hq.symm)
      exact ⟨rfl, rfl⟩
    | cons p' ps =>
      obtain ⟨q', qs, rfl⟩ : ∃ q' qs', qs = q' :: qs' := by
        cases qs with
        | nil => simp at hlength
        | cons q' qs => exact ⟨q', qs, rfl⟩
      simp only [join, List.append_assoc] at h
      obtain ⟨rfl, hrest⟩ := List.append_inj h (hp.trans hq.symm)
      obtain ⟨hrests, rfl⟩ := ih hps.2 hqs.2 (by simpa using hlength)
        (List.append_cancel_left hrest)
      rw [hrests]
      exact ⟨rfl, rfl⟩

end Text

namespace Header

/-! ## What a line shows -/

/-- The hexadecimal digits in the order of their values. -/
def upperHexDigits : Text := "0123456789ABCDEF".toList

/-- The text is `0x` and the two upper-case hexadecimal digits of a byte. -/
def IsHexByte (text : Text) (b : UInt8) : Prop :=
  ∃ high low, text = ['0', 'x', high, low] ∧ upperHexDigits[b.toNat / 16]? = some high ∧
    upperHexDigits[b.toNat % 16]? = some low

/-- The line shows the time of a frame in decimal and its bytes in hexadecimal, in the order in
which they are sent, and ends as given. -/
def ShowsFrame (line : Text) (frame : Frame) (ending : Text) : Prop :=
  ∃ digits bytes, Text.IsDigits 10 digits frame.time.toNat ∧
    List.Forall₂ IsHexByte bytes frame.packet.toBytes ∧
    line = "    \x7b ".toList ++ digits ++ ", \x7b ".toList ++ Text.join ", ".toList bytes ++
      " \x7d \x7d".toList ++ ending

theorem IsHexByte.length {text : Text} {b : UInt8} (h : IsHexByte text b) : text.length = 4 := by
  obtain ⟨high, low, rfl, -⟩ := h
  rfl

theorem IsHexByte.unique {text : Text} {b b' : UInt8} (h : IsHexByte text b)
    (h' : IsHexByte text b') : b = b' := by
  have hnodup : upperHexDigits.Nodup := by decide
  obtain ⟨high, low, rfl, hhigh, hlow⟩ := h
  obtain ⟨high', low', htext, hhigh', hlow'⟩ := h'
  cases htext
  have hquotient : b.toNat / 16 = b'.toNat / 16 :=
    (List.getElem?_inj (List.getElem?_eq_some_iff.mp hhigh).1 hnodup).mp
      (hhigh.trans hhigh'.symm)
  have hremainder : b.toNat % 16 = b'.toNat % 16 :=
    (List.getElem?_inj (List.getElem?_eq_some_iff.mp hlow).1 hnodup).mp (hlow.trans hlow'.symm)
  apply UInt8.toNat_inj.mp
  omega

theorem isHexByte_ofByteHex (b : UInt8) : IsHexByte ('0' :: 'x' :: Text.ofByteHex b) b := by
  have hall : ∀ n < 16, upperHexDigits[n]? = some (Text.upperHexDigit n) := by decide
  have hb := b.toNat_lt
  exact ⟨_, _, rfl, hall _ (by omega), hall _ (by omega)⟩

theorem length_of_forall₂ {texts : List Text} {bs : List UInt8}
    (h : List.Forall₂ IsHexByte texts bs) : ∀ text ∈ texts, text.length = 4 := by
  induction h with
  | nil => exact fun text htext => absurd htext List.not_mem_nil
  | cons hb _ ih => exact List.forall_mem_cons.mpr ⟨hb.length, ih⟩

/-- A line shows at most one frame, and ends in one way. -/
theorem ShowsFrame.unique {line ending ending' : Text} {frame frame' : Frame}
    (h : ShowsFrame line frame ending) (h' : ShowsFrame line frame' ending') :
    frame = frame' ∧ ending = ending' := by
  obtain ⟨digits, bytes, hdigits, hbytes, rfl⟩ := h
  obtain ⟨digits', bytes', hdigits', hbytes', hline⟩ := h'
  have hcomma : ∀ {s : Text} {n : Nat}, Text.IsDigits 10 s n → ',' ∉ s := fun hs hmem =>
    absurd (hs.mem_numeralSigns ',' hmem) (by decide)
  have hopening : ", \x7b ".toList = ',' :: " \x7b ".toList := by decide
  simp only [List.append_assoc, List.append_cancel_left_eq, hopening, List.cons_append] at hline
  obtain ⟨rfl, hrest⟩ := Text.append_cons_inj (hcomma hdigits) (hcomma hdigits') hline
  have hbytesLine := List.append_cancel_left hrest
  obtain ⟨rfl, hending⟩ := Text.join_append_inj (length_of_forall₂ hbytes)
    (length_of_forall₂ hbytes') (hbytes.length_eq.trans hbytes'.length_eq.symm) hbytesLine
  have hpacket : frame.packet = frame'.packet := by
    have hunique : Relator.RightUnique IsHexByte := fun _ _ _ h h' => h.unique h'
    have htoBytes := List.right_unique_forall₂' hunique hbytes hbytes'
    have hofBytes := Packet.ofBytes?_toBytes frame.packet
    rw [htoBytes, Packet.ofBytes?_toBytes] at hofBytes
    exact (Option.some.inj hofBytes).symm
  have htime : frame.time = frame'.time := by
    have hread := Text.readNat_eq_some_iff.mpr hdigits
    rw [Text.readNat_eq_some_iff.mpr hdigits'] at hread
    exact (UInt32.toNat_inj.mp (Option.some.inj hread)).symm
  obtain ⟨time, packet⟩ := frame
  cases htime
  cases hpacket
  exact ⟨rfl, List.append_cancel_left hending⟩

/-! ## Rows -/

theorem showsFrame_row (frame : Frame) (ending : Text) :
    ShowsFrame (row frame ++ ending) frame ending := by
  refine ⟨Text.ofNat frame.time.toNat,
    frame.packet.toBytes.map fun b => '0' :: 'x' :: Text.ofByteHex b, ?_, ?_, rfl⟩
  · exact Text.readNat_eq_some_iff.mp (Text.readNat_ofNat _)
  · rw [List.forall₂_map_left_iff, List.forall₂_same]
    exact fun b _ => isHexByte_ofByteHex b

theorem printed_row (frame : Frame) : Text.Printed (row frame) := by
  have hdigit : ∀ n < 16, Text.Printed [Text.upperHexDigit n] := by decide
  have hbytes : ∀ text ∈ frame.packet.toBytes.map fun b => '0' :: 'x' :: Text.ofByteHex b,
      Text.Printed text := by
    intro text htext
    obtain ⟨b, -, rfl⟩ := List.mem_map.mp htext
    have hb := b.toNat_lt
    have hhigh := hdigit (b.toNat / 16) (by omega)
    have hlow := hdigit (b.toNat % 16) (by omega)
    exact Text.Printed.append (s := ['0', 'x']) (by decide) (hhigh.append hlow)
  refine Text.Printed.append (.append (.append (.append (by decide) (.ofNat _)) (by decide)) ?_)
    (by decide)
  exact .join (by decide) hbytes

/-- What stands after the row with an index, of so many. -/
def rowEnding (index count : Nat) : Text := if index + 1 < count then [','] else []

theorem length_rows (frames : List Frame) : (rows frames).length = frames.length := by
  fun_induction rows frames with
  | case1 => rfl
  | case2 => rfl
  | case3 frame next rest ih => rw [List.length_cons, List.length_cons, ih]

theorem getElem?_rows {frames : List Frame} {i : Nat} {frame : Frame}
    (h : frames[i]? = some frame) :
    (rows frames)[i]? = some (row frame ++ rowEnding i frames.length) := by
  fun_induction rows frames generalizing i with
  | case1 => cases h
  | case2 only =>
    cases i with
    | zero =>
      cases h
      exact congrArg some (List.append_nil _).symm
    | succ i => cases h
  | case3 first next rest ih =>
    cases i with
    | zero =>
      cases h
      rfl
    | succ i =>
      have hending : rowEnding (i + 1) (first :: next :: rest).length =
          rowEnding i (next :: rest).length := by
        unfold rowEnding
        simp only [List.length_cons, Nat.add_lt_add_iff_right]
      rw [List.getElem?_cons_succ, hending]
      exact ih h

theorem exists_of_mem_rows {frames : List Frame} {line : Text} (h : line ∈ rows frames) :
    ∃ frame index, line = row frame ++ rowEnding index frames.length := by
  obtain ⟨i, hi⟩ := List.mem_iff_getElem?.mp h
  have hlt : i < frames.length := by
    rw [← length_rows]
    exact (List.getElem?_eq_some_iff.mp hi).1
  have hrow := getElem?_rows (List.getElem?_eq_getElem hlt)
  exact ⟨_, i, Option.some.inj (hi.symm.trans hrow)⟩

/-! ## Lines -/

/-- The text before the number of frames in the line that defines it. -/
def countName : Text := "#define EMBEDDED_MACRO_FRAME_COUNT ".toList

/-- The lines that open a table. -/
def tableOpenings : List Text :=
  ["const EmbeddedMacroFrame_t embedded_macro_frames[] PROGMEM = \x7b".toList,
    "static const EmbeddedMacroFrame_t embedded_macro_frames[] = \x7b".toList]

/-- The line that ends a table. -/
def tableEnd : Text := "\x7d;".toList

/-- The characters that those lines start with. -/
def openingSigns : List (Option Char) := [some 'c', some 's']

theorem head?_mem_of_mem_tableOpenings {line : Text} (h : line ∈ tableOpenings) :
    line.head? ∈ openingSigns := by
  have hall : ∀ line ∈ tableOpenings, line.head? ∈ openingSigns := by decide +kernel
  exact hall line h

/-- A printed line that neither defines the number of frames nor starts like one that opens a
table. -/
def Neutral (line : Text) : Prop :=
  Text.Printed line ∧ (line.head? = some '#' → ¬ countName <+: line) ∧
    line.head? ∉ openingSigns

instance (line : Text) : Decidable (Neutral line) :=
  inferInstanceAs (Decidable (_ ∧ _ ∧ _))

theorem head?_of_countName_isPrefix {line : Text} (h : countName <+: line) :
    line.head? = some '#' := by
  obtain ⟨rest, rfl⟩ := h
  rfl

theorem Neutral.not_countName_isPrefix {line : Text} (h : Neutral line) :
    ¬ countName <+: line := fun hcount => h.2.1 (head?_of_countName_isPrefix hcount) hcount

theorem Neutral.not_mem_tableOpenings {line : Text} (h : Neutral line) :
    line ∉ tableOpenings := fun hmem => h.2.2 (head?_mem_of_mem_tableOpenings hmem)

theorem not_countName_isPrefix_of_mem {line : Text} (h : line ∈ tableOpenings) :
    ¬ countName <+: line := by
  intro hcount
  have hhead := head?_mem_of_mem_tableOpenings h
  rw [head?_of_countName_isPrefix hcount] at hhead
  exact absurd hhead (by decide)

theorem printed_seconds (duration : Millis) : Text.Printed (seconds duration) := by
  have hdigit : ∀ d < 10, Text.isPrinted (Nat.digitChar d) = true := by decide
  unfold seconds Binary64.toTextTwoPlaces
  refine .append (.ofNat _) ?_
  refine List.forall_mem_cons.mpr ⟨by decide, List.forall_mem_cons.mpr ⟨?_, ?_⟩⟩
  · exact hdigit _ (Nat.mod_lt _ (by decide))
  · exact List.forall_mem_singleton.mpr (hdigit _ (Nat.mod_lt _ (by decide)))

theorem neutral_duration (t : Timeline) :
    Neutral ("// Macro duration: ".toList ++ seconds t.duration ++ " seconds (".toList ++
      Text.ofNat t.size ++ " frames)".toList) := by
  have hhead : ∀ rest : Text, ("// Macro duration: ".toList ++ rest).head? = some '/' :=
    fun rest => rfl
  refine ⟨?_, fun hsign => ?_, ?_⟩
  · exact .append (.append (.append (.append (by decide +kernel) (printed_seconds _))
      (by decide +kernel)) (.ofNat _)) (by decide +kernel)
  · simp only [List.append_assoc, hhead] at hsign
    exact absurd hsign (by decide)
  · simp only [List.append_assoc, hhead]
    decide

/-- One line of the preamble defines the number of frames, and none opens the table. -/
theorem exists_preamble (t : Timeline) (o : Options) :
    ∃ before after, preamble t o = before ++ (countName ++ Text.ofNat t.size) :: after ∧
      ∀ line ∈ before ++ after, Neutral line := by
  unfold preamble
  refine ⟨_ ++ [_, _, _, _], _, (List.append_assoc _ [_, _, _, _] (_ :: _)).symm, ?_⟩
  simp only [List.forall_mem_append]
  refine ⟨⟨⟨by decide +kernel, ?_⟩, ?_⟩, ?_⟩
  · split <;> decide +kernel
  · cases o.looped <;> decide +kernel
  · refine List.forall_mem_cons.mpr ⟨by decide, List.forall_mem_cons.mpr ⟨neutral_duration t, ?_⟩⟩
    decide +kernel

theorem exists_opening (platform : Platform) :
    ∃ comment line, opening platform = [comment, line] ∧ Neutral comment ∧
      line ∈ tableOpenings := by
  unfold opening
  split
  · exact ⟨_, _, rfl, by decide +kernel, List.mem_cons_self⟩
  · exact ⟨_, _, rfl, by decide +kernel, List.mem_cons_of_mem _ List.mem_cons_self⟩

theorem exists_closing (platform : Platform) :
    ∃ rest, closing platform = tableEnd :: rest ∧ ∀ line ∈ rest, Neutral line := by
  refine ⟨_, rfl, ?_⟩
  cases platform.usesProgramMemory <;> decide +kernel

/-- The lines of a header are neutral but for the one that defines the number of frames, the one
that opens the table, the rows, and the one that ends the table. -/
theorem exists_lines (t : Timeline) (o : Options) :
    ∃ before after opening rest, opening ∈ tableOpenings ∧
      lines t o = before ++ (countName ++ Text.ofNat t.size) :: (after ++
        opening :: (rows t.frames ++ tableEnd :: rest)) ∧
      ∀ line ∈ before ++ after ++ rest, Neutral line := by
  obtain ⟨before, after, hpreamble, hneutral⟩ := exists_preamble t o
  obtain ⟨comment, opening, hopening, hcomment, hmem⟩ := exists_opening o.platform
  obtain ⟨rest, hclosing, hrest⟩ := exists_closing o.platform
  refine ⟨before, after ++ [comment], opening, rest, hmem, ?_, ?_⟩
  · unfold lines
    rw [hpreamble, hopening, hclosing]
    simp
  · simp only [List.forall_mem_append, List.forall_mem_singleton] at hneutral ⊢
    exact ⟨⟨hneutral.1, hneutral.2, hcomment⟩, hrest⟩

/-- Every line of a header is neutral, or one of those that count. -/
theorem mem_lines_cases {t : Timeline} {o : Options} {line : Text} (h : line ∈ lines t o) :
    Neutral line ∨ line = countName ++ Text.ofNat t.size ∨ line ∈ tableOpenings ∨
      line = tableEnd ∨ line ∈ rows t.frames := by
  obtain ⟨before, after, opening, rest, hopening, hlines, hneutral⟩ := exists_lines t o
  rw [hlines] at h
  simp only [List.mem_append, List.mem_cons] at h hneutral
  rcases h with h | rfl | h | rfl | h | rfl | h
  · exact .inl (hneutral line (.inl (.inl h)))
  · exact .inr (.inl rfl)
  · exact .inl (hneutral line (.inl (.inr h)))
  · exact .inr (.inr (.inl hopening))
  · exact .inr (.inr (.inr (.inr h)))
  · exact .inr (.inr (.inr (.inl rfl)))
  · exact .inl (hneutral line (.inr h))

theorem printed_of_mem_rows {frames : List Frame} {line : Text} (h : line ∈ rows frames) :
    Text.Printed line := by
  obtain ⟨frame, index, rfl⟩ := exists_of_mem_rows h
  refine (printed_row frame).append ?_
  unfold rowEnding
  split <;> decide +kernel

theorem head?_of_mem_rows {frames : List Frame} {line : Text} (h : line ∈ rows frames) :
    line.head? = some ' ' := by
  obtain ⟨frame, index, rfl⟩ := exists_of_mem_rows h
  rfl

theorem printed_of_mem_lines {t : Timeline} {o : Options} {line : Text} (h : line ∈ lines t o) :
    Text.Printed line := by
  rcases mem_lines_cases h with h | rfl | h | rfl | h
  · exact h.1
  · exact .append (by decide +kernel) (.ofNat _)
  · have hall : ∀ line ∈ tableOpenings, Text.Printed line := by decide +kernel
    exact hall line h
  · decide +kernel
  · exact printed_of_mem_rows h

/-- The text of a header falls into the lines that it was made of. -/
theorem lines_render (t : Timeline) (o : Options) : Text.lines (render t o) = lines t o := by
  refine Text.lines_join_ended (fun hnil => ?_) fun line hline => printed_of_mem_lines hline
  obtain ⟨before, after, opening, rest, -, hlines, -⟩ := exists_lines t o
  rw [hnil] at hlines
  simp at hlines

/-- Whether a line opens a table. -/
def opensTable (line : Text) : Bool := tableOpenings.any (· = line)

theorem opensTable_eq_true_iff {line : Text} : opensTable line = true ↔ line ∈ tableOpenings := by
  simp [opensTable]

/-- The lines of a header between the line that opens its table and the line that ends it. -/
def tableLines (header : Text) : List Text :=
  (((Text.lines header).dropWhile (!opensTable ·)).drop 1).takeWhile (· ≠ tableEnd)

theorem tableLines_render (t : Timeline) (o : Options) :
    tableLines (render t o) = rows t.frames := by
  obtain ⟨before, after, opening, rest, hopening, hlines, hneutral⟩ := exists_lines t o
  have hcount : countName ++ Text.ofNat t.size ∉ tableOpenings := by
    intro hmem
    exact not_countName_isPrefix_of_mem hmem (List.prefix_append _ _)
  have hskip : ∀ line ∈ before ++ (countName ++ Text.ofNat t.size) :: after,
      (!opensTable line) = true := by
    simp only [List.forall_mem_append, List.forall_mem_cons, Bool.not_eq_true',
      Bool.eq_false_iff, ne_eq, opensTable_eq_true_iff] at hneutral ⊢
    exact ⟨fun line h => (hneutral.1.1 line h).not_mem_tableOpenings, hcount,
      fun line h => (hneutral.1.2 line h).not_mem_tableOpenings⟩
  have hrows : ∀ line ∈ rows t.frames, decide (line ≠ tableEnd) = true := by
    intro line hline
    refine decide_eq_true fun hend => ?_
    have hhead := head?_of_mem_rows hline
    rw [hend] at hhead
    cases hhead
  have hsplit : lines t o = (before ++ (countName ++ Text.ofNat t.size) :: after) ++
      opening :: (rows t.frames ++ tableEnd :: rest) := by rw [hlines]; simp
  unfold tableLines
  rw [lines_render, hsplit, List.dropWhile_append_of_pos hskip,
    List.dropWhile_cons_of_neg (by simpa using opensTable_eq_true_iff.mpr hopening),
    List.drop_one, List.tail_cons, List.takeWhile_append_of_pos hrows,
    List.takeWhile_cons_of_neg (by simp), List.append_nil]

/-- Only one line of a header defines the number of frames. -/
theorem countName_append_mem_lines_iff (t : Timeline) (o : Options) (value : Text) :
    countName ++ value ∈ lines t o ↔ value = Text.ofNat t.size := by
  constructor
  · intro h
    rcases mem_lines_cases h with h | h | h | h | h
    · exact absurd (List.prefix_append _ _) h.not_countName_isPrefix
    · exact List.append_cancel_left h
    · exact absurd (List.prefix_append _ _) (not_countName_isPrefix_of_mem h)
    · cases h
    · cases head?_of_mem_rows h
  · rintro rfl
    obtain ⟨before, after, opening, rest, -, hlines, -⟩ := exists_lines t o
    rw [hlines]
    exact List.mem_append_right _ List.mem_cons_self

/-! ## Reading headers back -/

/-- The table of a header shows these frames, one on each of the lines that the header says there
are, with a comma after each but the last. -/
structure Tabulates (header : Text) (frames : List Frame) : Prop where
  length : (tableLines header).length = frames.length
  count : ∀ value, countName ++ value ∈ Text.lines header ↔
    value = Text.ofNat (tableLines header).length
  rows : ∀ i frame, frames[i]? = some frame → ∃ line, (tableLines header)[i]? = some line ∧
    ShowsFrame line frame (if i + 1 < frames.length then [','] else []) ∧
    ∀ other ending, ShowsFrame line other ending → other = frame

theorem tabulates_render (t : Timeline) (o : Options) : Tabulates (render t o) t.frames where
  length := by rw [tableLines_render, length_rows]
  count value := by
    rw [lines_render, tableLines_render, length_rows]
    exact countName_append_mem_lines_iff t o value
  rows i frame hframe := by
    have hshows := showsFrame_row frame (rowEnding i t.frames.length)
    refine ⟨row frame ++ rowEnding i t.frames.length, ?_, hshows, fun other ending hother => ?_⟩
    · rw [tableLines_render]
      exact getElem?_rows hframe
    · exact (hother.unique hshows).1

/-- A header shows the frames of one timeline only. -/
theorem Tabulates.unique {header : Text} {frames frames' : List Frame}
    (h : Tabulates header frames) (h' : Tabulates header frames') : frames = frames' := by
  have hlength : frames.length = frames'.length := h.length.symm.trans h'.length
  refine List.ext_getElem hlength fun i hi hi' => ?_
  obtain ⟨line, hline, hshows, -⟩ := h.rows i _ (List.getElem?_eq_getElem hi)
  obtain ⟨line', hline', -, hunique⟩ := h'.rows i _ (List.getElem?_eq_getElem hi')
  obtain rfl := Option.some.inj (hline.symm.trans hline')
  exact hunique _ _ hshows

theorem getElem?_lines_platform (t : Timeline) (o : Options) :
    (lines t o)[8]? =
      some (if o.platform = .avr then "#include <avr/pgmspace.h>".toList else []) := by
  obtain ⟨looped, platform⟩ := o
  cases platform <;> rfl

theorem getElem?_lines_looped (t : Timeline) (o : Options) :
    (lines t o)[if o.platform = .avr then 12 else 11]? =
      some ("#define EMBEDDED_MACRO_LOOP ".toList ++ [if o.looped then '1' else '0']) := by
  obtain ⟨looped, platform⟩ := o
  cases platform <;> rfl

theorem platform_of_lines {t t' : Timeline} {o o' : Options} (h : lines t o = lines t' o') :
    o.platform = .avr ↔ o'.platform = .avr := by
  have hline := getElem?_lines_platform t o
  rw [h, getElem?_lines_platform t' o'] at hline
  by_cases hp : o.platform = .avr <;> by_cases hp' : o'.platform = .avr <;>
    simp [hp, hp'] at hline ⊢

theorem looped_of_lines {t t' : Timeline} {o o' : Options} (h : lines t o = lines t' o') :
    o.looped = o'.looped := by
  have hline := getElem?_lines_looped t o
  simp only [h, platform_of_lines h] at hline
  rw [getElem?_lines_looped t' o', Option.some_inj] at hline
  have hsign := List.append_cancel_left hline
  cases hl : o.looped <;> cases hl' : o'.looped <;> simp [hl, hl'] at hsign ⊢

/-- **A header loses nothing.** Two timelines with the same header have the same frames, and their
headers were written alike as far as the firmware depends on it. The table of a header has as many
lines as the header says, and each shows its frame. -/
theorem render_lossless :
    (∀ (t t' : Timeline) (o o' : Options), render t o = render t' o' →
      t.frames = t'.frames ∧ o.looped = o'.looped ∧
        (o.platform = .avr ↔ o'.platform = .avr)) ∧
      ∀ (t : Timeline) (o : Options), Tabulates (render t o) t.frames := by
  refine ⟨fun t t' o o' h => ?_, tabulates_render⟩
  have hlines : lines t o = lines t' o' := by
    rw [← lines_render t o, ← lines_render t' o', h]
  have htable := tabulates_render t o
  rw [h] at htable
  exact ⟨htable.unique (tabulates_render t' o'), looped_of_lines hlines, platform_of_lines hlines⟩

/-- Two buttons for a second and a half. -/
def tapTimeline : Timeline :=
  ⟨[⟨0, .ofParts 6 8 .centre .centre⟩, .neutral 1500], by decide, by decide⟩

theorem render_lossless_tapTimeline :
    render tapTimeline ⟨true, .esp32s3⟩ = render tapTimeline ⟨true, .pico⟩ ∧
      (Platform.esp32s3 = .avr ↔ Platform.pico = .avr) ∧
      Tabulates (render tapTimeline ⟨true, .pico⟩) tapTimeline.frames := by
  have h : render tapTimeline ⟨true, .esp32s3⟩ = render tapTimeline ⟨true, .pico⟩ := rfl
  exact ⟨h, (render_lossless.1 _ _ _ _ h).2.2, render_lossless.2 _ _⟩

example : rows tapTimeline.frames =
    ["    \x7b 0, \x7b 0x00, 0x06, 0x08, 0x80, 0x80, 0x80, 0x80, 0x00 \x7d \x7d,".toList,
      "    \x7b 1500, \x7b 0x00, 0x00, 0x08, 0x80, 0x80, 0x80, 0x80, 0x00 \x7d \x7d".toList] := by
  decide +kernel

end Header

end PadScript
