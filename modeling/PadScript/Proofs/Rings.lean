import Mathlib.Algebra.Order.BigOperators.Group.Finset
import PadScript.Proofs.IncludePath
import PadScript.Proofs.Playback

/-!
# Rings and rows of files

Where files include each other in a ring, the limit decides whether the ring is found to be circular
or too deep, and where they include each other in a row, whether the row compiles: a ring or a row
of `n` includes needs a limit of `n`.

1. Lines that are skipped or read as inputs do not fail before a directive if their inputs fit on
   the clock (`ReadAs.runs`), so the fault of the file that a directive leads to is the fault of the
   file that includes it (`Visit.frames_eq_error_of_leads`).
2. Along a route of distinct files, the `i`-th file is opened with `i` files open around it, and a
   fault at the `i`-th file becomes that of the first one (`Route.exists_error`). In a ring, the
   file after the last one is open already; beyond the limit no file is opened at all.
3. The input lines of a row are those of its files, each around those of the next one
   (`Row.exists_flattenFile`).
-/

namespace PadScript.Script

/-! ## Lines without directives -/

/-- Lines that are skipped or read as these inputs. -/
inductive ReadAs : (raws : List Text) → (inputs : List Input) → Prop
  | done : ReadAs [] []
  | skip {raw : Text} {raws : List Text} {inputs : List Input} :
      Line.classify raw = .skip → ReadAs raws inputs → ReadAs (raw :: raws) inputs
  | input {raw body : Text} {raws : List Text} {input : Input} {inputs : List Input} :
      Line.classify raw = .input body → Input.read body = .ok input → ReadAs raws inputs →
      ReadAs (raw :: raws) (input :: inputs)

theorem ReadAs.exists_flattenLines {raws : List Text} {inputs : List Input}
    (h : ReadAs raws inputs) (follow : Text → Option (List Text)) :
    ∃ bodies, flattenLines follow raws = some bodies ∧ Reads bodies inputs := by
  induction h with
  | done => exact ⟨[], rfl, .nil⟩
  | @skip raw raws inputs hline _ ih =>
    obtain ⟨bodies, hbodies, hreads⟩ := ih
    have hskip : lineBodies follow raw = some [] := by
      unfold lineBodies
      rw [hline]
    exact ⟨bodies, flattenLines_cons_eq_some_iff.mpr ⟨[], bodies, hskip, hbodies, rfl⟩, hreads⟩
  | @input raw body raws input inputs hline hread _ ih =>
    obtain ⟨bodies, hbodies, hreads⟩ := ih
    exact ⟨body :: bodies, flattenLines_cons_eq_some_iff.mpr
      ⟨[body], bodies, lineBodies_input hline follow, hbodies, rfl⟩, .cons hread hreads⟩

theorem flattenLines_append {follow : Text → Option (List Text)} {first second : List Text}
    {bodies bodies' : List Text} (h : flattenLines follow first = some bodies)
    (h' : flattenLines follow second = some bodies') :
    flattenLines follow (first ++ second) = some (bodies ++ bodies') := by
  induction first generalizing bodies with
  | nil =>
    cases h
    exact h'
  | cons raw first ih =>
    obtain ⟨own, more, hown, hmore, rfl⟩ := flattenLines_cons_eq_some_iff.mp h
    rw [List.cons_append, List.append_assoc]
    exact flattenLines_cons_eq_some_iff.mpr ⟨own, more ++ bodies', hown, ih hmore, rfl⟩

/-- Lines around a directive stand for inputs around those that the directive leads to. -/
theorem exists_flattenLines_around {follow : Text → Option (List Text)} {raw target : Text}
    {before after inner : List Text} {early middle late : List Input}
    (hbefore : ReadAs before early) (hline : Line.classify raw = .directive target)
    (hfollow : follow target = some inner) (hinner : Reads inner middle)
    (hafter : ReadAs after late) :
    ∃ bodies, flattenLines follow (before ++ raw :: after) = some bodies ∧
      Reads bodies (early ++ (middle ++ late)) := by
  obtain ⟨first, hfirst, hearly⟩ := hbefore.exists_flattenLines follow
  obtain ⟨second, hsecond, hlate⟩ := hafter.exists_flattenLines follow
  have hraw : lineBodies follow raw = some inner := by
    unfold lineBodies
    rw [hline]
    exact hfollow
  have hrest : flattenLines follow (raw :: after) = some (inner ++ second) :=
    flattenLines_cons_eq_some_iff.mpr ⟨inner, second, hraw, hsecond, rfl⟩
  exact ⟨_, flattenLines_append hfirst hrest, List.rel_append hearly (List.rel_append hinner hlate)⟩

theorem totalTime_cons (input : Input) (inputs : List Input) :
    totalTime (input :: inputs) = input.duration.toNat + totalTime inputs := by
  unfold totalTime
  rw [List.length_cons, startTime_cons_succ]

theorem totalTime_append (first second : List Input) :
    totalTime (first ++ second) = totalTime first + totalTime second := by
  induction first with
  | nil => simp [totalTime]
  | cons input first ih => rw [List.cons_append, totalTime_cons, totalTime_cons, ih, Nat.add_assoc]

/-- Inputs can be sent from a time on if the time after them is one. -/
theorem exists_sends (clock : Millis) {inputs : List Input}
    (h : clock.toNat + totalTime inputs < UInt32.size) :
    ∃ frames stop, Sends clock inputs frames stop := by
  induction inputs generalizing clock with
  | nil => exact ⟨[], clock, sends_nil_iff.mpr ⟨rfl, rfl⟩⟩
  | cons input inputs ih =>
    rw [totalTime_cons] at h
    obtain ⟨next, hnext⟩ := Millis.exists_add (a := clock) (b := input.duration) (by omega)
    obtain ⟨frames, stop, hsends⟩ := ih next (by omega)
    exact ⟨_, stop, sends_cons_iff.mpr ⟨next, frames, hnext, hsends, rfl⟩⟩

/-- Lines that are skipped or read as inputs that fit on the clock are not refused. -/
theorem ReadAs.runs {raws : List Text} {inputs : List Input} (h : ReadAs raws inputs)
    {expand : Expander} {follow : Text → Option (List Text)} (hx : Agrees expand follow)
    {clock : Millis} (hfits : clock.toNat + totalTime inputs < UInt32.size)
    (origin : Option Path) (number : Nat) :
    ∃ result, runLines origin expand number raws clock = .ok result := by
  obtain ⟨bodies, hbodies, hreads⟩ := h.exists_flattenLines follow
  obtain ⟨frames, stop, hsends⟩ := exists_sends clock hfits
  exact ⟨(frames, stop), (runLines_eq_ok_iff hx).mpr
    ⟨bodies, hbodies, plays_iff_sends.mpr ⟨inputs, hreads, hsends⟩⟩⟩

/-! ## Files that lead to files -/

/-- The first directive of the file at `canonical`, which was asked for as `path`, leads to `next`.
The lines before it are skipped or read as `early`, and `after` are the lines after it. -/
def Leads (fs : FileSystem) (path canonical next : Path) (early : List Input)
    (after : List Text) : Prop :=
  ∃ source before raw target, fs.readText canonical = .ok source ∧
    Text.lines source = before ++ raw :: after ∧ ReadAs before early ∧
    Line.classify raw = .directive target ∧ Include.resolve fs path.parent? target = .ok next

/-- A source is refused as the target of a directive is, if the lines before it are not. -/
theorem compileSource_eq_error_of_directive {origin : Option Path} {expand : Expander}
    {source raw target : Text} {before after : List Text} {result : List Frame × Millis}
    {e : LocatedFault} (hlines : Text.lines source = before ++ raw :: after)
    (hrun : runLines origin expand 1 before 0 = .ok result)
    (hline : Line.classify raw = .directive target)
    (hexpand : expand (1 + before.length) target = .error e) :
    compileSource origin expand source = .error e := by
  unfold compileSource
  rw [hlines, runLines_append, hrun]
  simp only [runLines_cons, stepLine_directive hline, hexpand]
  rfl

namespace Visit

variable {fs : FileSystem} {limit : Nat} {v : Visit} {place next : Path}

/-- A fault of the file that a directive leads to is one of the file with the directive, if nothing
fails before it. -/
theorem frames_eq_error_of_leads {early : List Input} {after : List Text}
    (hlevels : v.levels ≠ 0) (hplace : fs.canonical v.path = .ok place)
    (hfresh : v.chain.contains place = false) (hleads : Leads fs v.path place next early after)
    (hfits : totalTime early < UInt32.size) {e : LocatedFault}
    (h : (v.inner place next).frames fs limit = .error e) :
    ∃ e', v.frames fs limit = .error e' ∧ e'.fault = e.fault := by
  obtain ⟨source, before, raw, target, htext, hlines, hread, hline, hnext⟩ := hleads
  have hx : Agrees
      (expander fs (some place) v.path.parent? fun next => (v.inner place next).frames fs limit)
      (follow fs v.path.parent? (flattenFile fs (v.levels - 1) (v.chain.extend place))) :=
    agrees_expander fun _ _ => compileFileFrames_eq_ok_iff
  have hzero : (0 : Millis).toNat + totalTime early < UInt32.size := by simpa using hfits
  obtain ⟨result, hrun⟩ := hread.runs hx hzero (some place) 1
  refine ⟨(e.orAtLine (1 + before.length)).orInFile (some place), ?_, by simp⟩
  rw [frames_of_opens ⟨hlevels, hplace, hfresh, htext⟩]
  exact compileSource_eq_error_of_directive hlines hrun hline
    (expander_eq_error_iff.mpr (.inr ⟨next, e, hnext, h, rfl⟩))

theorem frames_of_no_levels (h : v.levels = 0) :
    v.frames fs limit = .error (Fault.locate (.tooDeep limit v.path) 0 none) := by
  unfold frames
  rw [h]
  rfl

theorem frames_of_open (hlevels : v.levels ≠ 0) (hplace : fs.canonical v.path = .ok place)
    (hopen : v.chain.contains place = true) :
    v.frames fs limit =
      .error (Fault.locate (.circular (v.chain.extend place).paths) 0 none) := by
  obtain ⟨levels, hsucc⟩ := Nat.exists_eq_succ_of_ne_zero hlevels
  unfold frames
  rw [hsucc]
  exact compileFileFrames_succ_eq_error_iff.mpr (.inr ⟨place, hplace, .inl ⟨hopen, rfl⟩⟩)

/-- The visit of the file with an index, when each file is asked for by the one before. -/
def nth (limit : Nat) (path canonical : Nat → Path) (i : Nat) : Visit :=
  ⟨limit + 1 - i, ⟨(List.range i).map canonical⟩, path i⟩

theorem inner_nth (limit : Nat) (path canonical : Nat → Path) (i : Nat) :
    (nth limit path canonical i).inner (canonical i) (path (i + 1)) =
      nth limit path canonical (i + 1) := by
  unfold nth inner IncludeChain.extend
  rw [List.range_succ, List.map_append, Nat.sub_sub]
  rfl

theorem fresh_nth {path canonical : Nat → Path} {n i : Nat}
    (h : Distinct ((List.range n).map canonical)) (hi : i < n) :
    (nth limit path canonical i).chain.contains (canonical i) = false := by
  have hdistinct : Distinct ((List.range (i + 1)).map canonical) :=
    List.Pairwise.sublist ((List.range_sublist.mpr hi).map canonical) h
  rw [List.range_succ, List.map_append] at hdistinct
  exact IncludeChain.contains_eq_false_iff.mpr (distinct_concat_iff.mp hdistinct).2

end Visit

/-! ## Routes -/

/-- The first `n` files are distinct and each leads to the next one, with nothing before its
directive that fails. -/
structure Route (fs : FileSystem) (n : Nat) (path canonical : Nat → Path) : Prop where
  place : ∀ i < n, fs.canonical (path i) = .ok (canonical i)
  distinct : Distinct ((List.range n).map canonical)
  leads : ∀ i < n, ∃ early after,
    Leads fs (path i) (canonical i) (path (i + 1)) early after ∧ totalTime early ≤ 2 ^ 32 - 1

section Routes

variable {fs : FileSystem} {limit n : Nat} {path canonical : Nat → Path} {options : Options}

/-- A fault at a file of a route is one of the first file. -/
theorem Route.exists_error (h : Route fs n path canonical) {i : Nat} (hi : i ≤ n)
    (hlimit : i ≤ limit + 1) {e : LocatedFault}
    (he : (Visit.nth limit path canonical i).frames fs limit = .error e) :
    ∃ e', (Visit.top limit (path 0)).frames fs limit = .error e' ∧ e'.fault = e.fault := by
  -- the induction goes back along the route, from the file with the fault to the first one
  induction i generalizing e with
  | zero => exact ⟨e, he, rfl⟩
  | succ i ih =>
    obtain ⟨early, after, hleads, hfits⟩ := h.leads i hi
    have hlevels : limit + 1 - i ≠ 0 := by omega
    rw [← Visit.inner_nth] at he
    obtain ⟨e', he', hfault⟩ := Visit.frames_eq_error_of_leads hlevels (h.place i hi)
      (Visit.fresh_nth h.distinct hi) hleads (Nat.lt_of_le_pred (by decide) hfits) he
    obtain ⟨e'', he'', hfault'⟩ := ih (by omega) (by omega) he'
    exact ⟨e'', he'', hfault'.trans hfault⟩

theorem Route.compileFile_eq_error (h : Route fs n path canonical) {i : Nat} (hi : i ≤ n)
    (hlimit : i ≤ options.maxDepth + 1) {fault : Fault}
    (he : (Visit.nth options.maxDepth path canonical i).frames fs options.maxDepth =
      .error (fault.locate 0 none)) :
    ∃ e, compileFile fs options (path 0) = .error e ∧ e.fault = fault := by
  obtain ⟨e, htop, hfault⟩ := h.exists_error hi hlimit he
  refine ⟨e.orInFile (some (path 0)), compileFile_eq_error_iff.mpr ⟨e, rfl, .inl htop⟩, ?_⟩
  rw [LocatedFault.fault_orInFile, hfault]
  rfl

/-- The file of a route that is beyond the limit is not opened. -/
theorem Route.tooDeep (h : Route fs n path canonical) (hn : options.maxDepth < n) :
    ∃ e, compileFile fs options (path 0) = .error e ∧
      e.fault = .tooDeep options.maxDepth (path (options.maxDepth + 1)) := by
  have hlevels : options.maxDepth + 1 - (options.maxDepth + 1) = 0 := Nat.sub_self _
  exact h.compileFile_eq_error hn le_rfl (Visit.frames_of_no_levels hlevels)

/-- `n` files that include each other in a ring. -/
structure Ring (fs : FileSystem) (n : Nat) (path canonical : Nat → Path) : Prop
    extends Route fs n path canonical where
  pos : 1 ≤ n
  closes : fs.canonical (path n) = .ok (canonical 0)

theorem Ring.circular (h : Ring fs n path canonical) (hn : n ≤ options.maxDepth) :
    ∃ e, compileFile fs options (path 0) = .error e ∧
      e.fault = .circular ((List.range n).map canonical ++ [canonical 0]) := by
  have hlevels : options.maxDepth + 1 - n ≠ 0 := by omega
  refine h.compileFile_eq_error le_rfl (by omega) (Visit.frames_of_open hlevels h.closes ?_)
  have hfirst : canonical 0 ∈ (List.range n).map canonical :=
    List.mem_map_of_mem (List.mem_range.mpr h.pos)
  exact IncludeChain.contains_eq_true_iff.mpr ⟨canonical 0, hfirst, by simp [Path.same]⟩

end Routes

/-! ## Rows -/

/-- The inputs of `d` includes in a row from the `i`-th file on: those before the directive of a
file, those of the file that it leads to, and those after it. -/
def rowInputs (early late : Nat → List Input) : (d i : Nat) → List Input
  | 0, i => early i
  | d + 1, i => early i ++ (rowInputs early late d (i + 1) ++ late i)

/-- `n` includes in a row: each file but the last one has one directive, which leads to the next
file. All other lines are skipped or read as inputs, `early` of a file before its directive and
`late` after it. The last file has an input, and all inputs together fit on the clock. -/
structure Row (fs : FileSystem) (n : Nat) (path canonical : Nat → Path)
    (early late : Nat → List Input) : Prop where
  place : ∀ i ≤ n, fs.canonical (path i) = .ok (canonical i)
  distinct : Distinct ((List.range (n + 1)).map canonical)
  leads : ∀ i < n, ∃ after,
    Leads fs (path i) (canonical i) (path (i + 1)) (early i) after ∧ ReadAs after (late i)
  last : ∃ source, fs.readText (canonical n) = .ok source ∧ ReadAs (Text.lines source) (early n)
  sends : early n ≠ []
  fits : ∑ i ∈ Finset.range n, (totalTime (early i) + totalTime (late i)) + totalTime (early n) ≤
    2 ^ 32 - 1

theorem rowInputs_ne_nil {early late : Nat → List Input} {d i : Nat} (h : early (i + d) ≠ []) :
    rowInputs early late d i ≠ [] := by
  induction d generalizing i with
  | zero => exact h
  | succ d ih =>
    have hnext : rowInputs early late d (i + 1) ≠ [] := ih (by rwa [Nat.add_right_comm])
    simp [rowInputs, hnext]

theorem totalTime_rowInputs (early late : Nat → List Input) (d i : Nat) :
    totalTime (rowInputs early late d i) =
      ∑ j ∈ Finset.range d, (totalTime (early (i + j)) + totalTime (late (i + j))) +
        totalTime (early (i + d)) := by
  induction d generalizing i with
  | zero => simp [rowInputs]
  | succ d ih =>
    have hshift : ∀ j, i + 1 + j = i + (j + 1) := fun j => by omega
    rw [rowInputs, totalTime_append, totalTime_append, ih, Finset.sum_range_succ']
    simp only [hshift, Nat.add_zero]
    omega

/-- The lines of an opened file are gathered from its text. -/
theorem Visit.Opens.flattenFile_eq_some {fs : FileSystem} {v : Visit} {canonical : Path}
    {source : Text} {bodies : List Text} (h : v.Opens fs canonical source)
    (hlines : flattenLines (follow fs v.path.parent?
      (flattenFile fs (v.levels - 1) (v.chain.extend canonical))) (Text.lines source) =
        some bodies) :
    flattenFile fs v.levels v.chain v.path = some bodies := by
  obtain ⟨levels, hsucc⟩ := Nat.exists_eq_succ_of_ne_zero h.levels
  rw [hsucc] at hlines ⊢
  exact flattenFile_succ_eq_some_iff.mpr ⟨canonical, source, h.place, h.fresh, h.text, hlines⟩

/-- Lines compile if their inputs are some and fit on the clock. -/
theorem Reads.exists_timeline {bodies : List Text} {inputs : List Input} (h : Reads bodies inputs)
    (hne : inputs ≠ []) (hfits : totalTime inputs < UInt32.size) :
    ∃ t : Timeline, Compiles bodies t.frames := by
  obtain ⟨played, stop, hsends⟩ := exists_sends 0 (by simpa using hfits)
  have hframes : played ++ [.neutral stop] ≠ [] := List.concat_ne_nil _ _
  have hcompiles : Compiles bodies (played ++ [.neutral stop]) :=
    (compiles_iff_performs hframes).mpr
      ⟨inputs, h, performs_iff_sends.mpr ⟨hne, played, stop, hsends, rfl⟩⟩
  exact ⟨⟨_, hframes, hcompiles.ordered⟩, hcompiles⟩

namespace Row

variable {fs : FileSystem} {n : Nat} {path canonical : Nat → Path}
  {early late : Nat → List Input} {options : Options}

/-- The inputs before the directives fit on the clocks of their files. -/
theorem route (h : Row fs n path canonical early late) : Route fs n path canonical where
  place i hi := h.place i hi.le
  distinct := List.Pairwise.sublist ((List.range_sublist.mpr n.le_succ).map canonical) h.distinct
  leads i hi := by
    obtain ⟨after, hleads, -⟩ := h.leads i hi
    have hone := Finset.single_le_sum
      (f := fun i => totalTime (early i) + totalTime (late i))
      (fun j _ => Nat.zero_le _) (Finset.mem_range.mpr hi)
    have hfits := h.fits
    exact ⟨early i, after, hleads, by omega⟩

theorem opens (h : Row fs n path canonical early late) {limit i : Nat} (hn : n ≤ limit)
    (hi : i ≤ n) {source : Text} (htext : fs.readText (canonical i) = .ok source) :
    (Visit.nth limit path canonical i).Opens fs (canonical i) source where
  levels := by
    show limit + 1 - i ≠ 0
    omega
  place := h.place i hi
  fresh := Visit.fresh_nth h.distinct (Nat.lt_succ_of_le hi)
  text := htext

/-- The input lines of a row are those of its files, each around those of the next one. -/
theorem exists_flattenFile (h : Row fs n path canonical early late) {limit : Nat} (hn : n ≤ limit)
    {d i : Nat} (hi : i + d = n) :
    ∃ bodies, flattenFile fs (limit + 1 - i) ⟨(List.range i).map canonical⟩ (path i) =
      some bodies ∧ Reads bodies (rowInputs early late d i) := by
  -- the induction is on the number of files that follow
  induction d generalizing i with
  | zero =>
    obtain rfl : i = n := hi
    obtain ⟨source, htext, hread⟩ := h.last
    obtain ⟨bodies, hbodies, hreads⟩ := hread.exists_flattenLines _
    exact ⟨bodies, (h.opens hn le_rfl htext).flattenFile_eq_some hbodies, hreads⟩
  | succ d ih =>
    obtain ⟨after, ⟨source, before, raw, target, htext, hlines, hbefore, hline, hnext⟩, hafter⟩ :=
      h.leads i (by omega)
    obtain ⟨inner, hinner, hreads⟩ := ih (i := i + 1) (by omega)
    have hfollow : follow fs (path i).parent? (flattenFile fs
        ((Visit.nth limit path canonical i).levels - 1)
        ((Visit.nth limit path canonical i).chain.extend (canonical i))) target = some inner := by
      refine follow_eq_some_iff.mpr ⟨path (i + 1), hnext, ?_⟩
      rw [← hinner]
      exact congrArg (fun v : Visit => flattenFile fs v.levels v.chain v.path)
        (Visit.inner_nth limit path canonical i)
    obtain ⟨bodies, hbodies, hall⟩ :=
      exists_flattenLines_around hbefore hline hfollow hreads hafter
    rw [← hlines] at hbodies
    exact ⟨bodies, (h.opens hn (by omega) htext).flattenFile_eq_some hbodies, hall⟩

theorem exists_ok (h : Row fs n path canonical early late) (hn : n ≤ options.maxDepth) :
    ∃ t, compileFile fs options (path 0) = .ok t := by
  obtain ⟨bodies, hbodies, hreads⟩ := h.exists_flattenFile hn (Nat.zero_add n)
  have hne : rowInputs early late n 0 ≠ [] :=
    rowInputs_ne_nil (by rw [Nat.zero_add]; exact h.sends)
  have hfits : totalTime (rowInputs early late n 0) < UInt32.size := by
    have hsum := h.fits
    rw [totalTime_rowInputs]
    simp only [Nat.zero_add]
    exact Nat.lt_of_le_pred (by decide) hsum
  obtain ⟨t, ht⟩ := hreads.exists_timeline hne hfits
  exact ⟨t, compileFile_eq_ok_iff.mpr (compileFileFrames_eq_ok_iff.mpr ⟨bodies, hbodies, ht⟩)⟩

end Row

/-! ## Verdicts -/

/-- **The limit on rings and rows.** A ring of `n` files is refused as circular, with the files in
order and the first one again as its context, if the limit is `n` or more, and as too deep if it is
less. A row of `n` includes compiles exactly if the limit is `n` or more, and is too deep
otherwise. -/
theorem ring_and_row_verdicts (fs : FileSystem) (options : Options) (n : Nat)
    (path canonical : Nat → Path) :
    (Ring fs n path canonical →
      (n ≤ options.maxDepth → ∃ e, compileFile fs options (path 0) = .error e ∧
        e.fault.code = "E2003".toList ∧
        e.fault.context = some (Text.join " -> ".toList
          (((List.range n).map canonical ++ [canonical 0]).map Path.text))) ∧
      (options.maxDepth < n → ∃ e, compileFile fs options (path 0) = .error e ∧
        e.fault.code = "E2004".toList)) ∧
    ∀ early late, Row fs n path canonical early late →
      ((∃ t, compileFile fs options (path 0) = .ok t) ↔ n ≤ options.maxDepth) ∧
      (options.maxDepth < n → ∃ e, compileFile fs options (path 0) = .error e ∧
        e.fault.code = "E2004".toList) := by
  have hdeep : Route fs n path canonical → options.maxDepth < n →
      ∃ e, compileFile fs options (path 0) = .error e ∧ e.fault.code = "E2004".toList := by
    intro hroute hlt
    obtain ⟨e, he, hfault⟩ := hroute.tooDeep hlt
    exact ⟨e, he, by rw [hfault]; rfl⟩
  refine ⟨fun h => ⟨fun hle => ?_, hdeep h.toRoute⟩, fun early late h => ⟨?_, hdeep h.route⟩⟩
  · obtain ⟨e, he, hfault⟩ := h.circular hle
    exact ⟨e, he, by rw [hfault]; rfl, by rw [hfault]; rfl⟩
  · constructor
    · rintro ⟨t, ht⟩
      by_contra hlt
      obtain ⟨e, he, -⟩ := hdeep h.route (Nat.lt_of_not_le hlt)
      rw [ht] at he
      cases he
    · exact h.exists_ok

/-- Two scripts that include each other, and a third one that includes a fourth one. -/
def ringAndRow : FileTree :=
  scriptTree [("a", "A,10\n# to b\n@b\nnever read"), ("b", "@\"./a\""),
    ("c", "// first\n@d\nA,10"), ("d", "A,10\n\n")]

/-- The paths with these texts, in order. -/
def pathsOf (texts : List String) (i : Nat) : Path := ⟨(texts.getD i "").toList⟩

/-- The input `A,10`. -/
def tapA : Input := ⟨{ Packet.neutral with buttonsLow := 4 }, 10⟩

theorem ReadAs.tapA {raws : List Text} {inputs : List Input} (h : ReadAs raws inputs) :
    ReadAs ("A,10".toList :: raws) (Script.tapA :: inputs) :=
  .input (show Line.classify _ = .input "A,10".toList by decide +kernel) (by decide +kernel) h

theorem ring_of_ringAndRow :
    Ring ringAndRow.fileSystem 2 (pathsOf ["a", "b", "./a"]) (pathsOf ["/a", "/b"]) where
  place := by decide +kernel
  distinct := show List.Pairwise _ _ by decide +kernel
  leads
    | 0, _ => ⟨[tapA], ["never read".toList],
        ⟨"A,10\n# to b\n@b\nnever read".toList, ["A,10".toList, "# to b".toList], "@b".toList,
          "b".toList, by decide +kernel, by decide +kernel,
          .tapA (.skip (by decide +kernel) .done), by decide +kernel, by decide +kernel⟩,
        by decide +kernel⟩
    | 1, _ => ⟨[], [], ⟨"@\"./a\"".toList, [], "@\"./a\"".toList, "\"./a\"".toList,
        by decide +kernel, by decide +kernel, .done, by decide +kernel, by decide +kernel⟩,
        by decide +kernel⟩
  pos := by decide
  closes := by decide +kernel

theorem row_of_ringAndRow :
    Row ringAndRow.fileSystem 1 (pathsOf ["c", "d"]) (pathsOf ["/c", "/d"])
      (fun i => if i = 0 then [] else [tapA]) (fun _ => [tapA]) where
  place := by decide +kernel
  distinct := show List.Pairwise _ _ by decide +kernel
  leads
    | 0, _ => ⟨["A,10".toList], ⟨"// first\n@d\nA,10".toList, ["// first".toList], "@d".toList,
        "d".toList, by decide +kernel, by decide +kernel, .skip (by decide +kernel) .done,
        by decide +kernel, by decide +kernel⟩, .tapA .done⟩
  last := ⟨"A,10\n\n".toList, by decide +kernel, by
    have hlines : Text.lines "A,10\n\n".toList = ["A,10".toList, []] := by decide +kernel
    rw [hlines]
    exact .tapA (.skip (by decide +kernel) .done)⟩
  sends := by decide
  fits := by decide +kernel

theorem ring_and_row_verdicts_scripts :
    (∃ e, compileFile ringAndRow.fileSystem ⟨none, 2⟩ ⟨"a".toList⟩ = .error e ∧
      e.fault.context = some "/a -> /b -> /a".toList) ∧
    (∃ e, compileFile ringAndRow.fileSystem ⟨none, 1⟩ ⟨"a".toList⟩ = .error e ∧
      e.fault.code = "E2004".toList) ∧
    (∃ t, compileFile ringAndRow.fileSystem ⟨none, 1⟩ ⟨"c".toList⟩ = .ok t) ∧
    ∃ e, compileFile ringAndRow.fileSystem ⟨none, 0⟩ ⟨"c".toList⟩ = .error e ∧
      e.fault.code = "E2004".toList := by
  refine ⟨?_, ?_, ?_, ?_⟩
  · obtain ⟨e, he, -, hcontext⟩ :=
      ((ring_and_row_verdicts _ ⟨none, 2⟩ _ _ _).1 ring_of_ringAndRow).1 le_rfl
    exact ⟨e, he, hcontext⟩
  · exact ((ring_and_row_verdicts _ ⟨none, 1⟩ _ _ _).1 ring_of_ringAndRow).2 Nat.one_lt_two
  · exact ((ring_and_row_verdicts _ ⟨none, 1⟩ _ _ _).2 _ _ row_of_ringAndRow).1.mpr le_rfl
  · exact ((ring_and_row_verdicts _ ⟨none, 0⟩ _ _ _).2 _ _ row_of_ringAndRow).2 Nat.one_pos

end PadScript.Script
