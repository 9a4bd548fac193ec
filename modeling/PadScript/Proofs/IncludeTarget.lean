import PadScript.Include
import PadScript.Proofs.Flattening
import PadScript.Proofs.Remark

/-!
# Targets of include directives

A quoted include path is taken verbatim (`resolve_verbatim`).

1. A directive is read up to the quote that closes its path, so nothing after that quote counts, and
   comment signs before it belong to the path (`classify_quoted`).
2. Resolving takes away the blanks around a target, and then one pair of quotes. Of a quoted path
   that leaves the path (`named_quote`): the blanks at its ends are inside the quotes.
3. A path without comment signs that neither starts nor ends with a blank is `Bare`: it names itself
   without the quotes, too (`classify_bare`, `named_bare`).
-/

namespace PadScript

/-! ## Blanks at the ends -/

namespace Text

theorem trimStart_cons {c : Char} (hc : isBlank c = false) (s : Text) :
    trimStart (c :: s) = c :: s :=
  List.dropWhile_cons_of_neg (by rw [hc]; exact Bool.false_ne_true)

theorem trimStart_blank_append {gap : Text} (h : Blank gap) (s : Text) :
    trimStart (gap ++ s) = trimStart s := List.dropWhile_append_of_pos h

/-- A text that neither starts nor ends with a blank stays as it is. -/
theorem trim_eq_self_of_ends {s : Text} (hfirst : ∀ c ∈ s.head?, isBlank c = false)
    (hlast : ∀ c ∈ s.getLast?, isBlank c = false) : trim s = s := by
  have hstart : trimStart s = s := by
    cases s with
    | nil => rfl
    | cons c s => exact trimStart_cons (hfirst c rfl) s
  rw [trim_eq_trimEnd hstart]
  refine List.rdropWhile_eq_self_iff.mpr fun hne => ?_
  rw [hlast _ (List.getLast?_eq_some_getLast hne)]
  exact Bool.false_ne_true

end Text

theorem Line.stripComment_eq_self_of_not_infix {s : Text} (hash : '#' ∉ s)
    (slashes : ¬ ['/', '/'] <:+: s) : stripComment s = s := by
  fun_induction stripComment s with
  | case1 => rfl
  | case2 s => exact absurd List.mem_cons_self hash
  | case3 s => exact absurd ⟨[], s, rfl⟩ slashes
  | case4 c s _ _ ih =>
    rw [ih (fun h => hash (List.mem_cons_of_mem c h))
      (fun h => slashes (h.trans (List.suffix_cons c s).isInfix))]

namespace Include

/-! ## Quoted targets -/

/-- A path between quotes. -/
def quote (p : Text) : Text := '"' :: (p ++ ['"'])

/-- The path that a target names. -/
def named (target : Text) : Text := unquote (Text.trim target)

theorem target_quoted {p : Text} (h : '"' ∉ p) (rest : Text) :
    Line.target (quote p ++ rest) = quote p := by
  have hcut : Text.cutFirst '"' (p ++ '"' :: rest) = some (p, rest) :=
    Text.cutFirst_append_cons h rest
  have happend : quote p ++ rest = '"' :: (p ++ '"' :: rest) := by simp [quote]
  rw [happend, Line.target]
  simp only [hcut]
  rfl

/-- The target of a directive with a quoted path is the path and its quotes. -/
theorem classify_quoted {p : Text} (h : '"' ∉ p) {lead gap : Text} (hlead : Text.Blank lead)
    (hgap : Text.Blank gap) (rest : Text) :
    Line.classify (lead ++ '@' :: (gap ++ quote p ++ rest)) = .directive (quote p) := by
  have hsplit : gap ++ quote p ++ rest = gap ++ '"' :: p ++ '"' :: rest := by simp [quote]
  have hquoted : gap ++ '"' :: p ++ '"' :: Text.trimEnd rest =
      gap ++ (quote p ++ Text.trimEnd rest) := by simp [quote]
  have htrim : Text.trim (lead ++ '@' :: (gap ++ quote p ++ rest)) =
      '@' :: (gap ++ (quote p ++ Text.trimEnd rest)) := by
    rw [Text.trim_append_left hlead, Text.trim_cons (by decide), hsplit,
      Text.trimEnd_append_cons (by decide), hquoted]
  rw [Line.classify_of_at htrim, Text.trimStart_blank_append hgap]
  have hstart : Text.trimStart (quote p ++ Text.trimEnd rest) = quote p ++ Text.trimEnd rest :=
    Text.trimStart_cons (by decide) _
  rw [hstart, target_quoted h]

theorem named_quote (p : Text) : named (quote p) = p := by
  have htrim : Text.trim (quote p) = quote p := by
    refine Text.trim_eq_self_of_ends (fun c hc => ?_) (fun c hc => ?_)
    · cases hc
      decide
    · rw [quote, ← List.cons_append, List.getLast?_concat] at hc
      cases hc
      decide
  unfold named
  rw [htrim, quote, unquote, List.getLast?_concat, if_pos rfl, List.dropLast_concat]

/-! ## Bare targets -/

/-- The path needs no quotes: it holds no comment sign, and no blank at its ends. -/
structure Bare (p : Text) : Prop where
  hash : '#' ∉ p
  slashes : ¬ ['/', '/'] <:+: p
  first : ∀ c ∈ p.head?, Text.isBlank c = false
  last : ∀ c ∈ p.getLast?, Text.isBlank c = false

theorem Bare.trim {p : Text} (h : Bare p) : Text.trim p = p :=
  Text.trim_eq_self_of_ends h.first h.last

theorem classify_bare {p : Text} (h : Bare p) (hne : p ≠ []) (hquote : '"' ∉ p)
    {lead gap trail : Text} (hlead : Text.Blank lead) (hgap : Text.Blank gap)
    (htrail : Text.Blank trail) :
    Line.classify (lead ++ '@' :: (gap ++ p ++ trail)) = .directive p := by
  have htrim : Text.trim (lead ++ '@' :: (gap ++ p ++ trail)) = '@' :: (gap ++ p) := by
    rw [Text.trim_append_left hlead, ← List.cons_append, Text.trim_append_blanks htrail]
    refine Text.trim_eq_self_of_ends (fun c hc => ?_) (fun c hc => h.last c ?_)
    · cases hc
      decide
    · rwa [← List.cons_append, List.getLast?_append_of_ne_nil _ hne] at hc
  have hstart : Text.trimStart p = p := by
    rw [← h.trim]
    exact Text.trimStart_trim p
  have hhead : p.head? ≠ some '"' := fun hc => hquote (List.mem_of_head? hc)
  rw [Line.classify_of_at htrim, Text.trimStart_blank_append hgap, hstart,
    Line.target_of_not_quote hhead, Line.stripComment_eq_self_of_not_infix h.hash h.slashes, h.trim]

theorem named_bare {p : Text} (h : Bare p) (hquote : '"' ∉ p) : named p = p := by
  unfold named
  rw [h.trim]
  unfold unquote
  split
  · exact absurd List.mem_cons_self hquote
  · rfl

/-! ## Where targets lead -/

theorem resolve_congr {target other : Text} (h : named target = named other) (fs : FileSystem)
    (base : Option Path) : resolve fs base target = resolve fs base other := by
  unfold named at h
  unfold resolve path
  rw [h]

/-- A target leads to the path `full` if that is a file, and otherwise is refused with a fault that
says so. -/
structure LeadsTo (fs : FileSystem) (base : Option Path) (target : Text) (full : Path) : Prop where
  ok : fs.isFile full = true → resolve fs base target = .ok full
  error : fs.isFile full = false → ∃ fault, resolve fs base target = .error fault ∧
    fault.code = "E2002".toList ∧ fault.message = "include not found: ".toList ++ full.text

theorem leadsTo_of_path {base : Option Path} {target : Text} {full : Path}
    (h : path base target = .ok full) (fs : FileSystem) : LeadsTo fs base target full := by
  have hresolve : resolve fs base target =
      if fs.isFile full then .ok full else .error (.targetNotFound full (named target)) := by
    unfold resolve
    rw [h]
    rfl
  constructor
  · intro hfile
    rw [hresolve, if_pos hfile]
  · intro hfile
    refine ⟨.targetNotFound full (named target), ?_, rfl, rfl⟩
    rw [hresolve, if_neg (by rw [hfile]; exact Bool.false_ne_true)]

theorem path_of_named {target p : Text} (h : named target = p) (hne : p ≠ []) (directory : Path) :
    path (some directory) target =
      .ok (if Path.isAbsolute ⟨p⟩ then ⟨p⟩ else directory.append ⟨p⟩) := by
  unfold named at h
  unfold path
  simp only [h, List.isEmpty_eq_false_iff.mpr hne, Bool.false_eq_true, if_false]
  split <;> rfl

/-- **Quoted include paths are taken verbatim.** Whatever blanks stand around the sign of a
directive and whatever follows its quoted path, the directive leads to just that path if the path is
absolute, and else to that path seen from the directory of the script. A bare path without quotes
leads to the same file, or is refused with the same fault. -/
theorem resolve_verbatim {p : Text} (hne : p ≠ []) (hquote : '"' ∉ p) {lead gap : Text}
    (hlead : Text.Blank lead) (hgap : Text.Blank gap) (rest : Text) :
    ∃ target, Line.classify (lead ++ '@' :: (gap ++ quote p ++ rest)) = .directive target ∧
      (∀ fs directory, LeadsTo fs (some directory) target
        (if Path.isAbsolute ⟨p⟩ then ⟨p⟩ else directory.append ⟨p⟩)) ∧
      (Bare p → ∀ lead gap trail, Text.Blank lead → Text.Blank gap → Text.Blank trail →
        ∃ bare, Line.classify (lead ++ '@' :: (gap ++ p ++ trail)) = .directive bare ∧
          ∀ fs base, resolve fs base bare = resolve fs base target) := by
  refine ⟨quote p, classify_quoted hquote hlead hgap rest, fun fs directory => ?_, ?_⟩
  · exact leadsTo_of_path (path_of_named (named_quote p) hne directory) fs
  · intro hbare lead gap trail hlead hgap htrail
    refine ⟨p, classify_bare hbare hne hquote hlead hgap htrail, ?_⟩
    exact resolve_congr ((named_bare hbare hquote).trans (named_quote p).symm)

/-- Two scripts, one of them with comment signs and blanks in its name. -/
def oddlyNamedScripts : FileTree :=
  Script.scriptTree [(" tap #1.pad", "A,100"), ("tap 2.pad", "B,50")]

theorem resolve_oddlyNamedScripts :
    (" tap #1.pad".toList ≠ [] ∧ '"' ∉ " tap #1.pad".toList ∧
      ∃ target, Line.classify " @\t\" tap #1.pad\" # \"again\" // ".toList = .directive target ∧
        resolve oddlyNamedScripts.fileSystem (some ⟨"/".toList⟩) target =
          .ok ⟨"/ tap #1.pad".toList⟩) ∧
      (Bare "tap 2.pad".toList ∧
        ∃ target bare, Line.classify "@\"tap 2.pad\"".toList = .directive target ∧
          Line.classify "@ tap 2.pad\r".toList = .directive bare ∧
          resolve oddlyNamedScripts.fileSystem (some ⟨[]⟩) bare =
            resolve oddlyNamedScripts.fileSystem (some ⟨[]⟩) target) := by
  constructor
  · refine ⟨by decide, by decide, ?_⟩
    have hlead : Text.Blank " ".toList := by decide
    have hgap : Text.Blank "\t".toList := by decide
    obtain ⟨target, hclassify, hleads, -⟩ := resolve_verbatim (p := " tap #1.pad".toList)
      (by decide) (by decide) hlead hgap " # \"again\" // ".toList
    exact ⟨target, hclassify, (hleads _ ⟨"/".toList⟩).ok (by decide +kernel)⟩
  · have hslash : '/' ∉ "tap 2.pad".toList := by decide
    have hbare : Bare "tap 2.pad".toList := by
      refine ⟨by decide, fun h => hslash (h.subset List.mem_cons_self), fun c hc => ?_,
        fun c hc => ?_⟩
      · obtain rfl : 't' = c := Option.some.inj hc
        decide
      · obtain rfl : 'd' = c := Option.some.inj hc
        decide
    have hnothing : Text.Blank [] := by decide
    obtain ⟨target, hclassify, -, hsame⟩ := resolve_verbatim (p := "tap 2.pad".toList)
      (by decide) (by decide) hnothing hnothing []
    obtain ⟨bare, hbareLine, hresolve⟩ := hsame hbare [] " ".toList "\r".toList (by decide)
      (by decide) (by decide)
    exact ⟨hbare, target, bare, hclassify, hbareLine, hresolve _ _⟩

end Include

end PadScript
