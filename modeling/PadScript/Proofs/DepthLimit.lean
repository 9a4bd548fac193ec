import PadScript.Proofs.Refusal

/-!
# The limit on includes

A greater limit changes a result only if the result was that an include is too deep.

The runs with the two limits are compared stage by stage, from a directive to a whole script:
`SameUnlessTooDeep` is kept by doing one computation after another and by placing faults
(`SameUnlessTooDeep.bind`, `SameUnlessTooDeep.mapError`), and a file with more levels left starts it
(`compileFileFrames_deeper`).
-/

namespace PadScript.Script

/-- The second result is the first one, unless the first one is that an include is too deep. -/
inductive SameUnlessTooDeep {α : Type} :
    (result deeper : Except LocatedFault α) → Prop
  | same (x : Except LocatedFault α) : SameUnlessTooDeep x x
  | tooDeep {e : LocatedFault} (y : Except LocatedFault α) :
      e.fault.kind = .includeTooDeep → SameUnlessTooDeep (.error e) y

namespace SameUnlessTooDeep

variable {α β : Type} {x y : Except LocatedFault α}

theorem bind (h : SameUnlessTooDeep x y) {f g : α → Except LocatedFault β}
    (hfg : ∀ a, SameUnlessTooDeep (f a) (g a)) : SameUnlessTooDeep (x >>= f) (y >>= g) := by
  cases h with
  | same x =>
    cases x with
    | error e => exact .same _
    | ok a => exact hfg a
  | tooDeep y hkind => exact .tooDeep _ hkind

/-- Placing a fault does not change what it is. -/
theorem mapError (h : SameUnlessTooDeep x y) {place : LocatedFault → LocatedFault}
    (hplace : ∀ e, (place e).fault = e.fault) :
    SameUnlessTooDeep (x.mapError place) (y.mapError place) := by
  cases h with
  | same x => exact .same _
  | @tooDeep e y hkind =>
    refine .tooDeep _ ?_
    rw [hplace e, hkind]

theorem eq (h : SameUnlessTooDeep x y)
    (hx : ∀ e, x = .error e → e.fault.code ≠ "E2004".toList) : y = x := by
  cases h with
  | same x => rfl
  | @tooDeep e y hkind =>
    exact absurd ((Fault.code_eq_iff (k := .includeTooDeep)).mpr hkind) (hx e rfl)

end SameUnlessTooDeep

/-! ## Stage by stage -/

section Stages

variable {fs : FileSystem} {origin base : Option Path}

theorem expander_deeper {file file' : Path → Except LocatedFault (List Frame)}
    (h : ∀ next, SameUnlessTooDeep (file next) (file' next)) (number : Nat) (target : Text) :
    SameUnlessTooDeep (expander fs origin base file number target)
      (expander fs origin base file' number target) := by
  unfold expander
  refine .bind (.same _) fun next => (h next).mapError fun e => ?_
  rw [LocatedFault.fault_orInFile, LocatedFault.fault_orAtLine]

variable {expand expand' : Expander}

theorem stepLine_deeper
    (h : ∀ number target, SameUnlessTooDeep (expand number target) (expand' number target))
    (number : Nat) (raw : Text) (clock : Millis) :
    SameUnlessTooDeep (stepLine origin expand number raw clock)
      (stepLine origin expand' number raw clock) := by
  cases hline : Line.classify raw with
  | skip =>
    rw [stepLine_skip hline, stepLine_skip hline]
    exact .same _
  | directive target =>
    rw [stepLine_directive hline, stepLine_directive hline]
    exact (h number target).bind fun included => .same _
  | input body =>
    rw [stepLine_input hline, stepLine_input hline]
    exact .same _

theorem runLines_deeper
    (h : ∀ number target, SameUnlessTooDeep (expand number target) (expand' number target))
    (number : Nat) (raws : List Text) (clock : Millis) :
    SameUnlessTooDeep (runLines origin expand number raws clock)
      (runLines origin expand' number raws clock) := by
  induction raws generalizing number clock with
  | nil => exact .same _
  | cons raw rest ih =>
    rw [runLines_cons, runLines_cons]
    refine (stepLine_deeper h number raw clock).bind fun step => ?_
    exact (ih (number + 1) step.2).bind fun more => .same _

theorem compileSource_deeper
    (h : ∀ number target, SameUnlessTooDeep (expand number target) (expand' number target))
    (source : Text) :
    SameUnlessTooDeep (compileSource origin expand source)
      (compileSource origin expand' source) :=
  (runLines_deeper h 1 (Text.lines source) 0).bind fun _ => .same _

/-- With more levels left, a file has the same frames unless an include was too deep: the limit
itself is only named in that fault. -/
theorem compileFileFrames_deeper {limit limit' levels levels' : Nat} (h : levels ≤ levels')
    (chain : IncludeChain) (path : Path) :
    SameUnlessTooDeep (compileFileFrames fs limit levels chain path)
      (compileFileFrames fs limit' levels' chain path) := by
  induction levels generalizing levels' chain path with
  | zero => exact .tooDeep _ rfl
  | succ levels ih =>
    obtain ⟨levels', rfl⟩ : ∃ n, levels' = n + 1 := ⟨levels' - 1, by omega⟩
    rw [compileFileFrames_succ, compileFileFrames_succ]
    refine .bind (.same _) fun canonical => ?_
    by_cases hopen : chain.contains canonical
    · simp only [hopen, if_true]
      exact .same _
    · simp only [hopen, Bool.false_eq_true, if_false]
      refine .bind (.same _) fun source => ?_
      refine compileSource_deeper (expander_deeper fun next => ?_) source
      exact ih (by omega) (chain.extend canonical) next

end Stages

/-! ## Scripts -/

variable {fs : FileSystem} {base : Option Path} {limit limit' : Nat}

theorem compile_deeper (h : limit ≤ limit') (source : Text) :
    SameUnlessTooDeep (compile fs ⟨base, limit⟩ source) (compile fs ⟨base, limit'⟩ source) := by
  refine .bind (compileSource_deeper (expander_deeper fun next => ?_) source) fun _ => .same _
  exact compileFileFrames_deeper h IncludeChain.empty next

theorem compileFile_deeper (h : limit ≤ limit') (path : Path) :
    SameUnlessTooDeep (compileFile fs ⟨base, limit⟩ path) (compileFile fs ⟨base, limit'⟩ path) := by
  refine .mapError ?_ fun e => e.fault_orInFile (some path)
  have hlevels : limit + 1 ≤ limit' + 1 := by omega
  exact (compileFileFrames_deeper hlevels IncludeChain.empty path).bind fun _ => .same _

/-- **The limit only ever refuses.** A result other than that an include is too deep, be it a
timeline or a fault with all that it says, is the result with every greater limit, for files and
for source texts. -/
theorem result_of_greater_limit (fs : FileSystem) (base : Option Path) {limit limit' : Nat}
    (h : limit ≤ limit') :
    (∀ source, (∀ e, compile fs ⟨base, limit⟩ source = .error e →
        e.fault.code ≠ "E2004".toList) →
      compile fs ⟨base, limit'⟩ source = compile fs ⟨base, limit⟩ source) ∧
    ∀ path, (∀ e, compileFile fs ⟨base, limit⟩ path = .error e →
        e.fault.code ≠ "E2004".toList) →
      compileFile fs ⟨base, limit'⟩ path = compileFile fs ⟨base, limit⟩ path := by
  constructor
  · intro source hsource
    exact (compile_deeper h source).eq hsource
  · intro path hpath
    exact (compileFile_deeper h path).eq hpath

/-- A fault that is found two levels deep, and a timeline with includes two levels deep. -/
theorem result_of_million_levels :
    compileFile brokenScripts.fileSystem ⟨none, 2⟩ ⟨"main".toList⟩ =
        .error ⟨.unknownToken "JUMP".toList "A+JUMP".toList, 3, some ⟨"/inner".toList⟩⟩ ∧
      compileFile brokenScripts.fileSystem ⟨none, 1000000⟩ ⟨"main".toList⟩ =
        .error ⟨.unknownToken "JUMP".toList "A+JUMP".toList, 3, some ⟨"/inner".toList⟩⟩ ∧
      ∃ t, compile nestedScripts.fileSystem ⟨some ⟨[]⟩, 2⟩ "@tap\n@main".toList = .ok t ∧
        compile nestedScripts.fileSystem ⟨some ⟨[]⟩, 1000000⟩ "@tap\n@main".toList = .ok t ∧
        t.duration = 280 := by
  have hbroken : compileFile brokenScripts.fileSystem ⟨none, 2⟩ ⟨"main".toList⟩ =
      .error ⟨.unknownToken "JUMP".toList "A+JUMP".toList, 3, some ⟨"/inner".toList⟩⟩ := by
    decide +kernel
  have hduration : (compile nestedScripts.fileSystem ⟨some ⟨[]⟩, 2⟩ "@tap\n@main".toList).map
      Timeline.duration = .ok 280 := by decide +kernel
  obtain ⟨t, ht, hd⟩ := map_eq_ok_iff.mp hduration
  have hlimit : 2 ≤ 1000000 := by decide
  have hdeeper := result_of_greater_limit brokenScripts.fileSystem none hlimit
  have hdeeper' := result_of_greater_limit nestedScripts.fileSystem (some ⟨[]⟩) hlimit
  refine ⟨hbroken, ?_, t, ht, ?_, hd.symm⟩
  · rw [hdeeper.2 _ fun e he => ?_, hbroken]
    rw [hbroken] at he
    cases he
    decide
  · rw [hdeeper'.1 _ fun e he => ?_, ht]
    rw [ht] at he
    cases he

end PadScript.Script
