import Stencil.Proofs.Block.Sweep
import Stencil.Proofs.Program.Staging
import Stencil.Proofs.Template.Scratch

/-!
Strict compilations.  One that succeeds has warned of nothing, hence staging took no placeholder
out.  The sweep of blocks and the last sweep of placeholders warn of nothing that they take out:
what such a compilation drops are the blocks that no rule named, and placeholders that came up only
when values were written.
-/

namespace Stencil

theorem rejections_eq_nil_iff {t : Text} :
    rejections t = [] ↔ ∀ inner ∈ inners t, (staged? inner).isSome := by
  rw [rejections, List.filterMap_eq_nil_iff]
  apply forall₂_congr
  intro inner hinner
  cases (staged? inner).isSome with
  | true => simp
  | false => simp

namespace Template

theorem sweepBlocks_eq_self_iff {t : Text} :
    sweepBlocks t = t ↔ ∀ kind, ¬ Block.HoldsBlock kind t := by
  constructor
  · intro h kind
    have hconditions : Block.sweep .condition t = t := by
      apply (Block.sweep_sublist .condition t).eq_of_length_le
      have hlen := (Block.sweep_sublist .loop (Block.sweep .condition t)).length_le
      rwa [← sweepBlocks, h] at hlen
    rw [← Block.sweep_eq_self_iff]
    cases kind with
    | condition => exact hconditions
    | loop => rwa [sweepBlocks, hconditions] at h
  · intro h
    rw [sweepBlocks, Block.sweep_eq_self_iff.mpr (h .condition),
      Block.sweep_eq_self_iff.mpr (h .loop)]

variable {σ : Type} [MonadFiles (StateM σ)]

/-- The text that the rules leave of the loaded content. -/
def ruledText (t : Template) (s : σ) : Text :=
  (runOn s (t.load : StateM σ Template)).1.applyRules.1

/-- The output of the evaluation, before placeholders are taken out of it. -/
def writtenText (t : Template) (globals : Scope) (fresh : Text) (s : σ) : Text :=
  (runOn (runOn s (t.load : StateM σ Template)).2
    ((t.staged s).evaluate globals fresh : StateM σ (Text × Warnings))).1.1

/-- Behind the rules a compilation takes nothing out: no block, no placeholder that it stages, no
placeholder that is written. -/
structure KeepsAll (t : Template) (globals : Scope) (fresh : Text) (s : σ) : Prop where
  blocks : sweepBlocks (t.ruledText s) = t.ruledText s
  staged : ∀ inner ∈ inners (sweepBlocks (t.ruledText s)), (staged? inner).isSome
  written : stripPlaceholders (t.writtenText globals fresh s) = t.writtenText globals fresh s

theorem warnings_staged (t : Template) (s : σ) :
    ∃ ws : Warnings, (t.staged s).warnings =
      ws.recordAll (rejections (sweepBlocks (t.ruledText s))) :=
  ⟨_, rfl⟩

theorem result_staged (t : Template) (s : σ) :
    (t.staged s).result =
      stage t.config.evaluationFunction (sweepBlocks (t.ruledText s)) := by
  obtain ⟨_, _, _, hload⟩ := t.exists_load_eq s
  rw [staged, ruledText, hload, result_stageResult]

theorem forall_rejectedPlaceholder_notMem_iff {t : Template} {globals : Scope} {fresh : Text}
    {s : σ} :
    (∀ source, .rejectedPlaceholder source ∉
        (runOn s (t.compile globals fresh : StateM σ Template)).1.warnings) ↔
      ∀ inner ∈ inners (sweepBlocks (t.ruledText s)), (staged? inner).isSome := by
  have hend : (runOn s (t.compile globals fresh : StateM σ Template)).1.warnings =
      (runOn (runOn s (t.load : StateM σ Template)).2
        ((t.staged s).evaluate globals fresh : StateM σ (Text × Warnings))).1.2 := by
    rw [runOn_compile]
    rfl
  have hevaluated := (t.staged s).records_evaluate globals fresh
    (runOn s (t.load : StateM σ Template)).2
  have hstaged : (t.staged s).warnings =
      (runOn s (t.load : StateM σ Template)).1.applyRules.2.warnings.recordAll
        (rejections (sweepBlocks (t.ruledText s))) :=
    warnings_stageResult _
  rw [← rejections_eq_nil_iff, hend]
  constructor
  · intro hnone
    apply List.eq_nil_iff_forall_not_mem.mpr
    intro w hw
    obtain ⟨inner, -, hinner⟩ := List.mem_filterMap.mp hw
    split at hinner
    next => simp at hinner
    next =>
      obtain rfl := Option.some.inj hinner
      have hmem : .rejectedPlaceholder (delimited inner) ∈ (t.staged s).warnings := by
        rw [hstaged]
        exact Warnings.mem_recordAll.mpr (Or.inr hw)
      rcases hevaluated with hevaluated | hevaluated
      · exact hnone _ (hevaluated.isPrefix.subset hmem)
      · exact hnone _ (hevaluated.isPrefix.subset hmem)
  · intro hnone source hmem
    have hbefore : .rejectedPlaceholder source ∈ (t.staged s).warnings := by
      rcases hevaluated with hevaluated | hevaluated
      · exact hevaluated.mem_of_pass_ne hmem (by simp [Warning.pass])
      · exact hevaluated.mem_of_pass_ne hmem (by simp [Warning.pass])
    rw [hstaged, hnone, Warnings.recordAll_nil] at hbefore
    have hloaded := (records_applyRules _).mem_of_pass_ne hbefore (by simp [Warning.pass])
    exact absurd ((t.records_load s).mem_of_pass_ne hloaded (by simp [Warning.pass]))
      List.not_mem_nil

theorem compileStrict_eq_ok_iff {t : Template} {globals : Scope} {fresh output : Text} {s : σ} :
    (runOn s (t.compileStrict globals fresh : StateM σ _)).1.1 = .ok output ↔
      (runOn s (t.compile globals fresh : StateM σ Template)).1.warnings = [] ∧
        (runOn s (t.compile globals fresh : StateM σ Template)).1.compiled = output := by
  change strictly (runOn s (t.compile globals fresh : StateM σ Template)).1 = _ ↔ _
  rw [strictly]
  split
  next h => simp [h]
  next h => simp [h]

variable {view : FileView σ}

theorem staged_of_strict_ok (files : LawfulFiles σ view) {t : Template} {globals : Scope}
    {fresh output : Text} {s : σ}
    (h : (runOn s (t.compileStrict globals fresh : StateM σ _)).1.1 = .ok output) :
    isKey t.config.evaluationFunction ∧ (t.staged s).warnings = [] ∧
      t.writtenText globals fresh s =
        ((Program.parse (t.staged s).result).run t.outputs (globals.restrict t.injects) []).1 := by
  have hwarnings : (runOn (runOn s (t.load : StateM σ Template)).2
      ((t.staged s).evaluate globals fresh : StateM σ _)).1.2 = [] := by
    rw [compileStrict_eq_ok_iff, runOn_compile] at h
    exact h.1
  rw [writtenText]
  rcases evaluate_cases files (t.staged s) globals fresh
      (runOn s (t.load : StateM σ Template)).2 with hmemory | ⟨path, hstale⟩
  · rw [hmemory, evaluateInMemory, config_staged] at hwarnings ⊢
    split at hwarnings
    next hkey =>
      have hprefix : (t.staged s).warnings <+:
          ((t.staged s).run globals (t.staged s).result).2 := (Program.records_run _ _).isPrefix
      rw [hwarnings, List.prefix_nil] at hprefix
      refine ⟨hkey, hprefix, ?_⟩
      rw [if_pos hkey, run, hprefix, outputs_staged, injects_staged]
    next => exact absurd hwarnings (Warnings.record_ne_nil _ _)
  · rw [hstale] at hwarnings
    exact absurd hwarnings (Warnings.record_ne_nil _ _)

/-- A program that calls on one line only writes its text with each placeholder replaced, and
values without an opening brace make no new placeholder of it. -/
theorem placeholders_fst_run_eq_nil {function : Text} (hf : isKey function) {text : Text}
    {registry : Registry} {scope : Scope} {ws : Warnings}
    (hline : ∀ f e, Segment.call f e ∈ Program.parse (stage function text) → '\n' ∉ e.render)
    (hbrace : ∀ write, registry.get? function = some write → ∀ inner ∈ inners text,
      '{' ∉ directOutput write scope inner) :
    placeholders ((Program.parse (stage function text)).run registry scope ws).1 = [] := by
  have hname : isName function := isName_of_isKey hf
  have hparse :
      Program.parse (stage function text) = Program.ofPieces function (Piece.ofText text) :=
    Program.parse_flatMap_of_callFree hname (Program.callFree_of_oneLine hname hline)
  rw [Program.fst_run, hparse]
  cases hregistered : registry.get? function with
  | some write =>
      rw [Program.evaluate_ofPieces hregistered]
      exact placeholders_eq_nil_of_plain
        (ofText_replacePlaceholders _ (hbrace write hregistered))
  | none =>
      rw [Program.evaluate_ofPieces_of_unregistered hregistered]
      split
      next output houtput =>
        split at houtput
        next => simp at houtput
        next =>
          rw [← Except.ok.inj houtput]
          exact placeholders_eq_nil_of_plain (ofText_stripPlaceholders text)
      next => exact placeholders_eq_nil_iff.mpr (by rw [Piece.ofText, List.map_nil])

/-- A strict compilation that succeeds has taken out no placeholder when it staged.  It has taken
nothing out at all exactly when no rule left a block and no placeholder was written; and none is
written where every call stays on its line and no value has an opening brace. -/
theorem strict_compile_drops_blocks_and_written_placeholders (files : LawfulFiles σ view)
    {t : Template} {globals : Scope} {fresh output : Text} {s : σ}
    (h : (runOn s (t.compileStrict globals fresh : StateM σ _)).1.1 = .ok output) :
    (∀ inner ∈ inners (sweepBlocks (t.ruledText s)), (staged? inner).isSome) ∧
      (t.KeepsAll globals fresh s ↔
        (∀ kind, ¬ Block.HoldsBlock kind (t.ruledText s)) ∧
          placeholders (t.writtenText globals fresh s) = []) ∧
      ((∀ f e, Segment.call f e ∈ Program.parse (t.staged s).result → '\n' ∉ e.render) →
        (∀ write, t.outputs.get? t.config.evaluationFunction = some write →
          ∀ inner ∈ inners (sweepBlocks (t.ruledText s)),
            '{' ∉ directOutput write (globals.restrict t.injects) inner) →
        placeholders (t.writtenText globals fresh s) = []) := by
  obtain ⟨hkey, hwarnings, hwritten⟩ := staged_of_strict_ok files h
  obtain ⟨ws, hstaged⟩ := t.warnings_staged s
  rw [hstaged, Warnings.recordAll_eq_nil_iff, rejections_eq_nil_iff] at hwarnings
  refine ⟨hwarnings.2, ?_, ?_⟩
  · rw [← sweepBlocks_eq_self_iff, ← stripPlaceholders_eq_self_iff]
    constructor
    · intro hkeeps
      exact ⟨hkeeps.blocks, hkeeps.written⟩
    · rintro ⟨hblocks, houtput⟩
      exact ⟨hblocks, hwarnings.2, houtput⟩
  · intro hline hbrace
    rw [result_staged] at hline hwritten
    rw [hwritten]
    exact placeholders_fst_run_eq_nil hkey hline hbrace

theorem strict_compile_of_named_block_and_plain_value :
    let t : Template :=
      { content := "a<if.k>\x7b\x7bx\x7d\x7d</if.k>\x7b\x7b$v\x7d\x7d".toList
        conditions := .ofList [(['k'], true)]
        statics := .ofList [(['x'], ['b'])]
        injects := [['v']] }
    let globals : Scope := .ofList [(['v'], .string ['}', '}'])]
    let fs : FileSystem := { temporary := [] }
    (runOn fs (t.compileStrict globals [] : StateM FileSystem _)).1.1 = .ok "ab\x7d\x7d".toList ∧
      (∀ f e, Segment.call f e ∈ Program.parse (t.staged fs).result → '\n' ∉ e.render) ∧
      (∀ write, t.outputs.get? t.config.evaluationFunction = some write →
        ∀ inner ∈ inners (sweepBlocks (t.ruledText fs)),
          '{' ∉ directOutput write (globals.restrict t.injects) inner) ∧
      t.KeepsAll globals [] fs := by
  intro t globals fs
  have hok : (runOn fs (t.compileStrict globals [] : StateM FileSystem _)).1.1 =
      .ok "ab\x7d\x7d".toList := compileStrict_eq_ok_iff.mpr (by decide +kernel)
  have hline : ∀ f e, Segment.call f e ∈ Program.parse (t.staged fs).result →
      '\n' ∉ e.render := by
    have hparse : Program.parse (t.staged fs).result =
        [.literal ['a', 'b'], .call "echo".toList ⟨['v'], []⟩] := by decide +kernel
    rw [hparse]
    intro f e he
    simp only [List.mem_cons, List.not_mem_nil, or_false, reduceCtorEq, false_or] at he
    obtain ⟨-, rfl⟩ := Segment.call.inj he
    decide
  have hbrace : ∀ write, t.outputs.get? t.config.evaluationFunction = some write →
      ∀ inner ∈ inners (sweepBlocks (t.ruledText fs)),
        '{' ∉ directOutput write (globals.restrict t.injects) inner := by
    intro write hwrite
    obtain rfl : OutputFunction.verbatim = write := Option.some.inj hwrite
    decide +kernel
  have hdrops := strict_compile_drops_blocks_and_written_placeholders FileSystem.lawfulFiles hok
  refine ⟨hok, hline, hbrace, hdrops.2.1.mpr ⟨?_, hdrops.2.2 hline hbrace⟩⟩
  rw [← sweepBlocks_eq_self_iff]
  decide +kernel

/-- A strict compilation that succeeds drops a block that no rule names, and a placeholder that
comes with a value. -/
theorem strict_compile_drops_in_silence :
    let block : Template := { content := "a<if.x>b</if.x>c".toList }
    let value : Template := { content := "x\x7b\x7b$v\x7d\x7dy".toList, injects := [['v']] }
    let globals : Scope := .ofList [(['v'], .string "a\x7b\x7bb\x7d\x7dc".toList)]
    let fs : FileSystem := { temporary := [] }
    ((runOn fs (block.compileStrict .empty [] : StateM FileSystem _)).1.1 = .ok "ac".toList ∧
        block.ruledText fs = "a<if.x>b</if.x>c".toList ∧
        ¬ block.KeepsAll .empty [] fs) ∧
      (runOn fs (value.compileStrict globals [] : StateM FileSystem _)).1.1 = .ok "xacy".toList ∧
        value.writtenText globals [] fs = "xa\x7b\x7bb\x7d\x7dcy".toList ∧
        ¬ value.KeepsAll globals [] fs := by
  intro block value globals fs
  have hswept : sweepBlocks (block.ruledText fs) ≠ block.ruledText fs := by decide +kernel
  have hstripped : stripPlaceholders (value.writtenText globals [] fs) ≠
      value.writtenText globals [] fs := by decide +kernel
  refine ⟨⟨compileStrict_eq_ok_iff.mpr ?_, ?_, fun hkeeps => hswept hkeeps.blocks⟩,
    compileStrict_eq_ok_iff.mpr ?_, ?_, fun hkeeps => hstripped hkeeps.written⟩
  · decide +kernel
  · decide +kernel
  · decide +kernel
  · decide +kernel

end Template

end Stencil
