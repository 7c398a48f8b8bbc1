import Stencil.Proofs.Placeholder.Inners
import Stencil.Proofs.Template.Strict

namespace Stencil

namespace Template

/-- Text that holds neither a marker, nor a placeholder, nor the head of a block. -/
structure Static (text : Text) : Prop where
  nonempty : text ≠ []
  sanitized : sanitize text = text
  placeholders : Stencil.placeholders text = []
  heads : ∀ kind, ¬ Block.openHead kind <:+: text

/-- No condition, loop or static variable waits for the next compilation. -/
structure Unruled (t : Template) : Prop where
  conditions : t.conditions = .empty
  loops : t.loops = .empty
  statics : t.statics = .empty

theorem applyRules_of_unruled {t : Template} (h : t.Unruled) :
    t.applyRules.1 = tighten t.content ∧ t.applyRules.2.warnings = t.warnings := by
  rw [fst_applyRules, warnings_applyRules, resolved, h.conditions, h.loops, h.statics]
  exact ⟨rfl, rfl⟩

theorem sweepBlocks_tighten {text : Text} (h : Static text) :
    sweepBlocks (tighten text) = tighten text := by
  rw [sweepBlocks_eq_self_iff]
  rintro kind ⟨before, key, body, key', rest, -, -, htight⟩
  have hhead : Block.openHead kind <:+: tighten text := by
    rw [htight, Block.anyTag, List.append_assoc]
    exact ⟨before, _, List.append_assoc _ _ _⟩
  refine h.heads kind (infix_of_infix_tighten ?_ hhead)
  cases kind with
  | condition => simp [Block.openHead, BlockKind.word, isDelimiting, isInlineSpace]
  | loop => simp [Block.openHead, BlockKind.word, isDelimiting, isInlineSpace]

theorem stageResult_of_static {t : Template} (ht : t.Unruled) (htext : Static t.content) :
    t.stageResult.result = tighten t.content ∧ t.stageResult.warnings = t.warnings := by
  have hnone : Stencil.placeholders (tighten t.content) = [] :=
    placeholders_tighten htext.placeholders
  have hinners : inners (tighten t.content) = [] := by
    rw [← map_inner_placeholders, hnone, List.map_nil]
  obtain ⟨hruled, hwarned⟩ := applyRules_of_unruled ht
  rw [result_stageResult, warnings_stageResult, hruled, hwarned, sweepBlocks_tighten htext]
  constructor
  · exact replacePlaceholders_of_plain _ (placeholders_eq_nil_iff.mp hnone)
  · rw [rejections, hinners]
    rfl

end Template

namespace Program

theorem run_parse_of_not_holdsCall {text : Text} (h : ¬ Segment.HoldsCall text)
    (registry : Registry) (scope : Scope) (ws : Warnings) :
    (parse text).run registry scope ws = (text, ws) := by
  by_cases hne : text = []
  · rw [hne, parse_nil]
    rfl
  · rw [parse_of_not_holdsCall h hne, run, evaluate, evaluate]
    simp [Except.map]

end Program

namespace Template

variable {σ : Type} [MonadFiles (StateM σ)]

theorem staged_of_static {t : Template} (ht : t.Unruled) (htext : Static t.content) (s : σ) :
    (t.staged s).result = tighten t.content ∧ (t.staged s).warnings = [] := by
  have hloaded : Unruled { t with warnings := [], phase := .loaded } :=
    ⟨ht.conditions, ht.loops, ht.statics⟩
  rw [staged, runOn_load_of_content htext.nonempty]
  exact stageResult_of_static hloaded htext

/-- What is left to do for static text is to make it tight and to run it. -/
theorem runOn_compile_of_static {t : Template} (ht : t.Unruled) (htext : Static t.content)
    (hmode : t.config.cacheMode = .direct) (hkey : isKey t.config.evaluationFunction)
    (globals : Scope) (fresh : Text) (s : σ) :
    let compiled := (runOn s (t.compile globals fresh : StateM σ Template)).1
    let output := (Program.parse (tighten t.content)).run t.outputs (globals.restrict t.injects) []
    compiled.compiled = stripPlaceholders output.1 ∧ compiled.warnings = output.2 := by
  obtain ⟨hresult, hwarnings⟩ := staged_of_static ht htext s
  have hevaluate : (t.staged s).evaluateInMemory globals =
      (Program.parse (tighten t.content)).run t.outputs (globals.restrict t.injects) [] := by
    rw [evaluateInMemory, config_staged, if_pos hkey, run, outputs_staged, injects_staged,
      hresult, hwarnings]
  intro compiled output
  have hcompiled : compiled = (t.staged s).finish output := by
    simp only [compiled, fst_compile_of_direct hmode, hevaluate]
    rfl
  rw [hcompiled]
  exact ⟨rfl, rfl⟩

/-- Static text compiles to its tight form where no call stands in that, and to itself exactly when
it is tight and holds no call.  Text without double braces is and holds none. -/
theorem static_text_compiles_to_itself_iff {t : Template} (ht : t.Unruled)
    (hmode : t.config.cacheMode = .direct) (hkey : isKey t.config.evaluationFunction)
    {text : Text} (htext : Static text) (fresh : Text) (s : σ) :
    let outcome (names : List Text) (globals : Scope) : Text × Warnings :=
      let compiled := (runOn s
        (((t.setContent text).setInjects names).compile globals fresh : StateM σ Template)).1
      (compiled.compiled, compiled.warnings)
    (¬ Segment.HoldsCall (tighten text) →
        ∀ names globals, outcome names globals = (tighten text, [])) ∧
      ((∀ names globals, outcome names globals = (text, [])) ↔
        tighten text = text ∧ ¬ Segment.HoldsCall text) ∧
      (¬ opening <:+: text → ¬ closing <:+: text →
        ∀ names globals, outcome names globals = (text, [])) := by
  intro outcome
  have houtcome (names : List Text) (globals : Scope) :
      let output := (Program.parse (tighten text)).run t.outputs
        (globals.restrict names.eraseDups) []
      outcome names globals = (stripPlaceholders output.1, output.2) := by
    have hcontent : ((t.setContent text).setInjects names).content = text := htext.sanitized
    have hrules : ((t.setContent text).setInjects names).Unruled :=
      ⟨ht.conditions, ht.loops, ht.statics⟩
    have hcompile := runOn_compile_of_static hrules (hcontent.symm ▸ htext) hmode hkey globals
      fresh s
    rw [hcontent] at hcompile
    exact Prod.ext hcompile.1 hcompile.2
  have htight (hcall : ¬ Segment.HoldsCall (tighten text)) (names : List Text)
      (globals : Scope) : outcome names globals = (tighten text, []) := by
    rw [houtcome, Program.run_parse_of_not_holdsCall hcall,
      stripPlaceholders_eq_self_iff.mpr (placeholders_tighten htext.placeholders)]
  refine ⟨htight, ⟨?_, ?_⟩, ?_⟩
  · intro hself
    -- with nothing injected a call would leave a warning
    have hcall : ¬ Segment.HoldsCall (tighten text) := by
      rw [Program.holdsCall_iff]
      rintro ⟨function, e, he⟩
      have hscope (name : Text) : (Scope.restrict .empty []).get? name = none := rfl
      have hwarned : ((Program.parse (tighten text)).run t.outputs
          (Scope.restrict .empty []) []).2 ≠ [] := Program.snd_run_ne_nil_of_call hscope he []
      have hempty := hself [] .empty
      rw [houtcome] at hempty
      exact hwarned (Prod.mk.inj hempty).2
    have hsame : tighten text = text :=
      (Prod.mk.inj ((htight hcall [] .empty).symm.trans (hself [] .empty))).1
    exact ⟨hsame, hsame ▸ hcall⟩
  · rintro ⟨hsame, hcall⟩ names globals
    rw [htight (hsame.symm ▸ hcall), hsame]
  · intro hopening hclosing names globals
    have hsame : tighten text = text := tighten_of_not_infix hopening hclosing
    have hcall : ¬ Segment.HoldsCall text :=
      fun h => hopening (Segment.opening_infix_of_holdsCall h)
    rw [htight (hsame.symm ▸ hcall), hsame]

theorem static_text_with_lone_braces_compiles_to_itself :
    let t : Template := {}
    let text := "a\x7bb:c \x7d\n</if> <b>$x".toList
    t.Unruled ∧ t.config.cacheMode = .direct ∧ isKey t.config.evaluationFunction ∧
      Static text ∧ ¬ opening <:+: text ∧ ¬ closing <:+: text ∧
      (runOn { temporary := [] } (((t.setContent text).setInjects []).compile .empty [] :
        StateM FileSystem Template)).1.compiled = text := by
  intro t text
  have hrules : t.Unruled := ⟨rfl, rfl, rfl⟩
  have hkey : isKey t.config.evaluationFunction := by decide
  have htext : Static text := by
    refine ⟨by decide +kernel, by decide +kernel, by decide +kernel, ?_⟩
    intro kind
    cases kind with
    | condition => decide +kernel
    | loop => decide +kernel
  have hopening : ¬ opening <:+: text := by decide +kernel
  have hclosing : ¬ closing <:+: text := by decide +kernel
  have hself := (static_text_compiles_to_itself_iff hrules rfl hkey htext []
    ({ temporary := [] } : FileSystem)).2.2 hopening hclosing [] .empty
  exact ⟨hrules, rfl, hkey, htext, hopening, hclosing, (Prod.mk.inj hself).1⟩

/-- A blank before two closing braces is lost though they close no placeholder, and a call is run
though no placeholder holds it. -/
theorem static_text_with_double_braces_changes :
    let compiled (text : Text) : Template :=
      (runOn { temporary := [] } (({} : Template).setContent text |>.compile .empty [] :
        StateM FileSystem Template)).1
    let rule := "a\x7bb\x7bc:d \x7d\x7d".toList
    let call := "\x7b\x7becho($a['\n'])\x7d\x7d".toList
    Static rule ∧ (compiled rule).compiled = "a\x7bb\x7bc:d\x7d\x7d".toList ∧
      (compiled rule).warnings = [] ∧
      Static call ∧ (compiled call).compiled = [] ∧
      (compiled call).warnings = [.unboundVariable ['a']] := by
  intro compiled rule call
  have hheads (text : Text) (h : '<' ∉ text) (kind : BlockKind) :
      ¬ Block.openHead kind <:+: text :=
    fun hstands => h (hstands.subset (by simp [Block.openHead]))
  refine ⟨⟨?_, ?_, ?_, hheads _ ?_⟩, ?_, ?_, ⟨?_, ?_, ?_, hheads _ ?_⟩, ?_, ?_⟩
  · decide +kernel
  · decide +kernel
  · decide +kernel
  · decide +kernel
  · decide +kernel
  · decide +kernel
  · decide +kernel
  · decide +kernel
  · decide +kernel
  · decide +kernel
  · decide +kernel
  · decide +kernel

end Template

end Stencil
