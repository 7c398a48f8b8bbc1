import Stencil.Proofs.FileSystem.Laws
import Stencil.Proofs.Placeholder.Strip
import Stencil.Template.Compile

namespace Stencil.Template

/-- What conditions and loops leave of the content, and what they record. -/
def resolved (t : Template) : Text × Warnings :=
  t.loops.entries.foldl (fun acc rule => Block.resolveLoop rule.1 rule.2 acc.1 acc.2)
    (t.conditions.entries.foldl (fun acc rule => Block.resolveCondition rule.1 rule.2 acc.1 acc.2)
      (tighten t.content, t.warnings))

theorem fst_applyRules (t : Template) :
    t.applyRules.1 =
      t.statics.entries.foldl (fun text rule => Block.substitute rule.1 rule.2 text)
        t.resolved.1 :=
  rfl

theorem warnings_applyRules (t : Template) : t.applyRules.2.warnings = t.resolved.2 :=
  rfl

theorem result_stageResult (t : Template) :
    t.stageResult.result = stage t.config.evaluationFunction (sweepBlocks t.applyRules.1) :=
  rfl

theorem warnings_stageResult (t : Template) :
    t.stageResult.warnings =
      t.applyRules.2.warnings.recordAll (rejections (sweepBlocks t.applyRules.1)) :=
  rfl

variable {σ : Type} [MonadFiles (StateM σ)]

/-- The template that a compilation evaluates: loaded, with its rules applied and used up. -/
def staged (t : Template) (s : σ) : Template :=
  (runOn s (t.load : StateM σ Template)).1.stageResult

theorem runOn_compile (t : Template) (globals : Scope) (fresh : Text) (s : σ) :
    runOn s (t.compile globals fresh : StateM σ Template) =
      let evaluated := runOn (runOn s (t.load : StateM σ Template)).2
        ((t.staged s).evaluate globals fresh : StateM σ (Text × Warnings))
      ((t.staged s).finish evaluated.1, evaluated.2) :=
  rfl

theorem content_compile (t : Template) (globals : Scope) (fresh : Text) (s : σ) :
    (runOn s (t.compile globals fresh : StateM σ Template)).1.content =
      (runOn s (t.load : StateM σ Template)).1.content :=
  rfl

theorem runOn_load_of_content {t : Template} (h : t.content ≠ []) (s : σ) :
    runOn s (t.load : StateM σ Template) = ({ t with warnings := [], phase := .loaded }, s) := by
  simp only [load, if_neg h]
  rfl

/-- The path of the file that the content is loaded from. -/
def path (t : Template) : Text :=
  t.filePath.getD (t.config.templatePath t.name)

/-- The template with the content of its file, or with the warning that there is none. -/
def loadedWith (t : Template) (text? : Option Text) : Template :=
  { t with
    filePath := some t.path
    content := match text? with
      | some text => sanitize text
      | none => t.content
    warnings := match text? with
      | some _ => []
      | none => [.missingTemplateFile t.path]
    phase := .loaded }

theorem runOn_readContent? (path : Text) (s : σ) :
    runOn s (readContent? path : StateM σ (Option Text)) =
      (((runOn s (MonadFiles.readText? path : StateM σ _)).1.map Text.trim).filter (· ≠ []),
        (runOn s (MonadFiles.readText? path : StateM σ _)).2) := by
  rw [readContent?, runOn_bind, runOn_pure]

theorem runOn_load_of_empty {t : Template} (h : t.content = []) (s : σ) :
    runOn s (t.load : StateM σ Template) =
      (t.loadedWith (runOn s (readContent? t.path : StateM σ (Option Text))).1,
        (runOn s (readContent? t.path : StateM σ (Option Text))).2) := by
  simp only [load, if_pos h, runOn_bind]
  change runOn (runOn s (readContent? t.path : StateM σ (Option Text))).2
    (match (runOn s (readContent? t.path : StateM σ (Option Text))).1 with
      | some text => _
      | none => _) = _
  cases (runOn s (readContent? t.path : StateM σ (Option Text))).1 with
  | some text => rfl
  | none => rfl

/-- Loading changes the content, the path of its file, the warnings and the phase, and nothing
else. -/
theorem exists_load_eq (t : Template) (s : σ) :
    ∃ filePath content warnings, (runOn s (t.load : StateM σ Template)).1 =
      { t with
        filePath := filePath, content := content, warnings := warnings, phase := .loaded } := by
  by_cases h : t.content = []
  · rw [runOn_load_of_empty h]
    exact ⟨_, _, _, rfl⟩
  · rw [runOn_load_of_content h]
    exact ⟨t.filePath, t.content, _, rfl⟩

theorem phase_load (t : Template) (s : σ) :
    (runOn s (t.load : StateM σ Template)).1.phase = .loaded := by
  obtain ⟨_, _, _, hload⟩ := t.exists_load_eq s
  rw [hload]

theorem content_load_cases (t : Template) (s : σ) :
    (runOn s (t.load : StateM σ Template)).1.content = t.content ∨
      ∃ text, (runOn s (t.load : StateM σ Template)).1.content = sanitize text := by
  by_cases h : t.content = []
  · rw [runOn_load_of_empty h]
    dsimp only [loadedWith]
    split
    next text _ => exact Or.inr ⟨text, rfl⟩
    next => exact Or.inl rfl
  · rw [runOn_load_of_content h]
    exact Or.inl rfl

theorem config_staged (t : Template) (s : σ) : (t.staged s).config = t.config := by
  obtain ⟨_, _, _, hload⟩ := t.exists_load_eq s
  rw [staged, hload]
  rfl

theorem outputs_staged (t : Template) (s : σ) : (t.staged s).outputs = t.outputs := by
  obtain ⟨_, _, _, hload⟩ := t.exists_load_eq s
  rw [staged, hload]
  rfl

theorem injects_staged (t : Template) (s : σ) : (t.staged s).injects = t.injects := by
  obtain ⟨_, _, _, hload⟩ := t.exists_load_eq s
  rw [staged, hload]
  rfl

theorem scratch_staged (t : Template) (s : σ) : (t.staged s).scratch = t.scratch := by
  obtain ⟨_, _, _, hload⟩ := t.exists_load_eq s
  rw [staged, hload]
  rfl

/-- The output of the result in memory; a function whose name is no key is refused. -/
def evaluateInMemory (t : Template) (globals : Scope) : Text × Warnings :=
  if isKey t.config.evaluationFunction then
    t.run globals t.result
  else
    ([], t.warnings.record (.unknownFunction t.config.evaluationFunction))

theorem evaluate_of_not_isKey {t : Template} (h : isKey t.config.evaluationFunction = false)
    (globals : Scope) (fresh : Text) :
    (t.evaluate globals fresh : StateM σ (Text × Warnings)) =
      pure (t.evaluateInMemory globals) := by
  simp [evaluate, evaluateInMemory, h]

theorem evaluate_direct {t : Template} (h : t.config.cacheMode = .direct) (globals : Scope)
    (fresh : Text) :
    (t.evaluate globals fresh : StateM σ (Text × Warnings)) =
      pure (t.evaluateInMemory globals) := by
  cases hk : isKey t.config.evaluationFunction with
  | false => exact evaluate_of_not_isKey hk globals fresh
  | true => simp [evaluate, evaluateInMemory, hk, h]

theorem fst_compile_of_direct {t : Template} (h : t.config.cacheMode = .direct) (globals : Scope)
    (fresh : Text) (s : σ) :
    (runOn s (t.compile globals fresh : StateM σ Template)).1 =
      (t.staged s).finish ((t.staged s).evaluateInMemory globals) := by
  have hdirect : (t.staged s).config.cacheMode = .direct := by rw [config_staged, h]
  rw [runOn_compile, evaluate_direct hdirect, runOn_pure]

/-- No placeholder is left where all were taken out, so doing it again changes nothing, and none is
left in the output of a compilation.  To have none means that delimiters enclose no part of a
line. -/
theorem no_placeholder_survives :
    (∀ t : Text, placeholders t = [] ↔ ∀ inner, '\n' ∉ inner → ¬ delimited inner <:+: t) ∧
    (∀ t : Text, placeholders (stripPlaceholders t) = []) ∧
    (∀ t : Text, stripPlaceholders (stripPlaceholders t) = stripPlaceholders t) ∧
    ∀ (t : Template) (globals : Scope) (fresh : Text) (s : σ),
      placeholders (runOn s (t.compile globals fresh : StateM σ Template)).1.compiled = [] := by
  have hnone (t : Text) : placeholders (stripPlaceholders t) = [] :=
    placeholders_eq_nil_of_plain (ofText_stripPlaceholders t)
  refine ⟨fun t => placeholders_eq_nil_iff_not_infix, hnone, ?_, ?_⟩
  · intro t
    exact replacePlaceholders_of_plain _ (ofText_stripPlaceholders t)
  · intro t globals fresh s
    rw [runOn_compile]
    exact hnone _

end Stencil.Template
