import Stencil.Proofs.Template.Warnings
import Stencil.Proofs.Text.Sanitize

namespace Stencil

namespace Template

/-- What can be done to a template.  A compilation is given the files as they are at its time. -/
inductive Operation (σ : Type) where
  | setName (name : Text)
  | setStatics (statics : List (Text × Text))
  | setStatic (key value : Text)
  | setConditions (conditions : List (Text × Bool))
  | setCondition (key : Text) (holds : Bool)
  | setLoops (loops : List (Text × List Row))
  | setLoop (key : Text) (rows : List Row)
  | setInjects (names : List Text)
  | setContent (content : Text)
  | setFilePath (path : Text)
  | setConfig (config : Config)
  | setScratchCache (cache : ScratchCache)
  | register (name : Text) (function : OutputFunction)
  | compile (globals : Scope) (fresh : Text) (files : σ)
  | compileStrict (globals : Scope) (fresh : Text) (files : σ)

variable {σ : Type} [MonadFiles (StateM σ)]

/-- The template behind an operation. -/
def Operation.apply : Operation σ → Template → Template
  | .setName name, t => t.setName name
  | .setStatics statics, t => t.setStatics statics
  | .setStatic key value, t => t.setStatic key value
  | .setConditions conditions, t => t.setConditions conditions
  | .setCondition key holds, t => t.setCondition key holds
  | .setLoops loops, t => t.setLoops loops
  | .setLoop key rows, t => t.setLoop key rows
  | .setInjects names, t => t.setInjects names
  | .setContent content, t => t.setContent content
  | .setFilePath path, t => t.setFilePath path
  | .setConfig config, t => t.setConfig config
  | .setScratchCache cache, t => t.setScratchCache cache
  | .register name function, t => t.register name function
  | .compile globals fresh files, t =>
      (runOn files (t.compile globals fresh : StateM σ Template)).1
  | .compileStrict globals fresh files, t =>
      (runOn files (t.compileStrict globals fresh : StateM σ _)).1.2

/-- The template behind a run of operations. -/
def after (operations : List (Operation σ)) (t : Template) : Template :=
  operations.foldl (fun t operation => operation.apply t) t

/-- A new template, with the default settings or with given ones. -/
def new : Option Config → Template
  | none => {}
  | some config => withConfig config

theorem filePath_new (config? : Option Config) : (new config?).filePath = none := by
  cases config? with
  | none => rfl
  | some config => rfl

theorem content_new (config? : Option Config) : (new config?).content = [] := by
  cases config? with
  | none => rfl
  | some config => rfl

theorem phase_new (config? : Option Config) : (new config?).phase = .empty := by
  cases config? with
  | none => rfl
  | some config => rfl

theorem after_cons (operation : Operation σ) (operations : List (Operation σ)) (t : Template) :
    after (operation :: operations) t = after operations (operation.apply t) :=
  rfl

theorem after_append (front back : List (Operation σ)) (t : Template) :
    after (front ++ back) t = after back (after front t) :=
  List.foldl_append

/-- What new templates have and operations keep, all templates have behind their runs. -/
theorem after_induction {Holds : Template → Prop} (hnew : ∀ config?, Holds (new config?))
    (hstep : ∀ (operation : Operation σ) t, Holds t → Holds (operation.apply t))
    (config? : Option Config) (operations : List (Operation σ)) :
    Holds (after operations (new config?)) := by
  suffices hrun : ∀ t, Holds t → Holds (after operations t) from hrun _ (hnew config?)
  induction operations with
  | nil => exact fun t h => h
  | cons operation operations ih => exact fun t h => ih _ (hstep operation t h)

/-- The phase that an operation sets, if it sets one. -/
def Operation.phase? : Operation σ → Option Phase
  | .setContent content => if sanitize content = [] then none else some .loaded
  | .compile _ _ _ | .compileStrict _ _ _ => some .evaluated
  | _ => none

/-- What holds of a template between operations. -/
structure Sound (t : Template) : Prop where
  sanitized : sanitize t.content = t.content
  warnings_nodup : t.warnings.Nodup
  config_normal : t.config.IsNormal
  phase : t.phase = .empty ∨ t.phase = .loaded ∨ t.phase = .evaluated
  empty : t.phase = .empty →
    t.content = [] ∧ t.result = [] ∧ t.compiled = [] ∧ t.warnings = []

/-- What a compilation makes of a template: the rules are used up, and all that is given for good
is as it was. -/
structure Compiled (t t' : Template) : Prop where
  statics : t'.statics = .empty
  conditions : t'.conditions = .empty
  loops : t'.loops = .empty
  phase : t'.phase = .evaluated
  name : t'.name = t.name
  injects : t'.injects = t.injects
  config : t'.config = t.config
  outputs : t'.outputs = t.outputs
  scratch : t'.scratch = t.scratch
  content : t.content ≠ [] → t'.content = t.content

theorem apply_compile (globals : Scope) (fresh : Text) (s : σ) (t : Template) :
    ∃ output : Text × Warnings,
      (Operation.compile globals fresh s).apply t = (t.staged s).finish output ∧
        (Warnings.Records .evaluation (t.staged s).warnings output.2 ∨
          Warnings.Records .scratch (t.staged s).warnings output.2) := by
  refine ⟨_, congrArg Prod.fst (runOn_compile t globals fresh s), ?_⟩
  exact records_evaluate (t.staged s) globals fresh _

theorem compiled_apply_compile (globals : Scope) (fresh : Text) (s : σ) (t : Template) :
    t.Compiled ((Operation.compile globals fresh s).apply t) := by
  obtain ⟨output, happly, -⟩ := apply_compile globals fresh s t
  obtain ⟨filePath, content, warnings, hload⟩ := t.exists_load_eq s
  rw [happly, staged, hload]
  refine ⟨rfl, rfl, rfl, rfl, rfl, rfl, rfl, rfl, rfl, fun hcontent => ?_⟩
  rw [runOn_load_of_content hcontent] at hload
  exact (congrArg Template.content hload).symm

theorem warnings_nodup_staged (t : Template) (s : σ) : (t.staged s).warnings.Nodup :=
  (records_rejections _ _).nodup
    ((records_applyRules _).nodup ((t.records_load s).nodup List.nodup_nil))

theorem sound_new (config? : Option Config) : (new config?).Sound := by
  have hempty : sanitize [] = [] := sanitize_of_notMem List.not_mem_nil List.not_mem_nil
  cases config? with
  | none =>
      have hnormal : Config.IsNormal {} := by simp [Config.IsNormal]
      exact ⟨hempty, List.nodup_nil, hnormal, Or.inl rfl, fun _ => ⟨rfl, rfl, rfl, rfl⟩⟩
  | some config =>
      have hnormal := config.isNormal_normalize
      exact ⟨hempty, List.nodup_nil, hnormal, Or.inl rfl, fun _ => ⟨rfl, rfl, rfl, rfl⟩⟩

namespace Sound

variable {t : Template}

theorem congr {t' : Template} (h : t.Sound) (hcontent : t'.content = t.content)
    (hresult : t'.result = t.result) (hcompiled : t'.compiled = t.compiled)
    (hwarnings : t'.warnings = t.warnings) (hconfig : t'.config = t.config)
    (hphase : t'.phase = t.phase) : t'.Sound := by
  refine ⟨?_, ?_, ?_, ?_, ?_⟩
  · rw [hcontent, h.sanitized]
  · rw [hwarnings]
    exact h.warnings_nodup
  · rw [hconfig]
    exact h.config_normal
  · rw [hphase]
    exact h.phase
  · rw [hphase, hcontent, hresult, hcompiled, hwarnings]
    exact h.empty

theorem setContent (h : t.Sound) (content : Text) : (t.setContent content).Sound := by
  by_cases hempty : sanitize content = []
  · have hphase : (t.setContent content).phase = t.phase := if_pos hempty
    refine ⟨sanitize_sanitize content, h.warnings_nodup, h.config_normal, ?_, ?_⟩
    · rw [hphase]
      exact h.phase
    · intro hnew
      rw [hphase] at hnew
      exact ⟨hempty, (h.empty hnew).2⟩
  · have hphase : (t.setContent content).phase = .loaded := if_neg hempty
    refine ⟨sanitize_sanitize content, h.warnings_nodup, h.config_normal,
      Or.inr (Or.inl hphase), ?_⟩
    intro hnew
    rw [hphase] at hnew
    exact absurd hnew (by decide)

theorem setConfig (h : t.Sound) (config : Config) : (t.setConfig config).Sound :=
  ⟨h.sanitized, h.warnings_nodup, config.isNormal_normalize, h.phase, h.empty⟩

theorem compile (h : t.Sound) (globals : Scope) (fresh : Text) (s : σ) :
    ((Operation.compile globals fresh s).apply t).Sound := by
  have hcompiled := compiled_apply_compile globals fresh s t
  obtain ⟨output, happly, hrecords⟩ := apply_compile globals fresh s t
  refine ⟨?_, ?_, ?_, Or.inr (Or.inr hcompiled.phase), ?_⟩
  · have hcontent : ((Operation.compile globals fresh s).apply t).content =
        (runOn s (t.load : StateM σ Template)).1.content := t.content_compile globals fresh s
    rw [hcontent]
    rcases t.content_load_cases s with hload | ⟨text, hload⟩
    · rw [hload, h.sanitized]
    · rw [hload, sanitize_sanitize]
  · rw [happly]
    rcases hrecords with hrecords | hrecords
    · exact hrecords.nodup (t.warnings_nodup_staged s)
    · exact hrecords.nodup (t.warnings_nodup_staged s)
  · rw [hcompiled.config]
    exact h.config_normal
  · intro hphase
    rw [hcompiled.phase] at hphase
    exact absurd hphase (by decide)

theorem apply (h : t.Sound) (operation : Operation σ) : (operation.apply t).Sound := by
  cases operation with
  | setContent content => exact h.setContent content
  | setConfig config => exact h.setConfig config
  | compile globals fresh s => exact h.compile globals fresh s
  | compileStrict globals fresh s => exact h.compile globals fresh s
  | setName _ | setStatics _ | setStatic _ _ | setConditions _ | setCondition _ _ | setLoops _
  | setLoop _ _ | setInjects _ | setFilePath _ | setScratchCache _ | register _ _ =>
      exact h.congr rfl rfl rfl rfl rfl rfl

end Sound

theorem phase_apply (operation : Operation σ) (t : Template) :
    (operation.apply t).phase = operation.phase?.getD t.phase := by
  cases operation with
  | setContent content =>
      by_cases hempty : sanitize content = []
      · simp [Operation.apply, Operation.phase?, Template.setContent, hempty]
      · simp [Operation.apply, Operation.phase?, Template.setContent, hempty]
  | compile globals fresh s => exact (compiled_apply_compile globals fresh s t).phase
  | compileStrict globals fresh s => exact (compiled_apply_compile globals fresh s t).phase
  | setName _ | setStatics _ | setStatic _ _ | setConditions _ | setCondition _ _ | setLoops _
  | setLoop _ _ | setInjects _ | setFilePath _ | setConfig _ | setScratchCache _
  | register _ _ => rfl

theorem phase_after (operations : List (Operation σ)) (t : Template) :
    (after operations t).phase =
      (operations.reverse.findSome? Operation.phase?).getD t.phase := by
  induction operations generalizing t with
  | nil => rfl
  | cons operation operations ih =>
      rw [after_cons, ih, phase_apply, List.reverse_cons, List.findSome?_append]
      cases operations.reverse.findSome? Operation.phase? with
      | none => cases h : operation.phase? <;> simp [h]
      | some phase => rfl

/-- Whatever is done to a new template, its content is sanitized, no warning is there twice and no
setting is empty; it is in one of three phases, the one that was set last; and in the first one it
is blank.  A compilation goes through the other two phases on its way.  Strict or not, it uses up
the rules and leaves all that was given for good. -/
theorem sound_after_operations (config? : Option Config) (operations : List (Operation σ)) :
    let t := after operations (new config?)
    t.Sound ∧
      t.phase = (operations.reverse.findSome? Operation.phase?).getD .empty ∧
      ∀ globals fresh (s : σ),
        let loaded := (runOn s (t.load : StateM σ Template)).1
        (loaded.phase = .loaded ∧ loaded.resolveBlocks.2.phase = .blocksResolved ∧
            (t.staged s).phase = .staticsSubstituted) ∧
          t.Compiled (runOn s (t.compile globals fresh : StateM σ Template)).1 ∧
          t.Compiled (runOn s (t.compileStrict globals fresh : StateM σ _)).1.2 := by
  intro t
  refine ⟨?_, ?_, ?_⟩
  · exact after_induction sound_new (fun operation t h => h.apply operation) config? operations
  · rw [← phase_new config?]
    exact phase_after operations _
  · intro globals fresh s loaded
    have hcompiled := compiled_apply_compile globals fresh s t
    exact ⟨⟨t.phase_load s, rfl, rfl⟩, hcompiled, hcompiled⟩

end Template

end Stencil
