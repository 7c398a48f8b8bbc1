import Stencil.Proofs.FileSystem.Scratch
import Stencil.Proofs.Template.Warnings

namespace Stencil

/-- No warning is about a scratch file. -/
def Warnings.NoStale (ws : Warnings) : Prop :=
  ∀ path, Warning.staleScratchFile path ∉ ws

theorem Warnings.NoStale.of_records {pass : Pass} {ws ws' : Warnings} (h : ws.NoStale)
    (hrecords : Warnings.Records pass ws ws') (hpass : pass ≠ .scratch) : ws'.NoStale :=
  fun path hmem => h path (hrecords.mem_of_pass_ne hmem (Ne.symm hpass))

namespace Template

theorem noStale_stageResult {t : Template} (h : t.warnings.NoStale) :
    t.stageResult.warnings.NoStale :=
  (h.of_records t.records_applyRules (by simp)).of_records (records_rejections _ _) (by simp)

/-- The template set to pass its staged text in memory or by way of a scratch file. -/
def withMode (t : Template) (mode : CacheMode) : Template :=
  { t with config := { t.config with cacheMode := mode } }

variable {σ : Type} [MonadFiles (StateM σ)] {view : FileView σ}

theorem runOn_readContent?_state (files : LawfulFiles σ view) (s : σ) (path : Text) :
    (runOn s (readContent? path : StateM σ _)).2 = s := by
  rw [runOn_readContent?]
  exact files.readText?_state s path

theorem runOn_load_state (files : LawfulFiles σ view) (t : Template) (s : σ) :
    (runOn s (t.load : StateM σ Template)).2 = s := by
  by_cases hcontent : t.content = []
  · rw [runOn_load_of_empty hcontent]
    exact runOn_readContent?_state files s t.path
  · rw [runOn_load_of_content hcontent]

theorem exists_loaded (files : LawfulFiles σ view) (t : Template) (s : σ) :
    ∃ loaded : Template, loaded.warnings.NoStale ∧ loaded.config = t.config ∧
      loaded.scratch = t.scratch ∧
      ∀ mode, runOn s ((t.withMode mode).load : StateM σ Template) =
        (loaded.withMode mode, s) := by
  by_cases hc : t.content = []
  · have hstate := runOn_readContent?_state files s t.path
    refine ⟨t.loadedWith (runOn s (readContent? t.path : StateM σ _)).1, ?_, rfl, rfl, ?_⟩
    · cases (runOn s (readContent? t.path : StateM σ _)).1 with
      | some text => simp [loadedWith, Warnings.NoStale]
      | none => simp [loadedWith, Warnings.NoStale]
    · intro mode
      rw [runOn_load_of_empty (show (t.withMode mode).content = [] from hc)]
      exact Prod.ext rfl hstate
  · refine ⟨{ t with warnings := [], phase := .loaded }, by simp [Warnings.NoStale], rfl, rfl, ?_⟩
    intro mode
    rw [runOn_load_of_content (show (t.withMode mode).content ≠ [] from hc)]
    rfl

/-- The scratch files of a template: its own, or those in the directory of its settings. -/
def cacheOn (t : Template) (s : σ) : ScratchCache :=
  t.scratch.getD
    ⟨t.config.cacheDirectory, (runOn s (MonadFiles.temporaryDirectory : StateM σ Text)).1, none⟩

theorem runOn_throughScratch (files : LawfulFiles σ view) (t : Template) (fresh : Text) (s : σ) :
    runOn s (t.throughScratch fresh : StateM σ _) =
      runOn s ((t.cacheOn s).passThrough fresh t.result) := by
  cases hscratch : t.scratch with
  | some cache =>
      simp only [throughScratch, cacheOn, hscratch, Option.getD_some]
      rfl
  | none =>
      have hstate := files.temporaryDirectory_state s
      simp only [throughScratch, cacheOn, hscratch, Option.getD_none, runOn_bind,
        ScratchCache.inDirectory, runOn_pure, hstate]
      rfl

theorem noStale_evaluateInMemory {t : Template} (h : t.warnings.NoStale) (globals : Scope) :
    (t.evaluateInMemory globals).2.NoStale := by
  unfold evaluateInMemory
  split
  next => exact h.of_records (Program.records_run _ t.warnings) (by simp)
  next => exact h.of_records (.record (.unknownFunction _) t.warnings) (by simp [Warning.pass])

theorem runOn_evaluate_direct (t : Template) (globals : Scope) (fresh : Text) (s : σ) :
    runOn s ((t.withMode .direct).evaluate globals fresh : StateM σ _) =
      (t.evaluateInMemory globals, s) := by
  have hdirect : (t.withMode .direct).config.cacheMode = .direct := rfl
  rw [evaluate_direct hdirect, runOn_pure]
  rfl

theorem runOn_evaluate_scratch_of_not_isKey {t : Template}
    (h : isKey t.config.evaluationFunction = false) (globals : Scope) (fresh : Text) (s : σ) :
    runOn s ((t.withMode .scratch).evaluate globals fresh : StateM σ _) =
      (t.evaluateInMemory globals, s) := by
  have hscratch : isKey (t.withMode .scratch).config.evaluationFunction = false := h
  rw [evaluate_of_not_isKey hscratch, runOn_pure]
  rfl

theorem runOn_evaluate_scratch_of_isKey (files : LawfulFiles σ view) {t : Template}
    (h : isKey t.config.evaluationFunction = true) (globals : Scope) (fresh : Text) (s : σ) :
    runOn s ((t.withMode .scratch).evaluate globals fresh : StateM σ _) =
      let passed := runOn s ((t.cacheOn s).passThrough fresh t.result)
      (match passed.1 with
        | .ok staged => t.run globals staged
        | .error path => ([], t.warnings.record (.staleScratchFile path)), passed.2) := by
  have hrun := runOn_throughScratch files (t.withMode .scratch) fresh s
  have hkey : isKey (t.withMode .scratch).config.evaluationFunction = true := h
  have hmode : (t.withMode .scratch).config.cacheMode = .scratch := rfl
  simp only [evaluate, hkey, hmode, Bool.not_true, Bool.false_eq_true, if_false, runOn_bind, hrun]
  change _ = ((match (runOn s (((t.withMode .scratch).cacheOn s).passThrough fresh
    (t.withMode .scratch).result)).1 with | .ok staged => _ | .error path => _), _)
  cases (runOn s (((t.withMode .scratch).cacheOn s).passThrough fresh
      (t.withMode .scratch).result)).1 with
  | ok staged => rfl
  | error path => rfl

theorem runOn_evaluate_scratch_of_blocked (files : LawfulFiles σ view) {t : Template}
    (h : isKey t.config.evaluationFunction = true) {fresh : Text} {s : σ}
    (hblocked : Blocked s ((t.cacheOn s).primary fresh)) (globals : Scope) :
    runOn s ((t.withMode .scratch).evaluate globals fresh : StateM σ _) =
      (([], t.warnings.record (.staleScratchFile ((t.cacheOn s).primary fresh))), s) := by
  rw [runOn_evaluate_scratch_of_isKey files h,
    ScratchCache.runOn_passThrough_of_blocked files hblocked]

theorem runOn_evaluate_scratch_of_not_blocked (files : LawfulFiles σ view) {t : Template}
    (h : isKey t.config.evaluationFunction = true) {fresh : Text} {s : σ}
    (hblocked : ¬ Blocked s ((t.cacheOn s).primary fresh)) (globals : Scope) :
    ∃ s', runOn s ((t.withMode .scratch).evaluate globals fresh : StateM σ _) =
        (t.evaluateInMemory globals, s') ∧
      view.Vacates s s' fun p =>
        (runOn s (MonadFiles.occupied ((t.cacheOn s).primary fresh) : StateM σ Bool)).1 = true ∧
            view.locate? s ((t.cacheOn s).primary fresh) = some p ∨
          (t.cacheOn s).FallsBack fresh t.result s ∧
            view.locate? s ((t.cacheOn s).secondary fresh) = some p := by
  obtain ⟨s', hpassed, hvacates⟩ :=
    ScratchCache.runOn_passThrough_of_not_blocked files hblocked t.result
  refine ⟨s', ?_, hvacates⟩
  rw [runOn_evaluate_scratch_of_isKey files h, hpassed, evaluateInMemory, if_pos h]

/-- An evaluation by way of a scratch file for which something stands in the way. -/
def Stale (t : Template) (fresh : Text) (s : σ) : Prop :=
  t.config.cacheMode = .scratch ∧ isKey t.config.evaluationFunction = true ∧
    Blocked s ((t.cacheOn s).primary fresh)

theorem withMode_scratch {t : Template} (h : t.config.cacheMode = .scratch) :
    t.withMode .scratch = t := by
  rw [withMode, ← h]

theorem fst_evaluate_of_stale (files : LawfulFiles σ view) {t : Template} {fresh : Text} {s : σ}
    (h : t.Stale fresh s) (globals : Scope) :
    (runOn s (t.evaluate globals fresh : StateM σ _)).1 =
      ([], t.warnings.record (.staleScratchFile ((t.cacheOn s).primary fresh))) := by
  obtain ⟨hmode, hkey, hblocked⟩ := h
  have hrun := runOn_evaluate_scratch_of_blocked files hkey hblocked globals
  rw [withMode_scratch hmode] at hrun
  exact congrArg Prod.fst hrun

theorem fst_evaluate_of_not_stale (files : LawfulFiles σ view) {t : Template} {fresh : Text}
    {s : σ} (h : ¬ t.Stale fresh s) (globals : Scope) :
    (runOn s (t.evaluate globals fresh : StateM σ _)).1 = t.evaluateInMemory globals := by
  cases hmode : t.config.cacheMode with
  | direct =>
      rw [evaluate_direct hmode]
      rfl
  | scratch =>
      cases hkey : isKey t.config.evaluationFunction with
      | false =>
          rw [evaluate_of_not_isKey hkey]
          rfl
      | true =>
          have hblocked : ¬ Blocked s ((t.cacheOn s).primary fresh) :=
            fun hblocked => h ⟨hmode, hkey, hblocked⟩
          obtain ⟨s', hrun, -⟩ :=
            runOn_evaluate_scratch_of_not_blocked files hkey hblocked globals
          rw [withMode_scratch hmode] at hrun
          exact congrArg Prod.fst hrun

theorem evaluate_cases (files : LawfulFiles σ view) (t : Template) (globals : Scope)
    (fresh : Text) (s : σ) :
    (runOn s (t.evaluate globals fresh : StateM σ _)).1 = t.evaluateInMemory globals ∨
      ∃ path, (runOn s (t.evaluate globals fresh : StateM σ _)).1 =
        ([], t.warnings.record (.staleScratchFile path)) := by
  by_cases hstale : t.Stale fresh s
  · exact Or.inr ⟨_, fst_evaluate_of_stale files hstale globals⟩
  · exact Or.inl (fst_evaluate_of_not_stale files hstale globals)

/-- Two compiled templates that a user cannot tell apart. -/
structure SameOutcome (t t' : Template) : Prop where
  content_eq : t.content = t'.content
  result_eq : t.result = t'.result
  compiled_eq : t.compiled = t'.compiled
  warnings_eq : t.warnings = t'.warnings

theorem sameOutcome_finish (base : Template) (output : Text × Warnings) :
    ((base.withMode .scratch).finish output).SameOutcome
      ((base.withMode .direct).finish output) :=
  ⟨rfl, rfl, rfl, rfl⟩

theorem not_sameOutcome_of_stale {base : Template} (h : base.warnings.NoStale) (globals : Scope)
    (path : Text) :
    ¬ ((base.withMode .scratch).finish
        ([], base.warnings.record (.staleScratchFile path))).SameOutcome
      ((base.withMode .direct).finish (base.evaluateInMemory globals)) := by
  intro hsame
  have hwarned : base.warnings.record (.staleScratchFile path) =
      (base.evaluateInMemory globals).2 := hsame.warnings_eq
  apply noStale_evaluateInMemory h globals path
  rw [← hwarned]
  exact Warnings.mem_record.mpr (Or.inr rfl)

/-- The compilations of a template in either mode, seen as evaluations of one staged template. -/
theorem exists_staged (files : LawfulFiles σ view) (t : Template) (globals : Scope) (fresh : Text)
    (s : σ) :
    ∃ base : Template, base.warnings.NoStale ∧ base.config = t.config ∧
      base.cacheOn s = t.cacheOn s ∧ base.result = (t.staged s).result ∧
      base.warnings = (t.staged s).warnings ∧
      ∀ mode, runOn s ((t.withMode mode).compile globals fresh : StateM σ Template) =
        let evaluated := runOn s ((base.withMode mode).evaluate globals fresh : StateM σ _)
        ((base.withMode mode).finish evaluated.1, evaluated.2) := by
  obtain ⟨loaded, hwarnings, hconfig, hscratch, hload⟩ := exists_loaded files t s
  have hstaged (mode : CacheMode) :
      (t.withMode mode).staged s = loaded.stageResult.withMode mode := by
    simp only [staged, hload]
    rfl
  refine ⟨loaded.stageResult, noStale_stageResult hwarnings, hconfig, ?_, ?_, ?_, ?_⟩
  · simp only [cacheOn]
    rw [show loaded.stageResult.scratch = t.scratch from hscratch,
      show loaded.stageResult.config = t.config from hconfig]
  · rw [show t.staged s = _ from hstaged t.config.cacheMode]
    rfl
  · rw [show t.staged s = _ from hstaged t.config.cacheMode]
    rfl
  · intro mode
    simp only [runOn_compile, hstaged, hload]

variable (view) in
/-- The places that a compilation by way of a scratch file may leave empty: that of the first path,
when something was there, and that of the second one, when the first refused the text. -/
def Dropped (t : Template) (fresh : Text) (s : σ) (p : view.Place) : Prop :=
  isKey t.config.evaluationFunction = true ∧ ¬ Blocked s ((t.cacheOn s).primary fresh) ∧
    ((runOn s (MonadFiles.occupied ((t.cacheOn s).primary fresh) : StateM σ Bool)).1 = true ∧
        view.locate? s ((t.cacheOn s).primary fresh) = some p ∨
      (t.cacheOn s).FallsBack fresh (t.staged s).result s ∧
        view.locate? s ((t.cacheOn s).secondary fresh) = some p)

/-- By way of a scratch file a template compiles to what it compiles to in memory, unless it has a
function to call and a file is in the way that cannot be removed; no scratch file stays behind. -/
theorem compile_scratch_refines_direct (files : LawfulFiles σ view) (t : Template)
    (globals : Scope) (fresh : Text) (s : σ) :
    let byScratch := runOn s ((t.withMode .scratch).compile globals fresh : StateM σ Template)
    let direct := runOn s ((t.withMode .direct).compile globals fresh : StateM σ Template)
    let primary := (t.cacheOn s).primary fresh
    let stale := isKey t.config.evaluationFunction = true ∧ Blocked s primary
    (byScratch.1.SameOutcome direct.1 ↔ ¬ stale) ∧
      (stale → byScratch.1.content = direct.1.content ∧ byScratch.1.result = direct.1.result ∧
        byScratch.1.compiled = [] ∧
        byScratch.1.warnings = (t.staged s).warnings ++ [.staleScratchFile primary]) ∧
      direct.2 = s ∧ view.Vacates s byScratch.2 (t.Dropped view fresh s) := by
  intro byScratch direct primary stale
  obtain ⟨base, hwarnings, hconfig, hcache, hresult, hbefore, hcompile⟩ :=
    exists_staged files t globals fresh s
  have hfunction : base.config.evaluationFunction = t.config.evaluationFunction := by rw [hconfig]
  have hdirect : direct = ((base.withMode .direct).finish (base.evaluateInMemory globals), s) := by
    simp only [direct, hcompile, runOn_evaluate_direct]
  have hagree (s' : σ) (hrun : byScratch =
      ((base.withMode .scratch).finish (base.evaluateInMemory globals), s')) :
      byScratch.1.SameOutcome direct.1 := by
    rw [hrun, hdirect]
    exact sameOutcome_finish base _
  have hend : direct.2 = s := by rw [hdirect]
  cases hkey : isKey t.config.evaluationFunction with
  | false =>
      have hrun : byScratch =
          ((base.withMode .scratch).finish (base.evaluateInMemory globals), s) := by
        simp only [byScratch, hcompile,
          runOn_evaluate_scratch_of_not_isKey (hfunction ▸ hkey : _ = false)]
      have hnot : ¬ stale := fun h => Bool.false_ne_true (hkey ▸ h.1)
      refine ⟨⟨fun _ => hnot, fun _ => hagree s hrun⟩, fun h => absurd h hnot, hend, ?_⟩
      rw [hrun]
      apply FileView.vacates_self
      intro p hp
      exact Bool.false_ne_true (hkey ▸ hp.1)
  | true =>
      have hbaseKey : isKey base.config.evaluationFunction = true := hfunction ▸ hkey
      by_cases hblocked : Blocked s primary
      · have hevaluate := runOn_evaluate_scratch_of_blocked files hbaseKey
          (hcache ▸ hblocked : Blocked s ((base.cacheOn s).primary fresh)) globals
        have hrun : byScratch = ((base.withMode .scratch).finish
            ([], base.warnings.record (.staleScratchFile primary)), s) := by
          simp only [byScratch, hcompile, hevaluate]
          rw [hcache]
        refine ⟨⟨?_, fun h => absurd ⟨hkey, hblocked⟩ h⟩, ?_, hend, ?_⟩
        · intro hsame _
          rw [hrun, hdirect] at hsame
          exact not_sameOutcome_of_stale hwarnings globals primary hsame
        · intro _
          rw [hrun, hdirect]
          refine ⟨rfl, rfl, replacePlaceholders_nil _, ?_⟩
          show base.warnings.record (.staleScratchFile primary) = _
          rw [← hbefore, Warnings.record, if_neg (hwarnings primary)]
        · rw [hrun]
          apply FileView.vacates_self
          intro p hp
          exact hp.2.1 hblocked
      · obtain ⟨s', hevaluate, hvacates⟩ := runOn_evaluate_scratch_of_not_blocked files hbaseKey
          (hcache ▸ hblocked : ¬ Blocked s ((base.cacheOn s).primary fresh)) globals
        have hrun : byScratch =
            ((base.withMode .scratch).finish (base.evaluateInMemory globals), s') := by
          simp only [byScratch, hcompile, hevaluate]
        have hnot : ¬ stale := fun h => hblocked h.2
        refine ⟨⟨fun _ => hnot, fun _ => hagree s' hrun⟩, fun h => absurd h hnot, hend, ?_⟩
        rw [hcache, hresult] at hvacates
        rw [hrun]
        refine hvacates.restrict ?_ ?_
        · exact fun p hp => hp.2.2
        · exact fun p hp hgone => absurd ⟨hkey, hblocked, hp⟩ hgone

theorem compile_scratch_with_directory_in_the_way :
    let files : FileSystem := FileSystem.makeDirectory { temporary := ['t'] } ['d', '/', 's']
    let t : Template :=
      { content := ['x'], scratch := some ⟨['d'], ['t'], some ['s']⟩ }
    LawfulFiles FileSystem FileSystem.view ∧
      isKey t.config.evaluationFunction = true ∧ Blocked files ['d', '/', 's'] ∧
      (runOn files ((t.withMode .scratch).compile .empty [] : StateM _ Template)).1.warnings =
        [.staleScratchFile ['d', '/', 's']] := by
  intro files t
  have hkey : isKey t.config.evaluationFunction = true := by decide
  have hblocked : Blocked files ['d', '/', 's'] := by
    constructor
    · decide +kernel
    · decide +kernel
  have hbefore : (t.staged files).warnings = [] := by decide +kernel
  have hstale := (compile_scratch_refines_direct FileSystem.lawfulFiles t .empty [] files).2.1
    ⟨hkey, hblocked⟩
  refine ⟨FileSystem.lawfulFiles, hkey, hblocked, ?_⟩
  rw [hstale.2.2.2, hbefore]
  rfl

/-- A file at the first path stays there when there is no function to call: nothing is put into
a scratch file then. -/
theorem compile_scratch_without_function_keeps_file :
    let files : FileSystem := FileSystem.put { temporary := ['t'] } ['d', '/', 's'] (some ['y'])
    let t : Template :=
      { content := ['x']
        config := { evaluationFunction := ['1', 'x'], cacheMode := .scratch }
        scratch := some ⟨['d'], ['t'], some ['s']⟩ }
    let compiled := runOn files (t.compile .empty [] : StateM _ Template)
    (t.cacheOn files).primary [] = ['d', '/', 's'] ∧ files.occupied ['d', '/', 's'] = true ∧
      (files.remove ['d', '/', 's']).1 = true ∧
      compiled.2.readText? ['d', '/', 's'] = some ['y'] := by
  intro files t compiled
  refine ⟨?_, ?_, ?_, ?_⟩
  · decide +kernel
  · decide +kernel
  · decide +kernel
  · decide +kernel

end Template

end Stencil
