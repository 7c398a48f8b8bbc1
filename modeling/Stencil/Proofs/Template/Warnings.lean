import Stencil.Proofs.Program.Output
import Stencil.Proofs.Template.Compile

namespace Stencil

theorem Block.records_resolveCondition (key : Text) (holds : Bool) (t : Text) (ws : Warnings) :
    Warnings.Records .blocks ws (resolveCondition key holds t ws).2 := by
  unfold resolveCondition
  split
  next =>
    show Warnings.Records .blocks ws (if _ then _ else _)
    split
    next => exact .record (.blockNotFound .condition key) ws
    next => exact .refl _ ws
  next => exact .record (.invalidKey .condition key) ws

theorem Block.records_resolveLoop (key : Text) (rows : List Row) (t : Text) (ws : Warnings) :
    Warnings.Records .blocks ws (resolveLoop key rows t ws).2 := by
  unfold resolveLoop
  split
  next =>
    split
    next => exact .record (.blockNotFound .loop key) ws
    next => exact .refl _ ws
    next blocks _ _ _ _ => exact .record (.duplicateBlock .loop key blocks.length) ws
  next => exact .record (.invalidKey .loop key) ws

theorem pass_of_mem_rejections {t : Text} {w : Warning} (h : w ∈ rejections t) :
    w.pass = .staging := by
  rw [rejections, List.mem_filterMap] at h
  obtain ⟨inner, -, h⟩ := h
  split at h
  next => simp at h
  next =>
    rw [← Option.some.inj h]
    rfl

theorem records_rejections (t : Text) (ws : Warnings) :
    Warnings.Records .staging ws (ws.recordAll (rejections t)) :=
  ⟨rejections t, fun _ => pass_of_mem_rejections, rfl⟩

namespace Template

theorem records_applyRules (t : Template) :
    Warnings.Records .blocks t.warnings t.applyRules.2.warnings := by
  have hconditions (acc : Text × Warnings) :=
    Warnings.Records.foldl (fun acc (entry : Text × Bool) =>
        Block.resolveCondition entry.1 entry.2 acc.1 acc.2)
      (fun acc entry => Block.records_resolveCondition entry.1 entry.2 acc.1 acc.2)
      t.conditions.entries acc
  have hloops (acc : Text × Warnings) :=
    Warnings.Records.foldl (fun acc (entry : Text × List Row) =>
        Block.resolveLoop entry.1 entry.2 acc.1 acc.2)
      (fun acc entry => Block.records_resolveLoop entry.1 entry.2 acc.1 acc.2)
      t.loops.entries acc
  rw [warnings_applyRules]
  exact (hconditions (tighten t.content, t.warnings)).trans (hloops _)

variable {σ : Type} [MonadFiles (StateM σ)]

theorem records_load (t : Template) (s : σ) :
    Warnings.Records .loading [] (runOn s (t.load : StateM σ Template)).1.warnings := by
  by_cases hcontent : t.content = []
  · rw [runOn_load_of_empty hcontent]
    dsimp only [loadedWith]
    split
    next => exact .refl _ []
    next => exact .record (.missingTemplateFile t.path) []
  · rw [runOn_load_of_content hcontent]
    exact .refl _ []

theorem records_evaluate (t : Template) (globals : Scope) (fresh : Text) (s : σ) :
    let ws := (runOn s (t.evaluate globals fresh : StateM σ (Text × Warnings))).1.2
    Warnings.Records .evaluation t.warnings ws ∨ Warnings.Records .scratch t.warnings ws := by
  cases hkey : isKey t.config.evaluationFunction with
  | false =>
      left
      simp only [evaluate, hkey]
      exact .record (.unknownFunction t.config.evaluationFunction) t.warnings
  | true =>
      cases hmode : t.config.cacheMode with
      | direct =>
          left
          simp only [evaluate, hkey, hmode]
          exact Program.records_run _ t.warnings
      | scratch =>
          simp only [evaluate, hkey, hmode, Bool.not_true, Bool.false_eq_true, if_false, runOn_bind]
          cases (runOn s (t.throughScratch fresh : StateM σ _)).1 with
          | ok staged => exact Or.inl (Program.records_run _ t.warnings)
          | error path => exact Or.inr (.record (.staleScratchFile path) t.warnings)

theorem pass_of_mem_warnings_staged {t : Template} {s : σ} {w : Warning}
    (h : w ∈ (t.staged s).warnings) :
    w.pass = .loading ∨ w.pass = .blocks ∨ w.pass = .staging := by
  by_cases hstaging : w.pass = .staging
  · exact Or.inr (Or.inr hstaging)
  have hruled := (records_rejections _ _).mem_of_pass_ne h hstaging
  by_cases hblocks : w.pass = .blocks
  · exact Or.inr (Or.inl hblocks)
  have hloaded := (records_applyRules _).mem_of_pass_ne hruled hblocks
  by_cases hloading : w.pass = .loading
  · exact Or.inl hloading
  exact absurd ((t.records_load s).mem_of_pass_ne hloaded hloading) List.not_mem_nil

theorem mem_warnings_compile_iff {t : Template} {globals : Scope} {fresh : Text} {s : σ}
    {w : Warning} (hw : w.pass = .loading) :
    w ∈ (runOn s (t.compile globals fresh : StateM σ Template)).1.warnings ↔
      w ∈ (runOn s (t.load : StateM σ Template)).1.warnings := by
  have hstaged : w ∈ (t.staged s).warnings ↔
      w ∈ (runOn s (t.load : StateM σ Template)).1.warnings :=
    ((records_rejections _ _).mem_iff (by simp [hw])).trans
      ((records_applyRules _).mem_iff (by simp [hw]))
  rw [← hstaged, runOn_compile]
  rcases (t.staged s).records_evaluate globals fresh (runOn s (t.load : StateM σ Template)).2 with
    hevaluated | hevaluated
  · exact hevaluated.mem_iff (by simp [hw])
  · exact hevaluated.mem_iff (by simp [hw])

end Template

end Stencil
