import Stencil.Proofs.Program.Scope
import Stencil.Proofs.Template.Splice
import Stencil.Proofs.Template.Strict

/-!
What a compilation keeps.  Without loops and injected variables every pass makes a text tight or
splices it, and what it puts in is a static value, a call that staging writes, or nothing.  A
property that is kept by these steps goes from the content that is loaded to the output.
-/

namespace Stencil

/-- A property of texts that the passes keep when what they put in fits. -/
structure Kept (Holds Fits : Text → Prop) : Prop where
  nil : Holds []
  empty : Fits []
  tight {t : Text} : Holds t → Holds (tighten t)
  spliced {t t' : Text} : Holds t → Spliced Fits t t' → Holds t'
  call {t function : Text} {e : Expression} : Holds t → isKey function → e.WellFormed →
    (∀ k ∈ e.keys, k <:+: t) → Fits (callText function e)

namespace Kept

variable {Holds Fits : Text → Prop}

theorem resolveCondition (h : Kept Holds Fits) {t : Text} (ht : Holds t) (key : Text)
    (holds : Bool) (ws : Warnings) : Holds (Block.resolveCondition key holds t ws).1 := by
  cases hkey : isKey key with
  | false =>
      rw [Block.resolveCondition, if_neg (by simp [hkey])]
      exact ht
  | true =>
      have hkept : Holds (if holds then t else Block.outside .condition key t) := by
        split
        next => exact ht
        next => exact h.spliced ht (.outside h.empty .condition key t)
      rw [Block.fst_resolveCondition hkey, Block.dropTags]
      exact h.spliced (h.spliced hkept (.replaceAll (Block.enclosed_openTag _ _) h.empty _))
        (.replaceAll (Block.enclosed_closeTag _ _) h.empty _)

theorem applyRules (h : Kept Holds Fits) {t : Template} (hloops : t.loops = .empty)
    (hcontent : Holds t.content) (hstatics : ∀ e ∈ t.statics.entries, Fits (sanitize e.2)) :
    Holds t.applyRules.1 := by
  rw [Template.fst_applyRules, Template.resolved, hloops]
  apply List.foldlRecOn (motive := Holds)
  · dsimp only [Bindings.empty, List.foldl_nil]
    apply List.foldlRecOn (motive := fun p : Text × Warnings => Holds p.1)
    · exact h.tight hcontent
    · rintro ⟨text, ws⟩ htext ⟨key, holds⟩ -
      exact h.resolveCondition htext key holds ws
  · rintro text htext ⟨key, value⟩ he
    exact h.spliced htext (.replaceAll (enclosed_delimited key) (hstatics _ he) text)

theorem sweepBlocks (h : Kept Holds Fits) {t : Text} (ht : Holds t) :
    Holds (Template.sweepBlocks t) :=
  h.spliced (h.spliced ht (.sweep h.empty .condition t)) (.sweep h.empty .loop _)

theorem stage (h : Kept Holds Fits) {t function : Text} (ht : Holds t) (hf : isKey function) :
    Holds (stage function t) := by
  apply h.spliced ht
  apply Spliced.replacePlaceholders
  intro inner hinner
  rw [stageInner]
  cases hs : staged? inner with
  | none => exact h.empty
  | some e =>
      apply h.call ht hf (wellFormed_of_staged? hs).1
      intro k hk
      exact (Expression.infix_of_mem_keys_of_staged? hs hk).trans (infix_of_mem_inners hinner)

theorem stripPlaceholders (h : Kept Holds Fits) {t : Text} (ht : Holds t) :
    Holds (stripPlaceholders t) :=
  h.spliced ht (.replacePlaceholders fun _ _ => h.empty)

theorem evaluateInMemory (h : Kept Holds Fits) {t : Template} (hinjects : t.injects = [])
    (hwrite : ∀ name write, t.outputs.get? name = some write → write [] = [])
    (hresult : isKey t.config.evaluationFunction → Holds t.result) (globals : Scope) :
    Holds (t.evaluateInMemory globals).1 := by
  rw [Template.evaluateInMemory]
  split
  next hkey =>
    have hscope (name : Text) : (globals.restrict t.injects).get? name = none := by
      rw [Scope.get?_restrict, hinjects]
      rfl
    rcases Spliced.run h.empty hscope hwrite t.result t.warnings with hnil | hspliced
    · rw [Template.run, hnil]
      exact h.nil
    · exact h.spliced (hresult hkey) hspliced
  next => exact h.nil

variable {σ : Type} [MonadFiles (StateM σ)] {view : FileView σ}

/-- What holds of the loaded content, and is kept by the passes, holds of the output. -/
theorem compiled (h : Kept Holds Fits) (files : LawfulFiles σ view) {t : Template}
    (hloops : t.loops = .empty) (hinjects : t.injects = [])
    (hwrite : ∀ name write, t.outputs.get? name = some write → write [] = [])
    (hstatics : ∀ e ∈ t.statics.entries, Fits (sanitize e.2)) (globals : Scope) (fresh : Text)
    {s : σ} (hcontent : Holds (runOn s (t.load : StateM σ Template)).1.content) :
    Holds (runOn s (t.compile globals fresh : StateM σ Template)).1.compiled := by
  have hruled : Holds (t.ruledText s) := by
    obtain ⟨_, _, _, hload⟩ := t.exists_load_eq s
    apply h.applyRules
    · rw [hload]
      exact hloops
    · exact hcontent
    · rw [hload]
      exact hstatics
  have hresult (hkey : isKey t.config.evaluationFunction) : Holds (t.staged s).result := by
    rw [Template.result_staged]
    exact h.stage (h.sweepBlocks hruled) hkey
  have houtput : Holds ((t.staged s).evaluateInMemory globals).1 := by
    apply h.evaluateInMemory
    · rwa [Template.injects_staged]
    · rwa [Template.outputs_staged]
    · rwa [Template.config_staged]
  rw [Template.runOn_compile]
  apply h.stripPlaceholders
  rcases Template.evaluate_cases files (t.staged s) globals fresh
      (runOn s (t.load : StateM σ Template)).2 with hmemory | ⟨path, hstale⟩
  · rw [hmemory]
    exact houtput
  · rw [hstale]
    exact h.nil

end Kept

end Stencil
