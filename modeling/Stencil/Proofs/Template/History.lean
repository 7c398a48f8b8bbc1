import Stencil.Proofs.Template.Injects
import Stencil.Proofs.Template.Operations
import Stencil.Proofs.Template.Scratch

/-!
Compilations and what was done to a template before.  A compilation sees the content, the rules, the
settings and the functions; what an earlier one left, it overwrites.  Templates that agree on what
is seen compile alike, and a template that is compiled again and again without new rules compiles
like a new one.
-/

namespace Stencil

namespace Bindings

variable {α : Type}

theorem get?_foldl_insert (pairs : List (Text × α)) (hnodup : (pairs.map Prod.fst).Nodup)
    (b : Bindings α) (name : Text) :
    (pairs.foldl (fun b pair => b.insert pair.1 pair.2) b).get? name =
      (pairs.lookup name).or (b.get? name) := by
  induction pairs generalizing b with
  | nil => rfl
  | cons pair pairs ih =>
      obtain ⟨n, a⟩ := pair
      obtain ⟨hfresh, hnodup⟩ := List.nodup_cons.mp hnodup
      rw [List.foldl_cons, ih hnodup, get?_insert, List.lookup_cons]
      by_cases hname : name = n
      · subst hname
        have hlookup : pairs.lookup name = none := by
          rw [List.lookup_eq_none_iff]
          intro p hp
          have hne : name ≠ p.1 := by
            rintro rfl
            exact hfresh (List.mem_map.mpr ⟨p, hp, rfl⟩)
          simpa using hne
        simp [hlookup]
      · simp [hname, beq_eq_false_iff_ne.mpr hname]

end Bindings

/-- Two fresh names that make no difference to a cache: they give the same file, or nothing that
cannot be removed stands at either path. -/
def ScratchCache.Alike {σ : Type} [MonadFiles (StateM σ)] (cache : ScratchCache)
    (fresh fresh' : Text) (s : σ) : Prop :=
  cache.nextName fresh = cache.nextName fresh' ∨
    ¬ Blocked s (cache.primary fresh) ∧ ¬ Blocked s (cache.primary fresh')

theorem ScratchCache.alike_of_unoccupied {σ : Type} [MonadFiles (StateM σ)] {cache : ScratchCache}
    {fresh fresh' : Text} {s : σ}
    (h : (runOn s (MonadFiles.occupied (cache.primary fresh) : StateM σ Bool)).1 = false)
    (h' : (runOn s (MonadFiles.occupied (cache.primary fresh') : StateM σ Bool)).1 = false) :
    cache.Alike fresh fresh' s := by
  refine Or.inr ⟨fun hblocked => ?_, fun hblocked => ?_⟩
  · exact Bool.false_ne_true (h.symm.trans hblocked.1)
  · exact Bool.false_ne_true (h'.symm.trans hblocked.1)

namespace Template

/-- Templates that a compilation cannot tell apart.  The name and the path of the file count only
where there is no content, and the scratch cache only where it is used. -/
structure Agrees (t t' : Template) : Prop where
  content : t.content = t'.content
  source : t.content = [] → t.name = t'.name ∧ t.filePath = t'.filePath
  statics : t.statics = t'.statics
  conditions : t.conditions = t'.conditions
  loops : t.loops = t'.loops
  injects : ∀ name, name ∈ t.injects ↔ name ∈ t'.injects
  config : t.config = t'.config
  outputs : ∀ name, t.outputs.get? name = t'.outputs.get? name
  scratch : t.config.cacheMode = .scratch → t.scratch = t'.scratch

variable {σ : Type} [MonadFiles (StateM σ)] {view : FileView σ} {t t' : Template}

/-- What the two templates are staged to, up to what the evaluation does not write. -/
structure StagedAlike (t t' : Template) : Prop where
  content : t.content = t'.content
  result : t.result = t'.result
  warnings : t.warnings = t'.warnings

theorem stagedAlike_stageResult (hcontent : t.content = t'.content)
    (hwarnings : t.warnings = t'.warnings) (hstatics : t.statics = t'.statics)
    (hconditions : t.conditions = t'.conditions) (hloops : t.loops = t'.loops)
    (hconfig : t.config = t'.config) : t.stageResult.StagedAlike t'.stageResult := by
  have hresolved : t.resolved = t'.resolved := by
    rw [resolved, resolved, hcontent, hwarnings, hconditions, hloops]
  have hruled : t.applyRules.1 = t'.applyRules.1 := by
    rw [fst_applyRules, fst_applyRules, hresolved, hstatics]
  refine ⟨hcontent, ?_, ?_⟩
  · rw [result_stageResult, result_stageResult, hruled, hconfig]
  · rw [warnings_stageResult, warnings_stageResult, warnings_applyRules, warnings_applyRules,
      hresolved, hruled]

namespace Agrees

theorem path (h : t.Agrees t') (hcontent : t.content = []) : t.path = t'.path := by
  obtain ⟨hname, hfilePath⟩ := h.source hcontent
  rw [Template.path, Template.path, hname, hfilePath, h.config]

theorem stagedAlike (h : t.Agrees t') {s s' : σ} (hfiles : t.content = [] → s = s') :
    (t.staged s).StagedAlike (t'.staged s') := by
  by_cases hcontent : t.content = []
  · have hcontent' : t'.content = [] := h.content.symm.trans hcontent
    obtain rfl := hfiles hcontent
    rw [staged, staged, runOn_load_of_empty hcontent, runOn_load_of_empty hcontent',
      ← h.path hcontent]
    refine stagedAlike_stageResult ?_ ?_ h.statics h.conditions h.loops h.config
    · simp only [loadedWith, h.content]
    · simp only [loadedWith, h.path hcontent]
  · have hcontent' : t'.content ≠ [] := h.content ▸ hcontent
    rw [staged, staged, runOn_load_of_content hcontent, runOn_load_of_content hcontent']
    exact stagedAlike_stageResult h.content rfl h.statics h.conditions h.loops h.config

theorem evaluateInMemory (h : t.Agrees t') {s s' : σ} (hfiles : t.content = [] → s = s')
    (globals : Scope) :
    (t.staged s).evaluateInMemory globals = (t'.staged s').evaluateInMemory globals := by
  have halike := h.stagedAlike hfiles
  have hrun (staged : Text) :
      (t.staged s).run globals staged = (t'.staged s').run globals staged := by
    rw [Template.run, Template.run, halike.warnings]
    apply Program.run_congr
    · rw [outputs_staged, outputs_staged]
      exact h.outputs
    · rw [injects_staged, injects_staged]
      exact sameInjected_of_mem_iff h.injects globals
  simp only [Template.evaluateInMemory, config_staged, h.config, hrun, halike.result,
    halike.warnings]

theorem cacheOn (h : t.Agrees t') (hmode : t.config.cacheMode = .scratch) (s : σ) :
    t.cacheOn s = t'.cacheOn s := by
  rw [Template.cacheOn, Template.cacheOn, h.scratch hmode, h.config]

theorem stale_iff (h : t.Agrees t') {s : σ} {fresh fresh' : Text}
    (hfresh : t.config.cacheMode = .scratch → (t.cacheOn s).Alike fresh fresh' s) :
    (t.Stale fresh s ↔ t'.Stale fresh' s) ∧
      (t.Stale fresh s → (t.cacheOn s).primary fresh = (t'.cacheOn s).primary fresh') := by
  by_cases hmode : t.config.cacheMode = .scratch
  · rcases hfresh hmode with hname | ⟨hfree, hfree'⟩
    · have hprimary : (t.cacheOn s).primary fresh = (t'.cacheOn s).primary fresh' := by
        rw [← h.cacheOn hmode, ScratchCache.primary, ScratchCache.primary, hname]
      refine ⟨?_, fun _ => hprimary⟩
      rw [Stale, Stale, hprimary, h.config]
    · have hnot : ¬ t.Stale fresh s := fun hstale => hfree hstale.2.2
      have hnot' : ¬ t'.Stale fresh' s := by
        intro hstale
        apply hfree'
        rw [h.cacheOn hmode]
        exact hstale.2.2
      exact ⟨iff_of_false hnot hnot', fun hstale => absurd hstale hnot⟩
  · have hnot : ¬ t.Stale fresh s := fun hstale => hmode hstale.1
    have hnot' : ¬ t'.Stale fresh' s := fun hstale => hmode (h.config ▸ hstale.1)
    exact ⟨iff_of_false hnot hnot', fun hstale => absurd hstale hnot⟩

end Agrees

theorem stale_staged (t : Template) (fresh : Text) (s s' : σ) :
    ((t.staged s').Stale fresh s ↔ t.Stale fresh s) ∧ (t.staged s').cacheOn s = t.cacheOn s := by
  have hcache : (t.staged s').cacheOn s = t.cacheOn s := by
    rw [Template.cacheOn, Template.cacheOn, scratch_staged, config_staged]
  refine ⟨?_, hcache⟩
  rw [Stale, Stale, hcache, config_staged]

theorem fst_compile (files : LawfulFiles σ view) (t : Template) (globals : Scope) (fresh : Text)
    (s : σ) :
    (t.Stale fresh s → (runOn s (t.compile globals fresh : StateM σ Template)).1 =
      (t.staged s).finish
        ([], (t.staged s).warnings.record (.staleScratchFile ((t.cacheOn s).primary fresh)))) ∧
    (¬ t.Stale fresh s → (runOn s (t.compile globals fresh : StateM σ Template)).1 =
      (t.staged s).finish ((t.staged s).evaluateInMemory globals)) := by
  obtain ⟨hstale, hcache⟩ := t.stale_staged fresh s s
  rw [runOn_compile, runOn_load_state files]
  refine ⟨fun h => ?_, fun h => ?_⟩
  · dsimp only
    rw [fst_evaluate_of_stale files (hstale.mpr h), hcache]
  · dsimp only
    rw [fst_evaluate_of_not_stale files (fun h' => h (hstale.mp h'))]

theorem StagedAlike.finish (h : t.StagedAlike t') (output : Text × Warnings) :
    (t.finish output).SameOutcome (t'.finish output) :=
  ⟨h.content, h.result, rfl, rfl⟩

theorem SameOutcome.strictly (h : t.SameOutcome t') : t.strictly = t'.strictly := by
  rw [Template.strictly, Template.strictly, h.warnings_eq, h.compiled_eq]

/-- Templates that agree compile alike.  The files have to be the same only where content is loaded
or a scratch file is written. -/
theorem Agrees.compile (files : LawfulFiles σ view) (h : t.Agrees t') (globals : Scope)
    (fresh fresh' : Text) (s s' : σ) (hload : t.content = [] → s = s')
    (hmode : t.config.cacheMode = .scratch → s = s')
    (hfresh : t.config.cacheMode = .scratch → (t.cacheOn s).Alike fresh fresh' s) :
    (runOn s (t.compile globals fresh : StateM σ Template)).1.SameOutcome
      (runOn s' (t'.compile globals fresh' : StateM σ Template)).1 := by
  have halike := h.stagedAlike hload
  obtain ⟨hstale, hprimary⟩ := h.stale_iff hfresh
  obtain ⟨hstopped, hran⟩ := fst_compile files t globals fresh s
  obtain ⟨hstopped', hran'⟩ := fst_compile files t' globals fresh' s'
  by_cases hcase : t.Stale fresh s
  · obtain rfl := hmode hcase.1
    rw [hstopped hcase, hstopped' (hstale.mp hcase), hprimary hcase, halike.warnings]
    exact halike.finish _
  · have hcase' : ¬ t'.Stale fresh' s' := by
      intro hcase'
      obtain rfl := hmode (h.config ▸ hcase'.1)
      exact hcase (hstale.mpr hcase')
    rw [hran hcase, hran' hcase', h.evaluateInMemory hload]
    exact halike.finish _

/-- Whether an operation compiles, strictly or not. -/
def Operation.isCompilation : Operation σ → Bool
  | .compile _ _ _ | .compileStrict _ _ _ => true
  | _ => false

theorem Compiled.trans {t'' : Template} (h : t.Compiled t') (h' : t'.Compiled t'') :
    t.Compiled t'' where
  statics := h'.statics
  conditions := h'.conditions
  loops := h'.loops
  phase := h'.phase
  name := h'.name.trans h.name
  injects := h'.injects.trans h.injects
  config := h'.config.trans h.config
  outputs := h'.outputs.trans h.outputs
  scratch := h'.scratch.trans h.scratch
  content hcontent := by
    have hcontent' := h.content hcontent
    rw [h'.content (hcontent'.symm ▸ hcontent), hcontent']

theorem compiled_apply {round : Operation σ} (h : round.isCompilation = true) (t : Template) :
    t.Compiled (round.apply t) := by
  cases round with
  | compile globals fresh s => exact compiled_apply_compile globals fresh s t
  | compileStrict globals fresh s => exact compiled_apply_compile globals fresh s t
  | _ => exact absurd h (by simp [Operation.isCompilation])

theorem compiled_after {rounds : List (Operation σ)} (hne : rounds ≠ [])
    (h : ∀ round ∈ rounds, round.isCompilation = true) (t : Template) :
    t.Compiled (after rounds t) := by
  induction rounds generalizing t with
  | nil => exact absurd rfl hne
  | cons round rounds ih =>
      obtain ⟨hround, hrounds⟩ := List.forall_mem_cons.mp h
      have hfirst := compiled_apply hround t
      by_cases hlast : rounds = []
      · subst hlast
        exact hfirst
      · exact hfirst.trans (ih hlast hrounds _)

/-- Every built-in function has its name registered, though perhaps for another function. -/
def NamesBuiltins (t : Template) : Prop :=
  ∀ name, t.outputs.get? name = none → builtins.get? name = none

theorem namesBuiltins_apply (operation : Operation σ) (h : t.NamesBuiltins) :
    (operation.apply t).NamesBuiltins := by
  intro name hnone
  apply h name
  cases operation with
  | register n function =>
      have hinsert : (t.outputs.insert n function).get? name = none := hnone
      rw [Bindings.get?_insert] at hinsert
      split at hinsert
      next => exact absurd hinsert (by simp)
      next => exact hinsert
  | compile globals fresh s =>
      rw [← (compiled_apply_compile globals fresh s t).outputs]
      exact hnone
  | compileStrict globals fresh s =>
      rw [← (compiled_apply_compile globals fresh s t).outputs]
      exact hnone
  | _ => exact hnone

theorem namesBuiltins_after (config? : Option Config) (operations : List (Operation σ)) :
    (after operations (new config?)).NamesBuiltins := by
  refine after_induction ?_ (fun operation t => namesBuiltins_apply operation) config? operations
  intro config? name hnone
  cases config? with
  | none => exact hnone
  | some config => exact hnone

variable (σ) in
/-- The operations that give to a new template what was given to this one for good. -/
def renewals (t : Template) : List (Operation σ) :=
  t.outputs.entries.map (fun entry => .register entry.1 entry.2) ++
    [.setContent t.content, .setInjects t.injects]

theorem after_register (entries : List (Text × OutputFunction)) (t : Template) :
    after (entries.map fun entry => (.register entry.1 entry.2 : Operation σ)) t =
      { t with outputs := entries.foldl (fun b pair => b.insert pair.1 pair.2) t.outputs } := by
  induction entries generalizing t with
  | nil => rfl
  | cons entry entries ih => exact ih (t.register entry.1 entry.2)

variable (σ) in
/-- A new template with the content, the injected names, the settings and the functions of a
template, and without rules. -/
def renewed (t : Template) : Template :=
  after (t.renewals σ) (new (some t.config))

theorem renewed_eq (t : Template) :
    t.renewed σ =
      ((({ withConfig t.config with
        outputs := t.outputs.entries.foldl (fun b pair => b.insert pair.1 pair.2) builtins } :
          Template).setContent t.content).setInjects t.injects) := by
  rw [renewed, renewals, after_append, after_register]
  rfl

theorem agrees_renewed (config? : Option Config)
    (operations : List (Operation σ)) {t : Template} (ht : after operations (new config?) = t)
    (hcontent : t.content ≠ []) (hmode : t.config.cacheMode = .direct)
    (hcompiled : t.Compiled t') : t'.Agrees (t.renewed σ) := by
  obtain ⟨hsound, -, -⟩ := sound_after_operations config? operations
  rw [ht] at hsound
  rw [renewed_eq]
  refine ⟨?_, ?_, hcompiled.statics, hcompiled.conditions, hcompiled.loops, ?_, ?_, ?_, ?_⟩
  · rw [hcompiled.content hcontent]
    exact hsound.sanitized.symm
  · intro hempty
    rw [hcompiled.content hcontent] at hempty
    exact absurd hempty hcontent
  · intro name
    rw [hcompiled.injects]
    exact List.mem_eraseDups.symm
  · rw [hcompiled.config]
    exact (Config.normalize_of_isNormal hsound.config_normal).symm
  · intro name
    rw [hcompiled.outputs]
    change _ = (t.outputs.entries.foldl (fun b pair => b.insert pair.1 pair.2) builtins).get? name
    rw [Bindings.get?_foldl_insert _ t.outputs.nodup]
    cases hget : t.outputs.get? name with
    | some function =>
        have hlookup : t.outputs.entries.lookup name = some function := hget
        rw [hlookup]
        rfl
    | none =>
        have hlookup : t.outputs.entries.lookup name = none := hget
        rw [hlookup]
        subst ht
        exact (namesBuiltins_after config? operations name hget).symm
  · intro hscratch
    rw [hcompiled.config, hmode] at hscratch
    exact absurd hscratch (by decide)

/-- What a compilation makes of a template does not depend on what was done to it before: templates
that agree compile alike.  Hence a template with content that is evaluated in memory, and was
compiled once or more, compiles from then on like a new one with that content, those names to
inject, settings and functions, and without rules. -/
theorem compile_independent_of_history (files : LawfulFiles σ view) :
    (∀ (t t' : Template) (globals : Scope) (fresh fresh' : Text) (s : σ), t.Agrees t' →
      (t.config.cacheMode = .scratch → (t.cacheOn s).Alike fresh fresh' s) →
      let compiled := (runOn s (t.compile globals fresh : StateM σ Template)).1
      let compiled' := (runOn s (t'.compile globals fresh' : StateM σ Template)).1
      compiled.SameOutcome compiled' ∧ compiled.phase = compiled'.phase ∧
        (runOn s (t.compileStrict globals fresh : StateM σ _)).1.1 =
          (runOn s (t'.compileStrict globals fresh' : StateM σ _)).1.1) ∧
    ∀ (config? : Option Config) (operations rounds : List (Operation σ)),
      let t := after operations (new config?)
      t.content ≠ [] → t.config.cacheMode = .direct →
      rounds ≠ [] → (∀ round ∈ rounds, round.isCompilation = true) →
      ∀ (globals : Scope) (fresh fresh' : Text) (s s' : σ),
        let again := (runOn s ((after rounds t).compile globals fresh : StateM σ Template)).1
        let first := (runOn s' ((t.renewed σ).compile globals fresh' : StateM σ Template)).1
        again.SameOutcome first ∧ again.phase = first.phase ∧
          (runOn s ((after rounds t).compileStrict globals fresh : StateM σ _)).1.1 =
            (runOn s' ((t.renewed σ).compileStrict globals fresh' : StateM σ _)).1.1 := by
  constructor
  · intro t t' globals fresh fresh' s hagrees hfresh
    have hsame := hagrees.compile files globals fresh fresh' s s (fun _ => rfl) (fun _ => rfl)
      hfresh
    refine ⟨hsame, ?_, hsame.strictly⟩
    rw [phase_compile, phase_compile]
  · intro config? operations rounds t hcontent hmode hne hrounds globals fresh fresh' s s'
    have hcompiled := compiled_after hne hrounds t
    have hagrees := agrees_renewed config? operations rfl hcontent hmode hcompiled
    have hnotEmpty : (after rounds t).content ≠ [] := by
      rw [hcompiled.content hcontent]
      exact hcontent
    have hnotScratch : (after rounds t).config.cacheMode ≠ .scratch := by
      rw [hcompiled.config, hmode]
      decide
    have hsame := hagrees.compile files globals fresh fresh' s s' (fun h => absurd h hnotEmpty)
      (fun h => absurd h hnotScratch) (fun h => absurd h hnotScratch)
    refine ⟨hsame, ?_, hsame.strictly⟩
    rw [phase_compile, phase_compile]

/-- A template that was compiled with a rule is compiled again by way of a scratch file like one
that never was, and in memory like a new one. -/
theorem compile_after_rule_is_used_up :
    let files : FileSystem := { temporary := ['t'] }
    let settings : Config := { cacheMode := .scratch }
    let given : List (Operation FileSystem) := [.setContent "a\x7b\x7bx\x7d\x7d".toList]
    let rounds : List (Operation FileSystem) := [.compile .empty [] files]
    let ruled := after (given ++ [.setStatic ['x'] ['b']]) (new none)
    let recompiled := (after rounds ruled).setConfig settings
    let untouched := (after given (new none)).setConfig settings
    let outcome (t : Template) (fresh : Text) : Template :=
      (runOn files (t.compile .empty fresh : StateM FileSystem Template)).1
    (after rounds ruled).compiled = "ab".toList ∧
      (outcome recompiled ['1']).SameOutcome (outcome untouched ['2']) ∧
      (outcome recompiled ['1']).compiled = ['a'] ∧
      (outcome (after rounds ruled) []).SameOutcome
        (outcome (ruled.renewed FileSystem) []) := by
  intro files settings given rounds ruled recompiled untouched outcome
  obtain ⟨halike, hagain⟩ := compile_independent_of_history FileSystem.lawfulFiles
  have hcontent : ruled.content ≠ [] := by decide +kernel
  have hrounds : ∀ round ∈ rounds, round.isCompilation = true := by
    intro round hround
    rw [List.mem_singleton.mp hround]
    rfl
  have hcompiled := compiled_after (List.cons_ne_nil _ _) hrounds ruled
  have hagrees : recompiled.Agrees untouched := by
    refine ⟨hcompiled.content hcontent, ?_, hcompiled.statics, hcompiled.conditions,
      hcompiled.loops, ?_, rfl, ?_, fun _ => hcompiled.scratch⟩
    · intro hempty
      exact absurd ((hcompiled.content hcontent).symm.trans hempty) hcontent
    · intro name
      exact iff_of_eq (congrArg (name ∈ ·) hcompiled.injects)
    · intro name
      exact congrArg (Bindings.get? · name) hcompiled.outputs
  have hfresh : (recompiled.cacheOn files).Alike ['1'] ['2'] files :=
    ScratchCache.alike_of_unoccupied (by decide +kernel) (by decide +kernel)
  refine ⟨?_, ?_, ?_, ?_⟩
  · decide +kernel
  · exact (halike _ _ .empty ['1'] ['2'] files hagrees fun _ => hfresh).1
  · decide +kernel
  · have hdirect : ruled.config.cacheMode = .direct := by decide +kernel
    exact (hagain none _ rounds hcontent hdirect (List.cons_ne_nil _ _) hrounds .empty [] []
      files files).1

end Template

end Stencil
