import Mathlib.Tactic.Tauto
import Stencil.Proofs.Program.Scope
import Stencil.Proofs.Template.Compile

namespace Stencil.Template

/-- The template with other names of injected variables. -/
def withInjects (t : Template) (names : List Text) : Template :=
  { t with injects := names }

variable {names names' : List Text} {globals globals' : Scope}

/-- Both restricted scopes have the same value under every name. -/
def SameInjected (names names' : List Text) (globals globals' : Scope) : Prop :=
  ∀ name, (globals.restrict names).get? name = (globals'.restrict names').get? name

theorem sameInjected_of_agree (h : ∀ name ∈ names, globals.get? name = globals'.get? name) :
    SameInjected names names globals globals' := by
  intro name
  rw [Scope.get?_restrict, Scope.get?_restrict]
  split
  next hname => exact h name hname
  next => rfl

theorem sameInjected_of_mem_iff (h : ∀ name, name ∈ names ↔ name ∈ names') (globals : Scope) :
    SameInjected names names' globals globals := by
  intro name
  rw [Scope.get?_restrict, Scope.get?_restrict]
  simp only [h]

theorem run_withInjects (h : SameInjected names names' globals globals') (t : Template)
    (staged : Text) :
    (t.withInjects names).run globals staged = (t.withInjects names').run globals' staged :=
  Program.run_congr (fun _ => rfl) h (Program.parse staged) t.warnings

variable {σ : Type} [MonadFiles (StateM σ)]

theorem evaluate_withInjects (h : SameInjected names names' globals globals') (t : Template)
    (fresh : Text) :
    ((t.withInjects names).evaluate globals fresh : StateM σ (Text × Warnings)) =
      (t.withInjects names').evaluate globals' fresh := by
  have hrun := run_withInjects h t
  have hscratch : ((t.withInjects names).throughScratch fresh : StateM σ (Except Text Text)) =
      (t.withInjects names').throughScratch fresh := rfl
  simp only [evaluate, hrun, hscratch]
  rfl

theorem runOn_load_withInjects (t : Template) (names : List Text) (s : σ) :
    runOn s ((t.withInjects names).load : StateM σ Template) =
      ((runOn s (t.load : StateM σ Template)).1.withInjects names,
        (runOn s (t.load : StateM σ Template)).2) := by
  by_cases hc : t.content = []
  · have hc' : (t.withInjects names).content = [] := hc
    rw [runOn_load_of_empty hc, runOn_load_of_empty hc']
    rfl
  · have hc' : (t.withInjects names).content ≠ [] := hc
    rw [runOn_load_of_content hc, runOn_load_of_content hc']
    rfl

theorem staged_withInjects (t : Template) (names : List Text) (s : σ) :
    (t.withInjects names).staged s = (t.staged s).withInjects names := by
  rw [staged, runOn_load_withInjects]
  rfl

theorem runOn_compile_withInjects (h : SameInjected names names' globals globals') (t : Template)
    (fresh : Text) (s : σ) :
    runOn s ((t.withInjects names').compile globals' fresh : StateM σ Template) =
      ((runOn s ((t.withInjects names).compile globals fresh : StateM σ Template)).1.withInjects
          names',
        (runOn s ((t.withInjects names).compile globals fresh : StateM σ Template)).2) := by
  simp only [runOn_compile, staged_withInjects, runOn_load_withInjects,
    evaluate_withInjects h]
  rfl

theorem result_compile (t : Template) (globals : Scope) (fresh : Text) (s : σ) :
    (runOn s (t.compile globals fresh : StateM σ Template)).1.result = (t.staged s).result := by
  rw [runOn_compile]
  rfl

theorem phase_compile (t : Template) (globals : Scope) (fresh : Text) (s : σ) :
    (runOn s (t.compile globals fresh : StateM σ Template)).1.phase = .evaluated := by
  rw [runOn_compile]
  rfl

/-- The global variables that a template does not inject have no influence on its compilation, and
none has any on the staged result and the phase.  Names to inject that are given in another order or
several times change nothing but the list of names itself. -/
theorem compile_sees_injected_globals_only (t : Template) (globals globals' : Scope)
    (fresh : Text) (s : σ) :
    let outcome (t : Template) (globals : Scope) : Template × σ :=
      runOn s (t.compile globals fresh : StateM σ Template)
    ((∀ name ∈ t.injects, globals.get? name = globals'.get? name) →
        outcome t globals = outcome t globals') ∧
      ((outcome t globals).1.result = (outcome t globals').1.result ∧
        (outcome t globals).1.phase = (outcome t globals').1.phase) ∧
      ∀ names names' : List Text, (∀ name, name ∈ names ↔ name ∈ names') →
        outcome (t.setInjects names') globals =
          ((outcome (t.setInjects names) globals).1.setInjects names',
            (outcome (t.setInjects names) globals).2) := by
  intro outcome
  refine ⟨?_, ?_, ?_⟩
  · intro hagree
    have hown : outcome t globals =
        ((outcome t globals).1.withInjects t.injects, (outcome t globals).2) :=
      runOn_compile_withInjects (sameInjected_of_agree fun _ _ => rfl) t fresh s
    have hother : outcome t globals' =
        ((outcome t globals).1.withInjects t.injects, (outcome t globals).2) :=
      runOn_compile_withInjects (sameInjected_of_agree hagree) t fresh s
    rw [hown, hother]
  · simp only [outcome, result_compile, phase_compile, and_self]
  · intro names names' hnames
    have hmem (name : Text) : name ∈ names.eraseDups ↔ name ∈ names'.eraseDups := by
      rw [List.mem_eraseDups, List.mem_eraseDups, hnames]
    exact runOn_compile_withInjects (sameInjected_of_mem_iff hmem globals) t fresh s

/-- A variable that is not injected is out of reach of a call that the text itself brings along, and
names that are given twice and in another order count like the same names given once. -/
theorem compile_with_call_on_variable_not_injected :
    let t : Template :=
      { content := "\x7b\x7b$a\x7d\x7d\x7b\x7becho($b['\n'])\x7d\x7d".toList
        injects := [['a']] }
    let globals : Scope :=
      .ofList [(['a'], .string ['x']), (['b'], .map [(['\n'], .string ['y'])])]
    let globals' : Scope := .ofList [(['a'], .string ['x'])]
    let outcome (t : Template) (globals : Scope) : Template × FileSystem :=
      runOn { temporary := [] } (t.compile globals [] : StateM FileSystem Template)
    (∀ name ∈ t.injects, globals.get? name = globals'.get? name) ∧
      outcome t globals = outcome t globals' ∧
      (outcome t globals).1.compiled = ['x'] ∧
      (outcome t globals).1.warnings = [.unboundVariable ['b']] ∧
      (∀ name : Text, name ∈ [['a'], ['b']] ↔ name ∈ [['b'], ['a'], ['b']]) ∧
      (outcome (t.setInjects [['b'], ['a'], ['b']]) globals).1.compiled =
        (outcome (t.setInjects [['a'], ['b']]) globals).1.compiled ∧
      (outcome (t.setInjects [['a'], ['b']]) globals).1.compiled = ['x', 'y'] := by
  intro t globals globals' outcome
  have hagree : ∀ name ∈ t.injects, globals.get? name = globals'.get? name := by
    intro name hname
    rw [List.mem_singleton.mp hname]
    rfl
  have hnames : ∀ name : Text, name ∈ [['a'], ['b']] ↔ name ∈ [['b'], ['a'], ['b']] := by
    intro name
    simp only [List.mem_cons, List.not_mem_nil, or_false]
    tauto
  have hsees := compile_sees_injected_globals_only t globals globals' []
    ({ temporary := [] } : FileSystem)
  refine ⟨hagree, hsees.1 hagree, ?_, ?_, hnames, ?_, ?_⟩
  · decide +kernel
  · decide +kernel
  · exact congrArg (fun c => c.1.compiled) (hsees.2.2 _ _ hnames)
  · decide +kernel

end Stencil.Template
