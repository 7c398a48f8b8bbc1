import Stencil.Proofs.Template.History
import Stencil.Proofs.Text.Trim

namespace Stencil.Template

/-- The path of the template file by the present name and settings. -/
def derivedPath (t : Template) : Text :=
  t.config.templatePath t.name

variable {σ : Type} [MonadFiles (StateM σ)]

/-- The path that the first compilation without content derives in a run of operations. -/
def firstLoad? : List (Operation σ) → Template → Option Text
  | [], _ => none
  | operation :: operations, t =>
      if operation.isCompilation ∧ t.content = [] then
        some t.derivedPath
      else
        firstLoad? operations (operation.apply t)

/-- What a compilation without content leaves when it reads the file at a path: the text of the file
as its content or, where there is none but blanks, a warning about this path. -/
structure LoadsFrom (path : Text) (s : σ) (t t' : Template) : Prop where
  filePath : t'.filePath = some path
  /-- loading leaves the files as the access to this one does -/
  files : (runOn s (t.load : StateM σ Template)).2 =
    (runOn s (MonadFiles.readText? path : StateM σ _)).2
  found : ∀ text, (runOn s (MonadFiles.readText? path : StateM σ _)).1 = some text →
    (∃ c ∈ text, Text.isBlank c = false) →
      t'.content = sanitize (Text.trim text) ∧ ∀ p, .missingTemplateFile p ∉ t'.warnings
  missing : (∀ text, (runOn s (MonadFiles.readText? path : StateM σ _)).1 = some text →
    ∀ c ∈ text, Text.isBlank c) →
      t'.content = [] ∧ ∀ p, .missingTemplateFile p ∈ t'.warnings ↔ p = path

theorem filePath_compile (t : Template) (globals : Scope) (fresh : Text) (s : σ) :
    (runOn s (t.compile globals fresh : StateM σ Template)).1.filePath =
      if t.content = [] then some t.path else t.filePath := by
  rw [runOn_compile]
  change (runOn s (t.load : StateM σ Template)).1.filePath = _
  split
  next hcontent =>
    rw [runOn_load_of_empty hcontent]
    rfl
  next hcontent => rw [runOn_load_of_content hcontent]

theorem filePath_apply {operation : Operation σ}
    (hgiven : ∀ path, .setFilePath path ≠ operation) (t : Template) :
    (operation.apply t).filePath =
      if operation.isCompilation ∧ t.content = [] then some t.path else t.filePath := by
  cases operation with
  | setFilePath path => exact absurd rfl (hgiven path)
  | compile globals fresh s =>
      simp only [Operation.isCompilation, true_and]
      exact t.filePath_compile globals fresh s
  | compileStrict globals fresh s =>
      simp only [Operation.isCompilation, true_and]
      exact t.filePath_compile globals fresh s
  | _ => rfl

theorem filePath_after {operations : List (Operation σ)}
    (hgiven : ∀ path, .setFilePath path ∉ operations) (t : Template) :
    (after operations t).filePath = t.filePath.or (firstLoad? operations t) := by
  induction operations generalizing t with
  | nil => exact (Option.or_none).symm
  | cons operation operations ih =>
      have hnot : ∀ path, .setFilePath path ≠ operation :=
        fun path heq => hgiven path (heq ▸ List.mem_cons_self)
      have hstep := filePath_apply hnot t
      have hrest := ih (fun path hmem => hgiven path (List.mem_cons_of_mem _ hmem))
        (operation.apply t)
      rw [after_cons, hrest, hstep, firstLoad?]
      split
      next =>
        rw [path, derivedPath]
        cases t.filePath with
        | none => rfl
        | some path => rfl
      next => rfl

theorem path_after {operations : List (Operation σ)}
    (hgiven : ∀ path, .setFilePath path ∉ operations) (config? : Option Config) :
    (after operations (new config?)).path =
      (firstLoad? operations (new config?)).getD (after operations (new config?)).derivedPath := by
  rw [path, filePath_after hgiven, filePath_new, Option.none_or]
  rfl

theorem missing_mem_compile_iff {t : Template} (h : t.content = []) (globals : Scope) (fresh : Text)
    (s : σ) (path : Text) :
    .missingTemplateFile path ∈ (runOn s (t.compile globals fresh : StateM σ Template)).1.warnings ↔
      (runOn s (readContent? t.path : StateM σ (Option Text))).1 = none ∧ path = t.path := by
  rw [mem_warnings_compile_iff rfl, runOn_load_of_empty h]
  cases (runOn s (readContent? t.path : StateM σ (Option Text))).1 with
  | none => simp [loadedWith]
  | some text => simp [loadedWith]

theorem content_compile_of_empty {t : Template} (h : t.content = []) (globals : Scope)
    (fresh : Text) (s : σ) :
    (runOn s (t.compile globals fresh : StateM σ Template)).1.content =
      ((runOn s (readContent? t.path : StateM σ (Option Text))).1.map sanitize).getD [] := by
  rw [content_compile, runOn_load_of_empty h]
  cases (runOn s (readContent? t.path : StateM σ (Option Text))).1 with
  | none => exact h
  | some text => rfl

theorem loadsFrom_compile {t : Template} (h : t.content = []) (globals : Scope) (fresh : Text)
    (s : σ) : LoadsFrom t.path s t (runOn s (t.compile globals fresh : StateM σ Template)).1 := by
  have hfilePath := t.filePath_compile globals fresh s
  have hmissing := missing_mem_compile_iff h globals fresh s
  have hcontent := content_compile_of_empty h globals fresh s
  rw [if_pos h] at hfilePath
  rw [runOn_readContent?] at hcontent hmissing
  refine ⟨hfilePath, ?_, ?_, ?_⟩
  · rw [runOn_load_of_empty h, runOn_readContent?]
  · rintro text hread ⟨c, hc, hvisible⟩
    have htrim : Text.trim text ≠ [] := by
      intro hnil
      exact absurd (hvisible.symm.trans (Text.trim_eq_nil_iff.mp hnil c hc)) (by decide)
    have hcontent? : ((some text).map Text.trim).filter (· ≠ []) = some (Text.trim text) := by
      simp [htrim]
    rw [hread, hcontent?] at hcontent hmissing
    refine ⟨hcontent, fun p hmem => ?_⟩
    simpa using (hmissing p).mp hmem
  · intro hblank
    have hnone : ((runOn s (MonadFiles.readText? t.path : StateM σ _)).1.map Text.trim).filter
        (· ≠ []) = none := by
      cases hread : (runOn s (MonadFiles.readText? t.path : StateM σ _)).1 with
      | none => rfl
      | some text => simp [Text.trim_eq_nil_iff.mpr (hblank text hread)]
    rw [hnone] at hcontent hmissing
    exact ⟨hcontent, fun p => (hmissing p).trans (and_iff_right rfl)⟩

/-- A compilation without content reads the file at the path that was derived first in the run,
if none was given; so it reads that of the present name and settings exactly when the two are one
path. -/
theorem content_is_loaded_from_first_path (config? : Option Config)
    {operations : List (Operation σ)} (hgiven : ∀ path, .setFilePath path ∉ operations)
    (hcontent : (after operations (new config?)).content = []) (globals : Scope) (fresh : Text)
    (s : σ) :
    let t := after operations (new config?)
    let path := (firstLoad? operations (new config?)).getD t.derivedPath
    let t' := (runOn s (t.compile globals fresh : StateM σ Template)).1
    LoadsFrom path s t t' ∧
      (runOn s (t.compileStrict globals fresh : StateM σ _)).1.2 = t' ∧
      (LoadsFrom t.derivedPath s t t' ↔ path = t.derivedPath) := by
  intro t path t'
  have hloads : LoadsFrom path s t t' := by
    have hloads := loadsFrom_compile hcontent globals fresh s
    rwa [path_after hgiven] at hloads
  refine ⟨hloads, rfl, fun hderived => ?_, fun heq => heq ▸ hloads⟩
  exact Option.some.inj (hloads.filePath.symm.trans hderived.filePath)

theorem file_of_restored_name_loaded :
    let bare : FileSystem := { temporary := [] }
    let files := bare.put "./templates/a.html".toList (some " A\n".toList)
    let operations : List (Operation FileSystem) :=
      [.setName ['a'], .compile .empty [] bare, .setName ['b'], .setName ['a']]
    let t := after operations (new none)
    let t' := (runOn files (t.compile .empty [] : StateM FileSystem Template)).1
    (∀ path, .setFilePath path ∉ operations) ∧ t.content = [] ∧
      t.derivedPath = "./templates/a.html".toList ∧ LoadsFrom t.derivedPath files t t' ∧
      t'.content = ['A'] := by
  intro bare files operations t t'
  have hgiven : ∀ path, .setFilePath path ∉ operations := by simp [operations]
  have hcontent : t.content = [] := by decide +kernel
  have hfirst : (firstLoad? operations (new none)).getD t.derivedPath = t.derivedPath := by
    decide +kernel
  have hloads := content_is_loaded_from_first_path none hgiven hcontent .empty [] files
  exact ⟨hgiven, hcontent, by decide +kernel, hloads.2.2.mpr hfirst, by decide +kernel⟩

/-- Under a new name the path of the former one is still read, whether there was a file or not. -/
theorem file_of_former_name_loaded :
    let bare : FileSystem := { temporary := [] }
    let a := "./templates/a.html".toList
    let b := "./templates/b.html".toList
    let files := (bare.put a (some ['A'])).put b (some ['B'])
    let named (s : FileSystem) : List (Operation FileSystem) :=
      [.setName ['a'], .compile .empty [] s, .setContent [], .setName ['b']]
    let missed := after (named bare) (new none)
    let loaded := after (named files) (new none)
    let compiled (t : Template) (s : FileSystem) : Template :=
      (runOn s (t.compile .empty [] : StateM FileSystem Template)).1
    (missed.content = [] ∧ missed.derivedPath = b ∧
        (compiled missed bare).warnings = [.missingTemplateFile a] ∧
        ¬ LoadsFrom missed.derivedPath bare missed (compiled missed bare)) ∧
      loaded.content = [] ∧ loaded.derivedPath = b ∧
        (compiled loaded files).content = ['A'] ∧ (compiled loaded files).warnings = [] ∧
        ¬ LoadsFrom loaded.derivedPath files loaded (compiled loaded files) := by
  intro bare a b files named missed loaded compiled
  have hmissed : (compiled missed bare).filePath ≠ some missed.derivedPath := by decide +kernel
  have hloaded : (compiled loaded files).filePath ≠ some loaded.derivedPath := by decide +kernel
  refine ⟨⟨?_, ?_, ?_, fun h => hmissed h.filePath⟩, ?_, ?_, ?_, ?_, fun h => hloaded h.filePath⟩
  · decide +kernel
  · decide +kernel
  · decide +kernel
  · decide +kernel
  · decide +kernel
  · decide +kernel
  · decide +kernel

end Stencil.Template
