import Mathlib.Data.List.DropRight
import Stencil.Proofs.Template.History

namespace Stencil.Template

variable {σ : Type} {operations part : List (Operation σ)}

/-- One of the operations is a compilation. -/
def Compiles (operations : List (Operation σ)) : Prop :=
  ∃ operation ∈ operations, operation.isCompilation

/-- One of the operations gives a content that is not empty once it is sanitized. -/
def Fills (operations : List (Operation σ)) : Prop :=
  ∃ content, .setContent content ∈ operations ∧ sanitize content ≠ []

/-- The operations up to the last compilation. -/
def untilCompilation (operations : List (Operation σ)) : List (Operation σ) :=
  operations.rdropWhile (!·.isCompilation)

/-- The operations behind the last compilation, or all where there was none. -/
def sinceCompilation (operations : List (Operation σ)) : List (Operation σ) :=
  operations.rtakeWhile (!·.isCompilation)

theorem untilCompilation_append (operations : List (Operation σ)) :
    untilCompilation operations ++ sinceCompilation operations = operations :=
  List.rdropWhile_append_rtakeWhile

theorem not_compiles_sinceCompilation (operations : List (Operation σ)) :
    ¬ Compiles (sinceCompilation operations) := by
  rintro ⟨operation, hmem, hcompilation⟩
  have hnot := List.mem_rtakeWhile_imp hmem
  simp [hcompilation] at hnot

theorem untilCompilation_of_not_compiles (h : ¬ Compiles operations) :
    untilCompilation operations = [] := by
  rw [untilCompilation, List.rdropWhile_eq_nil_iff]
  intro operation hmem
  cases hcompilation : operation.isCompilation with
  | false => rfl
  | true => exact absurd ⟨operation, hmem, hcompilation⟩ h

theorem exists_untilCompilation_eq_concat (h : Compiles operations) :
    ∃ front operation, untilCompilation operations = front ++ [operation] ∧
      operation.isCompilation := by
  have hne : operations.rdropWhile (!·.isCompilation) ≠ [] := by
    obtain ⟨operation, hmem, hcompilation⟩ := h
    intro hnil
    have hnot := List.rdropWhile_eq_nil_iff.mp hnil operation hmem
    simp [hcompilation] at hnot
  have hlast := List.rdropWhile_last_not _ _ hne
  exact ⟨_, _, (List.dropLast_append_getLast hne).symm, by simpa using hlast⟩

theorem phase?_cases {operation : Operation σ} (h : operation.isCompilation = false) :
    (operation.phase? = some .loaded ∧
        ∃ content, operation = .setContent content ∧ sanitize content ≠ []) ∨
      (operation.phase? = none ∧
        ∀ content, operation = .setContent content → sanitize content = []) := by
  cases operation with
  | setContent content =>
      by_cases hempty : sanitize content = []
      · refine Or.inr ⟨if_pos hempty, ?_⟩
        rintro _ ⟨rfl⟩
        exact hempty
      · exact Or.inl ⟨if_neg hempty, content, rfl, hempty⟩
  | compile globals fresh s => exact absurd h (by simp [Operation.isCompilation])
  | compileStrict globals fresh s => exact absurd h (by simp [Operation.isCompilation])
  | _ => exact Or.inr ⟨rfl, by simp⟩

variable [MonadFiles (StateM σ)]

/-- The phase behind a run tells whether there is content and since when. -/
structure PhaseTells (config? : Option Config) (operations : List (Operation σ)) : Prop where
  empty : (after operations (new config?)).phase = .empty ↔
    ¬ Compiles operations ∧ (after operations (new config?)).content = []
  loaded : (after operations (new config?)).phase = .loaded →
    (after operations (new config?)).content ≠ [] ∧
      ∃ content, .setContent content ∈ sinceCompilation operations ∧
        (after operations (new config?)).content = sanitize content
  evaluated : (after operations (new config?)).phase = .evaluated →
    Compiles operations ∧ ∀ front, front <+: sinceCompilation operations →
      (after (untilCompilation operations ++ front) (new config?)).content =
        (after (untilCompilation operations) (new config?)).content

/-- There is no content, though there was some at a time since the last compilation. -/
def Cleared (config? : Option Config) (operations : List (Operation σ)) : Prop :=
  (after operations (new config?)).content = [] ∧
    ∃ front, front <+: sinceCompilation operations ∧
      (after (untilCompilation operations ++ front) (new config?)).content ≠ []

theorem phase_after_of_not_compiles (h : ¬ Compiles operations) (t : Template) :
    (Fills operations → (after operations t).phase = .loaded) ∧
      (¬ Fills operations → (after operations t).phase = t.phase) := by
  have hsettings {operation : Operation σ} (hmem : operation ∈ operations) :=
    phase?_cases (Bool.eq_false_iff.mpr fun hcompilation => h ⟨operation, hmem, hcompilation⟩)
  rw [phase_after]
  cases hfind : operations.reverse.findSome? Operation.phase? with
  | none =>
      rw [List.findSome?_eq_none_iff] at hfind
      refine ⟨?_, fun _ => rfl⟩
      rintro ⟨content, hmem, hcontent⟩
      have hnone := hfind _ (List.mem_reverse.mpr hmem)
      rcases hsettings hmem with ⟨hsome, -⟩ | ⟨-, hempty⟩
      · exact absurd (hnone.symm.trans hsome) (by simp)
      · exact absurd (hempty content rfl) hcontent
  | some phase =>
      obtain ⟨operation, hmem, hphase⟩ := List.exists_of_findSome?_eq_some hfind
      rw [List.mem_reverse] at hmem
      rcases hsettings hmem with ⟨hloaded, content, rfl, hcontent⟩ | ⟨hnone, -⟩
      · rw [Option.some.inj (hphase.symm.trans hloaded)]
        exact ⟨fun _ => rfl, fun hnot => absurd ⟨content, hmem, hcontent⟩ hnot⟩
      · exact absurd (hnone.symm.trans hphase) (by simp)

theorem content_after_of_not_compiles (h : ¬ Compiles operations) (t : Template) :
    (∃ content, .setContent content ∈ operations ∧
        (after operations t).content = sanitize content) ∨
      ((∀ content, .setContent content ∉ operations) ∧
        (after operations t).content = t.content) := by
  induction operations generalizing t with
  | nil => exact Or.inr ⟨fun _ => List.not_mem_nil, rfl⟩
  | cons operation operations ih =>
      have hrest : ¬ Compiles operations := by
        rintro ⟨later, hmem, hcompilation⟩
        exact h ⟨later, List.mem_cons_of_mem _ hmem, hcompilation⟩
      rw [after_cons]
      rcases ih hrest (operation.apply t) with ⟨content, hmem, hcontent⟩ | ⟨hnone, hcontent⟩
      · exact Or.inl ⟨content, List.mem_cons_of_mem _ hmem, hcontent⟩
      · rw [hcontent]
        cases operation with
        | setContent content => exact Or.inl ⟨content, List.mem_cons_self, rfl⟩
        | compile globals fresh s => exact absurd ⟨_, List.mem_cons_self, rfl⟩ h
        | compileStrict globals fresh s => exact absurd ⟨_, List.mem_cons_self, rfl⟩ h
        | _ => exact Or.inr ⟨by simpa using hnone, rfl⟩

theorem content_after_of_not_fills (h : ¬ Fills (sinceCompilation operations))
    (hpart : part ⊆ sinceCompilation operations) (t : Template) :
    (after part t).content = [] ∨ (after part t).content = t.content := by
  have hcompiles : ¬ Compiles part := by
    rintro ⟨operation, hmem, hcompilation⟩
    exact not_compiles_sinceCompilation operations ⟨operation, hpart hmem, hcompilation⟩
  rcases content_after_of_not_compiles hcompiles t with ⟨content, hmem, hcontent⟩ | ⟨-, hcontent⟩
  · left
    rw [hcontent]
    by_contra hne
    exact h ⟨content, hpart hmem, hne⟩
  · exact Or.inr hcontent

variable {config? : Option Config}

theorem after_eq_after_sinceCompilation (operations : List (Operation σ)) (t : Template) :
    after operations t =
      after (sinceCompilation operations) (after (untilCompilation operations) t) := by
  rw [← after_append, untilCompilation_append]

theorem phase_after_new_cases (config? : Option Config) (operations : List (Operation σ)) :
    (Fills (sinceCompilation operations) ∧
        (after operations (new config?)).phase = .loaded) ∨
      (¬ Fills (sinceCompilation operations) ∧ Compiles operations ∧
        (after operations (new config?)).phase = .evaluated) ∨
      (¬ Fills (sinceCompilation operations) ∧ ¬ Compiles operations ∧
        (after operations (new config?)).phase = .empty) := by
  obtain ⟨hfilled, hkept⟩ := phase_after_of_not_compiles (not_compiles_sinceCompilation operations)
    (after (untilCompilation operations) (new config?))
  rw [after_eq_after_sinceCompilation]
  by_cases hfills : Fills (sinceCompilation operations)
  · exact Or.inl ⟨hfills, hfilled hfills⟩
  refine Or.inr ?_
  rw [hkept hfills]
  by_cases hcompiles : Compiles operations
  · obtain ⟨front, operation, huntil, hcompilation⟩ := exists_untilCompilation_eq_concat hcompiles
    refine Or.inl ⟨hfills, hcompiles, ?_⟩
    rw [huntil, after_append]
    exact (compiled_apply hcompilation _).phase
  · refine Or.inr ⟨hfills, hcompiles, ?_⟩
    rw [untilCompilation_of_not_compiles hcompiles]
    exact phase_new config?

theorem cleared_iff_of_fills (h : Fills (sinceCompilation operations)) :
    Cleared config? operations ↔ (after operations (new config?)).content = [] := by
  refine ⟨And.left, fun hempty => ⟨hempty, ?_⟩⟩
  obtain ⟨content, hmem, hcontent⟩ := h
  obtain ⟨front, back, hsplit⟩ := List.append_of_mem hmem
  refine ⟨front ++ [.setContent content], ⟨back, ?_⟩, ?_⟩
  · rw [hsplit, List.append_assoc, List.singleton_append]
  · rw [← List.append_assoc, after_append]
    exact hcontent

theorem phaseTells_iff_of_fills (h : Fills (sinceCompilation operations))
    (hphase : (after operations (new config?)).phase = .loaded) :
    PhaseTells config? operations ↔ (after operations (new config?)).content ≠ [] := by
  refine ⟨fun htells => (htells.loaded hphase).1, fun hne => ⟨?_, fun _ => ⟨hne, ?_⟩, ?_⟩⟩
  · exact iff_of_false (by simp [hphase]) fun hempty => hne hempty.2
  · rw [after_eq_after_sinceCompilation]
    rcases content_after_of_not_compiles (not_compiles_sinceCompilation operations)
      (after (untilCompilation operations) (new config?)) with hgiven | ⟨hnone, -⟩
    · exact hgiven
    · obtain ⟨content, hmem, -⟩ := h
      exact absurd hmem (hnone content)
  · intro hevaluated
    exact absurd (hphase.symm.trans hevaluated) (by decide)

theorem kept_iff_not_cleared (h : ¬ Fills (sinceCompilation operations)) :
    (∀ front, front <+: sinceCompilation operations →
        (after (untilCompilation operations ++ front) (new config?)).content =
          (after (untilCompilation operations) (new config?)).content) ↔
      ¬ Cleared config? operations := by
  constructor
  · rintro hkept ⟨hempty, front, hfront, hne⟩
    apply hne
    rw [hkept front hfront, ← hkept _ List.prefix_rfl, untilCompilation_append]
    exact hempty
  · intro hnot front hfront
    rw [after_append]
    rcases content_after_of_not_fills h hfront.subset
      (after (untilCompilation operations) (new config?)) with hempty | hsame
    · -- an empty content stays empty, so there was none at the compilation either
      rw [hempty]
      by_contra hne
      refine hnot ⟨?_, [], List.nil_prefix, ?_⟩
      · obtain ⟨back, hback⟩ := hfront
        have hsubset : back ⊆ sinceCompilation operations := by
          rw [← hback]
          exact List.subset_append_right front back
        rw [after_eq_after_sinceCompilation, ← hback, after_append]
        rcases content_after_of_not_fills h hsubset
          (after front (after (untilCompilation operations) (new config?))) with hnone | hnone
        · exact hnone
        · rw [hnone, hempty]
      · rw [List.append_nil]
        exact Ne.symm hne
    · exact hsame

theorem phaseTells_iff_of_evaluated (h : ¬ Fills (sinceCompilation operations))
    (hcompiles : Compiles operations)
    (hphase : (after operations (new config?)).phase = .evaluated) :
    PhaseTells config? operations ↔ ¬ Cleared config? operations := by
  rw [← kept_iff_not_cleared h]
  refine ⟨fun htells => (htells.evaluated hphase).2, fun hkept => ⟨?_, ?_, ?_⟩⟩
  · exact iff_of_false (by simp [hphase]) fun hempty => hempty.1 hcompiles
  · intro hloaded
    exact absurd (hphase.symm.trans hloaded) (by decide)
  · exact fun _ => ⟨hcompiles, hkept⟩

theorem phaseTells_and_not_cleared_of_empty (h : ¬ Fills (sinceCompilation operations))
    (hcompiles : ¬ Compiles operations)
    (hphase : (after operations (new config?)).phase = .empty) :
    PhaseTells config? operations ∧ ¬ Cleared config? operations := by
  have hcontent {part : List (Operation σ)} (hpart : part ⊆ sinceCompilation operations) :
      (after part (new config?)).content = [] := by
    rcases content_after_of_not_fills h hpart (new config?) with hempty | hempty
    · exact hempty
    · rw [hempty, content_new]
  refine ⟨⟨iff_of_true hphase ⟨hcompiles, ?_⟩, ?_, ?_⟩, ?_⟩
  · rw [after_eq_after_sinceCompilation, untilCompilation_of_not_compiles hcompiles]
    exact hcontent (List.Subset.refl _)
  · intro hloaded
    exact absurd (hphase.symm.trans hloaded) (by decide)
  · intro hevaluated
    exact absurd (hphase.symm.trans hevaluated) (by decide)
  · rintro ⟨-, front, hfront, hne⟩
    rw [untilCompilation_of_not_compiles hcompiles] at hne
    exact hne (hcontent hfront.subset)

/-- Whatever is done to a new template, the phase says whether it was compiled and whether content
was given since.  It tells what is loaded exactly when no content was taken away since the last
compilation. -/
theorem phase_tells_unless_cleared (config? : Option Config) (operations : List (Operation σ)) :
    let t := after operations (new config?)
    (t.phase = .empty ↔ ¬ Compiles operations ∧ ¬ Fills (sinceCompilation operations)) ∧
      (t.phase = .loaded ↔ Fills (sinceCompilation operations)) ∧
      (t.phase = .evaluated ↔ Compiles operations ∧ ¬ Fills (sinceCompilation operations)) ∧
      (PhaseTells config? operations ↔ ¬ Cleared config? operations) := by
  intro t
  rcases phase_after_new_cases config? operations with
    ⟨hfills, hphase⟩ | ⟨hfills, hcompiles, hphase⟩ | ⟨hfills, hcompiles, hphase⟩
  · have htells : PhaseTells config? operations ↔ ¬ Cleared config? operations := by
      rw [phaseTells_iff_of_fills hfills hphase, cleared_iff_of_fills hfills]
    simp [t, hphase, hfills, htells]
  · have htells := phaseTells_iff_of_evaluated hfills hcompiles hphase
    simp [t, hphase, hfills, hcompiles, htells]
  · have htells := phaseTells_and_not_cleared_of_empty hfills hcompiles hphase
    simp [t, hphase, hfills, hcompiles, htells]

/-- A content that is taken away again is still told of, before the first compilation and behind
it. -/
theorem phase_kept_when_content_taken_away :
    let given : List (Operation FileSystem) := [.setContent ['x'], .setContent []]
    let compiled : List (Operation FileSystem) :=
      [.setContent ['x'], .compile .empty [] { temporary := [] }, .setContent []]
    ((after given (new none)).phase = .loaded ∧ (after given (new none)).content = [] ∧
        ¬ PhaseTells none given) ∧
      (after compiled (new none)).phase = .evaluated ∧ (after compiled (new none)).content = [] ∧
        (after compiled.dropLast (new none)).content = ['x'] ∧ ¬ PhaseTells none compiled := by
  intro given compiled
  have hgiven : (after given (new none)).phase = .loaded := by decide +kernel
  have hgivenContent : (after given (new none)).content = [] := by decide +kernel
  have hcompiled : (after compiled (new none)).phase = .evaluated := by decide +kernel
  have hcompiledContent : (after compiled (new none)).content = [] := by decide +kernel
  have hbefore : (after compiled.dropLast (new none)).content = ['x'] := by decide +kernel
  refine ⟨⟨hgiven, hgivenContent, fun htells => (htells.loaded hgiven).1 hgivenContent⟩,
    hcompiled, hcompiledContent, hbefore, fun htells => ?_⟩
  have huntil : untilCompilation compiled = compiled.dropLast := rfl
  have hkept := (htells.evaluated hcompiled).2 _ List.prefix_rfl
  rw [untilCompilation_append, hcompiledContent, huntil, hbefore] at hkept
  exact absurd hkept (by decide)

end Stencil.Template
