import Stencil.Proofs.FileSystem.Laws
import Stencil.Scratch

namespace Stencil

variable {σ : Type} [MonadFiles (StateM σ)]

/-- Something stands at the path and cannot be removed. -/
def Blocked (s : σ) (path : Text) : Prop :=
  (runOn s (MonadFiles.occupied path : StateM σ Bool)).1 = true ∧
    (runOn s (MonadFiles.remove path : StateM σ Bool)).1 = false

/-- The files when what stands at the path is removed. -/
def freed (s : σ) (path : Text) : σ :=
  if (runOn s (MonadFiles.occupied path : StateM σ Bool)).1 then
    (runOn s (MonadFiles.remove path : StateM σ Bool)).2
  else
    s

/-- A text can be written to the path. -/
def Writable (s : σ) (path text : Text) : Prop :=
  (runOn s (MonadFiles.write path text : StateM σ Bool)).1 = true

namespace ScratchCache

/-- The path of a scratch file in the first directory. -/
def primary (cache : ScratchCache) (fresh : Text) : Text :=
  joinPath cache.directory (cache.nextName fresh)

/-- The path of a scratch file in the second directory. -/
def secondary (cache : ScratchCache) (fresh : Text) : Text :=
  joinPath cache.fallback (cache.nextName fresh)

/-- The first directory refuses the text and the second one takes it. -/
def FallsBack (cache : ScratchCache) (fresh text : Text) (s : σ) : Prop :=
  ¬ Writable (freed s (cache.primary fresh)) (cache.primary fresh) text ∧
    Writable (freed s (cache.primary fresh)) (cache.secondary fresh) text

variable {view : FileView σ}

theorem runOn_stage_of_blocked (files : LawfulFiles σ view) {cache : ScratchCache}
    {fresh : Text} {s : σ} (h : Blocked s (cache.primary fresh)) (text : Text) :
    runOn s (cache.stage fresh text : StateM σ _) = (.error (.stale (cache.primary fresh)), s) := by
  obtain ⟨hoccupied, hremove⟩ := h
  have hstate := files.remove_failed s _ hremove
  have hrun := files.runOn_occupied s (cache.primary fresh)
  rw [hrun] at hoccupied
  simp only [primary] at hrun hoccupied hremove hstate
  simp only [stage, runOn_bind, hrun, hoccupied, if_true, hremove, hstate]
  rfl

/-- Puts a text into the first directory, or into the second one. -/
def writeEither {m : Type → Type} [Monad m] [MonadFiles m] (cache : ScratchCache)
    (fresh text : Text) : m (Except ScratchError Text) := do
  if ← MonadFiles.write (cache.primary fresh) text then
    return .ok (cache.primary fresh)
  else if ← MonadFiles.write (cache.secondary fresh) text then
    return .ok (cache.secondary fresh)
  else
    return .error (.unwritable (cache.primary fresh) (cache.secondary fresh))

theorem runOn_stage_of_not_blocked (files : LawfulFiles σ view) {cache : ScratchCache}
    {fresh : Text} {s : σ} (h : ¬ Blocked s (cache.primary fresh)) (text : Text) :
    runOn s (cache.stage fresh text : StateM σ _) =
      runOn (freed s (cache.primary fresh)) (cache.writeEither fresh text) := by
  have hrun := files.runOn_occupied s (cache.primary fresh)
  unfold Blocked at h
  simp only [freed, primary] at h hrun ⊢
  cases ho : ((view.locate? s (joinPath cache.directory (cache.nextName fresh))).bind
      (view.node? s)).isSome with
  | false =>
      simp only [stage, runOn_bind, hrun, ho, Bool.false_eq_true, if_false]
      rfl
  | true =>
      have hremove : (runOn s (MonadFiles.remove
          (joinPath cache.directory (cache.nextName fresh)) : StateM σ Bool)).1 = true := by
        simpa [hrun, ho] using h
      simp only [stage, runOn_bind, hrun, ho, if_true, hremove]
      rfl

variable {cache : ScratchCache} {fresh text : Text} {s : σ}

theorem runOn_writeEither_first (h : Writable s (cache.primary fresh) text) :
    runOn s (cache.writeEither fresh text) =
      (.ok (cache.primary fresh),
        (runOn s (MonadFiles.write (cache.primary fresh) text : StateM σ Bool)).2) := by
  unfold Writable at h
  simp only [writeEither, runOn_bind, h, if_true]
  rfl

theorem runOn_writeEither_second (files : LawfulFiles σ view)
    (h : ¬ Writable s (cache.primary fresh) text)
    (h' : Writable s (cache.secondary fresh) text) :
    runOn s (cache.writeEither fresh text) =
      (.ok (cache.secondary fresh),
        (runOn s (MonadFiles.write (cache.secondary fresh) text : StateM σ Bool)).2) := by
  unfold Writable at h h'
  rw [Bool.not_eq_true] at h
  have hstate := files.write_failed s _ _ h
  simp only [writeEither, runOn_bind, h, Bool.false_eq_true, if_false, hstate, h', if_true]
  rfl

theorem runOn_writeEither_neither (files : LawfulFiles σ view)
    (h : ¬ Writable s (cache.primary fresh) text)
    (h' : ¬ Writable s (cache.secondary fresh) text) :
    runOn s (cache.writeEither fresh text) =
      (.error (.unwritable (cache.primary fresh) (cache.secondary fresh)), s) := by
  unfold Writable at h h'
  rw [Bool.not_eq_true] at h h'
  have hstate := files.write_failed s _ _ h
  have hstate' := files.write_failed s _ _ h'
  simp only [writeEither, runOn_bind, h, Bool.false_eq_true, if_false, hstate, h', hstate']
  rfl

theorem runOn_read_drop (files : LawfulFiles σ view) {path : Text} (h : Writable s path text) :
    let s₁ := (runOn s (MonadFiles.write path text : StateM σ Bool)).2
    runOn s₁ (read path : StateM σ _) = (.ok text, s₁) ∧
      view.Vacates s (runOn s₁ (drop path : StateM σ _)).2
        fun p => view.locate? s path = some p := by
  intro s₁
  obtain ⟨p, hp, hset⟩ := files.write_done s path text h
  have hremove := files.remove_write s path text h
  obtain ⟨q, content, hq, -, hset'⟩ := files.remove_done s₁ path hremove
  constructor
  · have hread := files.read_write s path text h
    simp only [read, runOn_bind, s₁, hread, files.readText?_state]
    rfl
  · rw [hset.locate?_eq path, hp] at hq
    obtain rfl := Option.some.inj hq
    have hvacates := hset.trans_vacates hset'
    refine ⟨hvacates.locate?_eq, ?_, ?_⟩
    · intro r hr
      rw [hp] at hr
      exact hvacates.node?_gone r (Option.some.inj hr).symm
    · intro r hr
      apply hvacates.node?_kept r
      rintro rfl
      exact hr hp

theorem vacates_freed (files : LawfulFiles σ view) {path : Text} (h : ¬ Blocked s path) :
    view.Vacates s (freed s path) fun p =>
      (runOn s (MonadFiles.occupied path : StateM σ Bool)).1 = true ∧
        view.locate? s path = some p := by
  unfold Blocked at h
  unfold freed
  cases ho : (runOn s (MonadFiles.occupied path : StateM σ Bool)).1 with
  | false =>
      apply FileView.vacates_self
      simp
  | true =>
      rw [ho] at h
      have hremove : (runOn s (MonadFiles.remove path : StateM σ Bool)).1 = true := by
        simpa using h
      obtain ⟨p, content, hp, -, hset⟩ := files.remove_done s path hremove
      simpa [hp, eq_comm] using hset.vacates

/-- Puts a text into a scratch file and takes it back; where that fails it is taken as it is. -/
def passThrough (cache : ScratchCache) (fresh text : Text) : StateM σ (Except Text Text) := do
  match ← cache.stage fresh text with
  | .error (.stale path) => return .error path
  | .error _ => return .ok text
  | .ok path => do
      let staged ← read path
      drop path
      match staged with
      | .ok text => return .ok text
      | .error _ => return .ok text

theorem runOn_passThrough_of_blocked (files : LawfulFiles σ view)
    (h : Blocked s (cache.primary fresh)) (text : Text) :
    runOn s (cache.passThrough fresh text) = (.error (cache.primary fresh), s) := by
  simp only [passThrough, runOn_bind, runOn_stage_of_blocked files h]
  rfl

theorem runOn_passThrough_of_stage (files : LawfulFiles σ view) {s' : σ} {path : Text}
    (hwritable : Writable s' path text)
    (hstage : runOn s (cache.stage fresh text : StateM σ _) =
      (.ok path, (runOn s' (MonadFiles.write path text : StateM σ Bool)).2)) :
    ∃ s'', runOn s (cache.passThrough fresh text) = (.ok text, s'') ∧
      view.Vacates s' s'' fun p => view.locate? s' path = some p := by
  obtain ⟨hread, hvacates⟩ := runOn_read_drop files hwritable
  refine ⟨_, ?_, hvacates⟩
  simp only [passThrough, runOn_bind, hstage, hread]
  rfl

/-- Unless something stands in the way the text comes back, and both places are empty that the text
may have been written to. -/
theorem runOn_passThrough_of_not_blocked (files : LawfulFiles σ view)
    (h : ¬ Blocked s (cache.primary fresh)) (text : Text) :
    ∃ s', runOn s (cache.passThrough fresh text) = (.ok text, s') ∧
      view.Vacates s s' fun p =>
        ((runOn s (MonadFiles.occupied (cache.primary fresh) : StateM σ Bool)).1 = true ∧
          view.locate? s (cache.primary fresh) = some p) ∨
        (cache.FallsBack fresh text s ∧ view.locate? s (cache.secondary fresh) = some p) := by
  have hstage := runOn_stage_of_not_blocked files h text
  have hfreed := vacates_freed files h
  by_cases hfirst : Writable (freed s (cache.primary fresh)) (cache.primary fresh) text
  · rw [runOn_writeEither_first hfirst] at hstage
    obtain ⟨s', hrun, hvacates⟩ := runOn_passThrough_of_stage files hfirst hstage
    refine ⟨s', hrun, (hfreed.trans hvacates).restrict ?_ ?_⟩
    · rintro p (hp | hp)
      · exact Or.inl hp
      · exact absurd hfirst hp.1.1
    · -- Where nothing stood before, the file that is written and dropped leaves no trace.
      rintro p (hp | hp) hgone
      · exact absurd (Or.inl hp) hgone
      · rw [hfreed.locate?_eq] at hp
        cases hnode : view.node? s p with
        | none => rfl
        | some n =>
            refine absurd (Or.inl ⟨?_, hp⟩) hgone
            rw [files.runOn_occupied]
            simp [hp, hnode]
  · by_cases hsecond : Writable (freed s (cache.primary fresh)) (cache.secondary fresh) text
    · rw [runOn_writeEither_second files hfirst hsecond] at hstage
      obtain ⟨s', hrun, hvacates⟩ := runOn_passThrough_of_stage files hsecond hstage
      refine ⟨s', hrun, (hfreed.trans hvacates).restrict ?_ ?_⟩
      · rintro p (hp | hp)
        · exact Or.inl hp
        · refine Or.inr ?_
          rw [hfreed.locate?_eq]
          exact hp.2
      · rintro p (hp | hp) hgone
        · exact absurd (Or.inl hp) hgone
        · rw [hfreed.locate?_eq] at hp
          exact absurd (Or.inr ⟨⟨hfirst, hsecond⟩, hp⟩) hgone
    · rw [runOn_writeEither_neither files hfirst hsecond] at hstage
      refine ⟨freed s (cache.primary fresh), ?_, hfreed.restrict ?_ ?_⟩
      · simp only [passThrough, runOn_bind, hstage]
        rfl
      · rintro p (hp | hp)
        · exact hp
        · exact absurd hp.1.2 hsecond
      · intro p hp hgone
        exact absurd (Or.inl hp) hgone

end ScratchCache

end Stencil
