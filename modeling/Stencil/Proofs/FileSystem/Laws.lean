import Stencil.FileSystem.Basic

namespace Stencil

variable {σ α β : Type}

/-- The result of a computation on the files, and the files behind it. -/
def runOn (s : σ) (x : StateM σ α) : α × σ :=
  x.run s

theorem runOn_pure (s : σ) (a : α) : runOn s (pure a : StateM σ α) = (a, s) :=
  rfl

theorem runOn_bind (s : σ) (x : StateM σ α) (f : α → StateM σ β) :
    runOn s (x >>= f) = runOn (runOn s x).2 (f (runOn s x).1) :=
  rfl

/-- A way to see the files: the places that paths lead to, and what stands at a place. -/
structure FileView (σ : Type) where
  Place : Type
  locate? : σ → Text → Option Place
  node? : σ → Place → Option Node

namespace FileView

variable (view : FileView σ)

/-- The second state has the given node at a place and is the first everywhere else. -/
structure Sets (s s' : σ) (p : view.Place) (n : Option Node) : Prop where
  locate?_eq : ∀ path, view.locate? s' path = view.locate? s path
  node?_eq : view.node? s' p = n
  node?_ne : ∀ q, q ≠ p → view.node? s' q = view.node? s q

/-- In the second state nothing stands at certain places, and it is the first everywhere else. -/
structure Vacates (s s' : σ) (gone : view.Place → Prop) : Prop where
  locate?_eq : ∀ path, view.locate? s' path = view.locate? s path
  node?_gone : ∀ p, gone p → view.node? s' p = none
  node?_kept : ∀ p, ¬ gone p → view.node? s' p = view.node? s p

variable {view}

theorem vacates_self (s : σ) {gone : view.Place → Prop} (h : ∀ p, ¬ gone p) :
    view.Vacates s s gone :=
  ⟨fun _ => rfl, fun p hp => absurd hp (h p), fun _ _ => rfl⟩

theorem Sets.vacates {s s' : σ} {p : view.Place} (h : view.Sets s s' p none) :
    view.Vacates s s' fun q => q = p := by
  refine ⟨h.locate?_eq, ?_, h.node?_ne⟩
  rintro q rfl
  exact h.node?_eq

theorem Sets.trans_vacates {s s' s'' : σ} {p : view.Place} {n : Option Node}
    (h : view.Sets s s' p n) (h' : view.Sets s' s'' p none) :
    view.Vacates s s'' fun q => q = p := by
  refine ⟨?_, h'.vacates.node?_gone, ?_⟩
  · intro path
    rw [h'.locate?_eq, h.locate?_eq]
  · intro q hq
    rw [h'.node?_ne q hq, h.node?_ne q hq]

theorem Vacates.trans {s s' s'' : σ} {gone gone' : view.Place → Prop}
    (h : view.Vacates s s' gone) (h' : view.Vacates s' s'' gone') :
    view.Vacates s s'' fun p => gone p ∨ gone' p := by
  refine ⟨?_, ?_, ?_⟩
  · intro path
    rw [h'.locate?_eq, h.locate?_eq]
  · intro p hp
    by_cases hp' : gone' p
    · exact h'.node?_gone p hp'
    · rw [h'.node?_kept p hp']
      exact h.node?_gone p (hp.resolve_right hp')
  · intro p hp
    rw [not_or] at hp
    rw [h'.node?_kept p hp.2, h.node?_kept p hp.1]

theorem Vacates.restrict {s s' : σ} {gone gone' : view.Place → Prop}
    (h : view.Vacates s s' gone) (hsub : ∀ p, gone' p → gone p)
    (hempty : ∀ p, gone p → ¬ gone' p → view.node? s p = none) : view.Vacates s s' gone' := by
  refine ⟨h.locate?_eq, fun p hp => h.node?_gone p (hsub p hp), ?_⟩
  intro p hp
  by_cases hgone : gone p
  · rw [h.node?_gone p hgone, hempty p hgone hp]
  · exact h.node?_kept p hgone

end FileView

/-- What is asked of access to files, seen through a view.  A write or a removal that fails changes
nothing, and so does a question; one that is done changes the node at one place.  Which files can be
read, written or removed is left open, but that one just written can be read and removed. -/
structure LawfulFiles (σ : Type) [MonadFiles (StateM σ)] (view : FileView σ) : Prop where
  readText?_state (s : σ) (path : Text) :
    (runOn s (MonadFiles.readText? path : StateM σ _)).2 = s
  temporaryDirectory_state (s : σ) :
    (runOn s (MonadFiles.temporaryDirectory : StateM σ _)).2 = s
  runOn_occupied (s : σ) (path : Text) :
    runOn s (MonadFiles.occupied path : StateM σ _) =
      (((view.locate? s path).bind (view.node? s)).isSome, s)
  remove_failed (s : σ) (path : Text) :
    (runOn s (MonadFiles.remove path : StateM σ _)).1 = false →
      (runOn s (MonadFiles.remove path : StateM σ _)).2 = s
  remove_done (s : σ) (path : Text) :
    (runOn s (MonadFiles.remove path : StateM σ _)).1 = true →
      ∃ p content, view.locate? s path = some p ∧ view.node? s p = some (.file content) ∧
        view.Sets s (runOn s (MonadFiles.remove path : StateM σ _)).2 p none
  write_failed (s : σ) (path text : Text) :
    (runOn s (MonadFiles.write path text : StateM σ _)).1 = false →
      (runOn s (MonadFiles.write path text : StateM σ _)).2 = s
  write_done (s : σ) (path text : Text) :
    (runOn s (MonadFiles.write path text : StateM σ _)).1 = true →
      ∃ p, view.locate? s path = some p ∧
        view.Sets s (runOn s (MonadFiles.write path text : StateM σ _)).2 p
          (some (.file (some text)))
  read_write (s : σ) (path text : Text) :
    (runOn s (MonadFiles.write path text : StateM σ _)).1 = true →
      (runOn (runOn s (MonadFiles.write path text : StateM σ _)).2
        (MonadFiles.readText? path : StateM σ _)).1 = some text
  remove_write (s : σ) (path text : Text) :
    (runOn s (MonadFiles.write path text : StateM σ _)).1 = true →
      (runOn (runOn s (MonadFiles.write path text : StateM σ _)).2
        (MonadFiles.remove path : StateM σ _)).1 = true

namespace FileSystem

/-- File systems seen as their locations and nodes. -/
def view : FileView FileSystem :=
  ⟨Location, locate?, node?⟩

theorem locate?_congr {fs fs' : FileSystem}
    (h : ∀ l, fs'.node? l = some .directory ↔ fs.node? l = some .directory) (path : Text) :
    fs'.locate? path = fs.locate? path := by
  have hfollow (parts : List Text) : ∀ l, fs'.follow? l parts = fs.follow? l parts := by
    induction parts with
    | nil => intro l; rfl
    | cons part parts ih =>
        intro l
        simp only [follow?, h, ih]
  simp only [locate?, hfollow]

theorem sets_erase {fs : FileSystem} {l : Location} {content : Option Text}
    (h : fs.node? l = some (.file content)) : view.Sets fs (fs.erase l) l none := by
  have hnames : l.names ≠ [] := by
    intro hnil
    simp [node?, hnil] at h
  refine ⟨?_, ?_, ?_⟩
  · apply locate?_congr
    intro k
    rw [node?_erase]
    by_cases hk : k = l
    · simp [hk, hnames, h]
    · simp [hk]
  · exact (node?_erase fs l l).trans (if_pos ⟨rfl, hnames⟩)
  · intro k hk
    exact (node?_erase fs l k).trans (if_neg fun hand => hk hand.1)

theorem sets_set {fs : FileSystem} {l : Location} (h : fs.node? l ≠ some .directory)
    (content : Option Text) :
    view.Sets fs (fs.set l (.file content)) l (some (.file content)) := by
  have hnames : l.names ≠ [] := by
    intro hnil
    simp [node?, hnil] at h
  refine ⟨?_, ?_, ?_⟩
  · apply locate?_congr
    intro k
    rw [node?_set]
    by_cases hk : k = l
    · simp [hk, hnames, h]
    · simp [hk]
  · exact (node?_set fs l l _).trans (if_pos ⟨rfl, hnames⟩)
  · intro k hk
    exact (node?_set fs l k _).trans (if_neg fun hand => hk hand.1)

theorem remove_eq_of_file {fs : FileSystem} {path : Text} {l : Location} {content : Option Text}
    (hl : fs.locate? path = some l) (hn : fs.node? l = some (.file content)) :
    fs.remove path = (true, fs.erase l) := by
  simp [remove, hl, hn]

theorem remove_cases (fs : FileSystem) (path : Text) :
    fs.remove path = (false, fs) ∨
      ∃ l content, fs.locate? path = some l ∧ fs.node? l = some (.file content) ∧
        fs.remove path = (true, fs.erase l) := by
  unfold remove
  split
  next => exact Or.inl rfl
  next l hl =>
    split
    next content hn => exact Or.inr ⟨l, content, hl, hn, rfl⟩
    next => exact Or.inl rfl

theorem writeFile_cases (fs : FileSystem) (path : Text) (content : Option Text) :
    fs.writeFile path content = (false, fs) ∨
      ∃ l, fs.locate? path = some l ∧ fs.node? l ≠ some .directory ∧
        fs.writeFile path content = (true, fs.set l (.file content)) := by
  unfold writeFile
  split
  next => exact Or.inl rfl
  next l hl =>
    split
    next => exact Or.inl rfl
    next hn => exact Or.inr ⟨l, hl, hn, rfl⟩

theorem runOn_readText? (fs : FileSystem) (path : Text) :
    runOn fs (MonadFiles.readText? path : StateM FileSystem _) = (fs.readText? path, fs) :=
  rfl

theorem runOn_remove (fs : FileSystem) (path : Text) :
    runOn fs (MonadFiles.remove path : StateM FileSystem _) = fs.remove path :=
  rfl

theorem runOn_write (fs : FileSystem) (path text : Text) :
    runOn fs (MonadFiles.write path text : StateM FileSystem _) =
      fs.writeFile path (some text) :=
  rfl

theorem locate?_set {fs : FileSystem} {path : Text} {l : Location}
    (hl : fs.locate? path = some l) (hn : fs.node? l ≠ some .directory) (content : Option Text) :
    (fs.set l (.file content)).locate? path = some l ∧
      (fs.set l (.file content)).node? l = some (.file content) := by
  have hsets := sets_set hn content
  exact ⟨(hsets.locate?_eq path).trans hl, hsets.node?_eq⟩

theorem lawfulFiles : LawfulFiles FileSystem view where
  readText?_state _ _ := rfl
  temporaryDirectory_state _ := rfl
  runOn_occupied _ _ := rfl
  remove_failed fs path h := by
    rw [runOn_remove] at h ⊢
    rcases remove_cases fs path with hr | ⟨l, content, -, -, hr⟩
    · rw [hr]
    · simp [hr] at h
  remove_done fs path h := by
    rw [runOn_remove] at h ⊢
    rcases remove_cases fs path with hr | ⟨l, content, hl, hn, hr⟩
    · simp [hr] at h
    · rw [hr]
      exact ⟨l, content, hl, hn, sets_erase hn⟩
  write_failed fs path text h := by
    rw [runOn_write] at h ⊢
    rcases writeFile_cases fs path (some text) with hw | ⟨l, -, -, hw⟩
    · rw [hw]
    · simp [hw] at h
  write_done fs path text h := by
    rw [runOn_write] at h ⊢
    rcases writeFile_cases fs path (some text) with hw | ⟨l, hl, hn, hw⟩
    · simp [hw] at h
    · rw [hw]
      exact ⟨l, hl, sets_set hn _⟩
  read_write fs path text h := by
    rw [runOn_write] at h ⊢
    rcases writeFile_cases fs path (some text) with hw | ⟨l, hl, hn, hw⟩
    · simp [hw] at h
    · obtain ⟨hl', hn'⟩ := locate?_set hl hn (some text)
      simp [hw, runOn_readText?, readText?, hl', hn']
  remove_write fs path text h := by
    rw [runOn_write] at h ⊢
    rcases writeFile_cases fs path (some text) with hw | ⟨l, hl, hn, hw⟩
    · simp [hw] at h
    · obtain ⟨hl', hn'⟩ := locate?_set hl hn (some text)
      simp [hw, runOn_remove, remove_eq_of_file hl' hn']

end FileSystem

end Stencil
