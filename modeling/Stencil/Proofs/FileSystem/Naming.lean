import Stencil.Proofs.FileSystem.Scratch

namespace Stencil

/-- A name of a single entry: no path, and not one of the names that lead to a directory. -/
def IsEntryName (name : Text) : Prop :=
  name ≠ [] ∧ name ≠ ['.'] ∧ name ≠ ['.', '.'] ∧ '/' ∉ name

/-- Access to files whose entries have names, and to which the files stay readable and removable
that were written, for as long as they stand and the same paths lead to them. -/
structure NamedFiles (σ : Type) [MonadFiles (StateM σ)] (view : FileView σ)
    (entry : view.Place → Text) : Prop extends LawfulFiles σ view where
  entry_joinPath (s : σ) (directory : Text) {name : Text} {p : view.Place} :
    IsEntryName name → view.locate? s (joinPath directory name) = some p → entry p = name
  read_kept {s s' : σ} {path text : Text} {p : view.Place} :
    Writable s path text → (∀ path, view.locate? s' path = view.locate? s path) →
    view.locate? s' path = some p → view.node? s' p = some (.file (some text)) →
      (runOn s' (MonadFiles.readText? path : StateM σ _)).1 = some text
  remove_kept {s s' : σ} {path text : Text} {p : view.Place} :
    Writable s path text → (∀ path, view.locate? s' path = view.locate? s path) →
    view.locate? s' path = some p → view.node? s' p = some (.file (some text)) →
      (runOn s' (MonadFiles.remove path : StateM σ _)).1 = true

namespace FileSystem

/-- The name of what stands at a location. -/
def entry (l : Location) : Text :=
  l.names.headD []

theorem components_ne_nil (path : Text) : components path ≠ [] := by
  cases path with
  | nil => exact List.cons_ne_nil _ _
  | cons c path =>
      rw [components, List.foldr_cons]
      split
      next => exact List.cons_ne_nil _ _
      next => split <;> exact List.cons_ne_nil _ _

theorem components_cons {c : Char} (h : c ≠ '/') {path part : Text} {parts : List Text}
    (hpath : components path = part :: parts) :
    components (c :: path) = (c :: part) :: parts := by
  rw [components] at hpath ⊢
  rw [List.foldr_cons, if_neg h, hpath]

theorem components_slash (path : Text) : components ('/' :: path) = [] :: components path :=
  rfl

theorem components_of_notMem {name : Text} (h : '/' ∉ name) : components name = [name] := by
  induction name with
  | nil => rfl
  | cons c name ih =>
      rw [List.mem_cons, not_or] at h
      exact components_cons (Ne.symm h.1) (ih h.2)

theorem components_append_slash (path name : Text) :
    components (path ++ '/' :: name) = components path ++ components name := by
  induction path with
  | nil => rfl
  | cons c path ih =>
      rw [List.cons_append]
      by_cases hslash : c = '/'
      · subst hslash
        rw [components_slash, components_slash, ih, List.cons_append]
      · obtain ⟨part, parts, hpath⟩ := List.exists_cons_of_ne_nil (components_ne_nil path)
        rw [hpath, List.cons_append] at ih
        rw [components_cons hslash ih, components_cons hslash hpath, List.cons_append]

theorem components_joinPath (directory : Text) {name : Text} (h : '/' ∉ name) :
    ∃ parts, components (joinPath directory name) = parts ++ [name] := by
  have hhead : name.head? ≠ some '/' := fun hhead => h (List.mem_of_head? hhead)
  unfold joinPath
  split
  next => exact ⟨[], components_of_notMem h⟩
  next hdirectory =>
    rw [not_or] at hdirectory
    split
    next hlast =>
      obtain ⟨front, rfl⟩ := List.getLast?_eq_some_iff.mp hlast
      refine ⟨components front, ?_⟩
      rw [List.append_assoc, List.singleton_append, components_append_slash,
        components_of_notMem h]
    next =>
      refine ⟨components directory, ?_⟩
      rw [List.append_assoc, List.singleton_append, components_append_slash,
        components_of_notMem h]

theorem names_of_follow? {fs : FileSystem} {name : Text} (h : IsEntryName name)
    (parts : List Text) {l l' : Location} (hfollow : fs.follow? l (parts ++ [name]) = some l') :
    entry l' = name := by
  obtain ⟨hne, hdot, hdots, -⟩ := h
  induction parts generalizing l with
  | nil =>
      simp only [List.nil_append, follow?] at hfollow
      split at hfollow
      next =>
        rw [← Option.some.inj hfollow, step, if_neg (by simp [hne, hdot]), if_neg hdots]
        rfl
      next => exact absurd hfollow (by simp)
  | cons part parts ih =>
      simp only [List.cons_append, follow?] at hfollow
      split at hfollow
      next => exact ih hfollow
      next => exact absurd hfollow (by simp)

theorem entry_of_locate? {fs : FileSystem} (directory : Text) {name : Text} {l : Location}
    (h : IsEntryName name) (hlocate : fs.locate? (joinPath directory name) = some l) :
    entry l = name := by
  obtain ⟨parts, hparts⟩ := components_joinPath directory h.2.2.2
  unfold locate? at hlocate
  split at hlocate
  next => exact absurd hlocate (by simp)
  next =>
    rw [hparts] at hlocate
    exact names_of_follow? h parts hlocate

theorem node?_eq_none_of_entry {fs : FileSystem} {name : Text} (hname : name ≠ [])
    (h : ∀ e ∈ fs.nodes, entry e.1 ≠ name) {l : Location} (hl : entry l = name) :
    fs.node? l = none := by
  have hnames : l.names ≠ [] := by
    intro hnil
    rw [entry, hnil] at hl
    exact hname hl.symm
  rw [node?, if_neg hnames, List.lookup_eq_none_iff]
  intro e he
  rw [bne_iff_ne]
  rintro rfl
  exact h e he hl

theorem namedFiles : NamedFiles FileSystem view entry where
  toLawfulFiles := lawfulFiles
  entry_joinPath _ directory _ _ h hlocate := entry_of_locate? directory h hlocate
  read_kept {s s' path text p} _ _ hlocate hnode := by
    have hfound : (s'.locate? path).bind s'.node? = some (.file (some text)) := by
      rw [show s'.locate? path = some p from hlocate]
      exact hnode
    rw [runOn_readText?, readText?, hfound]
  remove_kept {s s' path text p} _ _ hlocate hnode := by
    rw [runOn_remove, remove_eq_of_file hlocate hnode]

end FileSystem

end Stencil
