import Stencil.Proofs.FileSystem.Naming

/-!
Scratch files access by access.  A task puts a text into a scratch file and then holds the file;
between its accesses to the files others may take place.  As long as nothing has the name of its
file, each of its accesses changes nothing or puts the file in place.
-/

namespace Stencil

variable {σ α β : Type} [MonadFiles (StateM σ)]

/-- A single access to the files. -/
inductive FileAccess where
  | readText? (path : Text)
  | occupied (path : Text)
  | remove (path : Text)
  | write (path text : Text)
  | temporaryDirectory

namespace FileAccess

/-- What an access gives. -/
def Answer : FileAccess → Type
  | readText? _ => Option Text
  | occupied _ | remove _ | write _ _ => Bool
  | temporaryDirectory => Text

/-- An access as it is made on the files. -/
def perform : (request : FileAccess) → StateM σ request.Answer
  | readText? path => MonadFiles.readText? path
  | occupied path => MonadFiles.occupied path
  | remove path => MonadFiles.remove path
  | write path text => MonadFiles.write path text
  | temporaryDirectory => MonadFiles.temporaryDirectory

end FileAccess

/-- A computation on files as the accesses that it makes one after the other. -/
inductive Process (α : Type) where
  | done (a : α)
  | access (request : FileAccess) (next : request.Answer → Process α)

namespace Process

def bind : Process α → (α → Process β) → Process β
  | .done a, f => f a
  | .access request next, f => .access request fun answer => (next answer).bind f

instance : Monad Process where
  pure := .done
  bind := bind

instance : MonadFiles Process where
  readText? path := .access (.readText? path) .done
  occupied path := .access (.occupied path) .done
  remove path := .access (.remove path) .done
  write path text := .access (.write path text) .done
  temporaryDirectory := .access .temporaryDirectory .done

/-- What is left of a process when it makes its next access, and the files behind that. -/
def step (s : σ) : Process α → Process α × σ
  | .done a => (.done a, s)
  | .access request next =>
      (next (runOn s request.perform).1, (runOn s request.perform).2)

/-- The process without any interruption. -/
def run : Process α → StateM σ α
  | .done a => pure a
  | .access request next => do (next (← request.perform)).run

theorem run_bind (x : Process α) (f : α → Process β) :
    ((x >>= f).run : StateM σ β) = x.run >>= fun a => (f a).run := by
  induction x with
  | done a => rfl
  | access request next ih =>
      funext s
      exact congrFun (ih (runOn s request.perform).1) (runOn s request.perform).2

theorem run_pure (a : α) : ((pure a : Process α).run : StateM σ α) = pure a :=
  rfl

theorem run_ite (c : Prop) [Decidable c] (x y : Process α) :
    ((if c then x else y).run : StateM σ α) = if c then x.run else y.run :=
  apply_ite _ c x y

theorem run_occupied (path : Text) :
    ((MonadFiles.occupied path : Process Bool).run : StateM σ Bool) = MonadFiles.occupied path :=
  rfl

theorem run_remove (path : Text) :
    ((MonadFiles.remove path : Process Bool).run : StateM σ Bool) = MonadFiles.remove path :=
  rfl

theorem run_write (path text : Text) :
    ((MonadFiles.write path text : Process Bool).run : StateM σ Bool) =
      MonadFiles.write path text :=
  rfl

/-- Without any interruption a text is put into a scratch file as by the cache. -/
theorem run_stage (cache : ScratchCache) (fresh text : Text) :
    ((cache.stage fresh text : Process _).run : StateM σ _) = cache.stage fresh text := by
  simp only [ScratchCache.stage, run_bind, run_ite, run_pure, run_occupied, run_remove, run_write]

theorem stage_eq (cache : ScratchCache) (fresh text : Text) :
    (cache.stage fresh text : Process _) = .access (.occupied (cache.primary fresh))
      fun (occupied : Bool) =>
        if occupied then
          .access (.remove (cache.primary fresh)) fun (removed : Bool) =>
            if !removed then .done (.error (.stale (cache.primary fresh)))
            else cache.writeEither fresh text
        else cache.writeEither fresh text :=
  rfl

theorem writeEither_eq (cache : ScratchCache) (fresh text : Text) :
    (cache.writeEither fresh text : Process _) = .access (.write (cache.primary fresh) text)
      fun (written : Bool) =>
        if written then .done (.ok (cache.primary fresh))
        else .access (.write (cache.secondary fresh) text) fun (written : Bool) =>
          if written then .done (.ok (cache.secondary fresh))
          else .done (.error (.unwritable (cache.primary fresh) (cache.secondary fresh))) :=
  rfl

end Process

/-- A task that puts a text into a scratch file, or has done so and holds the file. -/
structure Task where
  cache : ScratchCache
  fresh : Text
  text : Text
  rest : Process (Except ScratchError Text)

namespace Task

/-- The task that is about to stage a text. -/
def start (cache : ScratchCache) (fresh text : Text) : Task :=
  ⟨cache, fresh, text, cache.stage fresh text⟩

/-- The name of the file of a task, whatever its directory. -/
def name (task : Task) : Text :=
  task.cache.nextName task.fresh

/-- The path of the file that a task holds. -/
def path? (task : Task) : Option Text :=
  match task.rest with
  | .done (.ok path) => some path
  | _ => none

/-- The task with its next access made, and the files behind that. -/
def step (s : σ) (task : Task) : Task × σ :=
  ({ task with rest := (task.rest.step s).1 }, (task.rest.step s).2)

/-- The task holds the file at a place. -/
def HoldsAt (view : FileView σ) (s : σ) (task : Task) (p : view.Place) : Prop :=
  ∃ path, task.path? = some path ∧ view.locate? s path = some p

/-- How far a task may have come whose file is not in the way of others. -/
inductive Staging (task : Task) : Prop
  | started (h : task.rest = task.cache.stage task.fresh task.text)
  | free (h : task.rest = task.cache.writeEither task.fresh task.text)
  | refused (h : task.rest = .access (.write (task.cache.secondary task.fresh) task.text)
      fun (written : Bool) =>
        if written then .done (.ok (task.cache.secondary task.fresh))
        else .done (.error (.unwritable (task.cache.primary task.fresh)
          (task.cache.secondary task.fresh))))
  | failed {e : ScratchError} (h : task.rest = .done (.error e))
  | held {directory : Text} (h : task.rest = .done (.ok (joinPath directory task.name)))

variable {view : FileView σ} {entry : view.Place → Text} {task : Task} {path : Text}

theorem rest_of_path? (h : task.path? = some path) : task.rest = .done (.ok path) := by
  unfold path? at h
  split at h
  next held hrest => rw [hrest, Option.some.inj h]
  next => exact absurd h (by simp)

theorem not_holdsAt {σ : Type} {view : FileView σ} (h : task.path? = none) (s : σ)
    (p : view.Place) : ¬ task.HoldsAt view s p := by
  rintro ⟨path, hpath, -⟩
  exact absurd (h.symm.trans hpath) (by simp)

theorem path?_of_rest {e : Except ScratchError Text} (h : task.rest = .done e) :
    task.path? = e.toOption := by
  unfold path?
  rw [h]
  cases e with
  | error e => rfl
  | ok path => rfl

theorem isEntryName_name (hname : task.cache.fileName = none) (hfresh : '/' ∉ task.fresh) :
    IsEntryName task.name := by
  have hform : task.name = 't' :: ("pl_".toList ++ task.fresh ++ ".compiled".toList) := by
    rw [name, ScratchCache.nextName, hname]
    rfl
  rw [hform]
  refine ⟨by simp, by simp, by simp, ?_⟩
  simp only [List.mem_cons, List.mem_append, not_or]
  exact ⟨by decide, ⟨by decide, hfresh⟩, by decide⟩

theorem entry_of_holdsAt (files : NamedFiles σ view entry) {s : σ} {p : view.Place}
    (hname : IsEntryName task.name) (hstaging : task.Staging) (h : task.HoldsAt view s p) :
    entry p = task.name := by
  obtain ⟨path, hpath, hlocate⟩ := h
  have hrest := rest_of_path? hpath
  cases hstaging with
  | started h => exact absurd (h.symm.trans hrest) (by simp [Process.stage_eq])
  | free h => exact absurd (h.symm.trans hrest) (by simp [Process.writeEither_eq])
  | refused h => exact absurd (h.symm.trans hrest) (by simp)
  | failed h => exact absurd (h.symm.trans hrest) (by simp)
  | @held directory h =>
      have hheld : joinPath directory task.name = path := by
        simpa using h.symm.trans hrest
      rw [← hheld] at hlocate
      exact files.entry_joinPath s directory hname hlocate

theorem step_of_done {outcome : Except ScratchError Text} (h : task.rest = .done outcome) (s : σ) :
    task.step s = (task, s) := by
  obtain ⟨cache, fresh, text, rest⟩ := task
  obtain rfl : rest = .done outcome := h
  rfl

theorem step_of_access {request : FileAccess}
    {next : request.Answer → Process (Except ScratchError Text)}
    (h : task.rest = .access request next) (s : σ) :
    task.step s = ({ task with rest := next (runOn s request.perform).1 },
      (runOn s request.perform).2) := by
  rw [step, h]
  rfl

theorem step_of_occupied {next : Bool → Process (Except ScratchError Text)}
    (h : task.rest = .access (.occupied path) next) (s : σ) :
    task.step s =
      ({ task with rest := next (runOn s (MonadFiles.occupied path : StateM σ Bool)).1 },
        (runOn s (MonadFiles.occupied path : StateM σ Bool)).2) :=
  step_of_access h s

variable (view) in
/-- The next access of the task puts its file in place. -/
structure Puts (s : σ) (task : Task) (path : Text) (p : view.Place) : Prop where
  path? : (task.step s).1.path? = some path
  writable : Writable s path task.text
  locate? : view.locate? s path = some p
  sets : view.Sets s (task.step s).2 p (some (.file (some task.text)))

theorem step_of_write (files : LawfulFiles σ view)
    {next : Bool → Process (Except ScratchError Text)}
    (h : task.rest = .access (.write path task.text) next)
    (hwritten : next true = .done (.ok path)) (s : σ) :
    task.step s = ({ task with rest := next false }, s) ∨
      (task.step s).1 = { task with rest := .done (.ok path) } ∧ ∃ p, task.Puts view s path p := by
  have hstep := step_of_access h s
  cases hwrite : (runOn s (MonadFiles.write path task.text : StateM σ Bool)).1 with
  | false =>
      left
      rw [hstep]
      exact Prod.ext (congrArg (fun written => { task with rest := next written }) hwrite)
        (files.write_failed s path task.text hwrite)
  | true =>
      have hrest : (task.step s).1 = { task with rest := .done (.ok path) } := by
        rw [hstep, ← hwritten]
        exact congrArg (fun written => { task with rest := next written }) hwrite
      obtain ⟨p, hlocate, hsets⟩ := files.write_done s path task.text hwrite
      refine Or.inr ⟨hrest, p, ?_, hwrite, hlocate, ?_⟩
      · rw [hrest]
        rfl
      · rw [hstep]
        exact hsets

/-- A task that holds no file makes an access that changes nothing, or that puts its file in place:
nothing is removed, since nothing has the name of the file. -/
theorem step_cases (files : NamedFiles σ view entry) {s : σ} (hname : IsEntryName task.name)
    (hstaging : task.Staging) (hpath : task.path? = none)
    (hempty : ∀ p, entry p = task.name → view.node? s p = none) :
    (task.step s).1.Staging ∧
      ((task.step s).2 = s ∧ (task.step s).1.path? = none ∨
        ∃ path p, task.Puts view s path p) := by
  cases hstaging with
  | started h =>
      have hfree : runOn s (MonadFiles.occupied (task.cache.primary task.fresh) : StateM σ _) =
          (false, s) := by
        rw [files.runOn_occupied]
        cases hlocate : view.locate? s (task.cache.primary task.fresh) with
        | none => rfl
        | some p =>
            have hnone := hempty p (files.entry_joinPath s _ hname hlocate)
            simp [hnone]
      rw [Process.stage_eq] at h
      rw [step_of_occupied h, hfree]
      exact ⟨.free rfl, Or.inl ⟨rfl, rfl⟩⟩
  | free h =>
      rw [Process.writeEither_eq] at h
      rcases step_of_write files.toLawfulFiles h rfl s with hstep | ⟨hrest, p, hputs⟩
      · rw [hstep]
        exact ⟨.refused rfl, Or.inl ⟨rfl, rfl⟩⟩
      · refine ⟨?_, Or.inr ⟨_, p, hputs⟩⟩
        rw [hrest]
        exact .held rfl
  | refused h =>
      rcases step_of_write files.toLawfulFiles h rfl s with hstep | ⟨hrest, p, hputs⟩
      · rw [hstep]
        exact ⟨.failed rfl, Or.inl ⟨rfl, rfl⟩⟩
      · refine ⟨?_, Or.inr ⟨_, p, hputs⟩⟩
        rw [hrest]
        exact .held rfl
  | failed h =>
      rw [step_of_done h]
      exact ⟨.failed h, Or.inl ⟨rfl, hpath⟩⟩
  | held h =>
      rw [path?_of_rest h] at hpath
      exact absurd hpath (by simp [Except.toOption])

variable (view entry) in
/-- What holds of every task of a pool that has come from certain files: nothing there had its name,
and where it holds a file its text can be found. -/
structure Consistent (s₀ s : σ) (task : Task) : Prop where
  name : IsEntryName task.name
  fresh : ∀ p, entry p = task.name → view.node? s₀ p = none
  staging : task.Staging
  held : ∀ path, task.path? = some path →
    ∃ p, view.locate? s₀ path = some p ∧ view.node? s p = some (.file (some task.text)) ∧
      ∃ s', (∀ path, view.locate? s' path = view.locate? s₀ path) ∧ Writable s' path task.text

namespace Consistent

variable {s₀ s s' : σ}

theorem congr (h : task.Consistent view entry s₀ s)
    (hnodes : ∀ p, task.HoldsAt view s₀ p → view.node? s' p = view.node? s p) :
    task.Consistent view entry s₀ s' := by
  refine ⟨h.name, h.fresh, h.staging, fun path hpath => ?_⟩
  obtain ⟨p, hlocate, hnode, hwritten⟩ := h.held path hpath
  refine ⟨p, hlocate, ?_, hwritten⟩
  rw [hnodes p ⟨path, hpath, hlocate⟩, hnode]

theorem of_path?_eq_none (hname : IsEntryName task.name)
    (hfresh : ∀ p, entry p = task.name → view.node? s₀ p = none) (hstaging : task.Staging)
    (hpath : task.path? = none) : task.Consistent view entry s₀ s := by
  refine ⟨hname, hfresh, hstaging, fun path hheld => ?_⟩
  exact absurd (hpath.symm.trans hheld) (by simp)

theorem entry_eq (files : NamedFiles σ view entry) (h : task.Consistent view entry s₀ s)
    {p : view.Place} (hholds : task.HoldsAt view s₀ p) : entry p = task.name :=
  entry_of_holdsAt files h.name h.staging hholds

end Consistent

end Task

end Stencil
