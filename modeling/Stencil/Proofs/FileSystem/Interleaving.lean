import Mathlib.Data.Multiset.Filter
import Mathlib.Logic.Relation
import Stencil.Proofs.FileSystem.Task

/-!
Scratch files of many at once.  Any number of tasks put texts into scratch files, access by access
and in any order, and what they hold is read and dropped meanwhile.  As long as the names are fresh
no task meets the file of another one.
-/

namespace Stencil

variable {σ : Type} [MonadFiles (StateM σ)]

/-- The files, and all tasks that are under way or hold a file. -/
structure Pool (σ : Type) where
  files : σ
  tasks : Multiset Task

namespace Pool

variable {view : FileView σ} {entry : view.Place → Text}

variable (view entry) in
/-- What may happen next: a task is started under a fresh name, a task makes its next access, and
a file that is held is read or dropped. -/
inductive Step : Pool σ → Pool σ → Prop
  | start {s : σ} {tasks : Multiset Task} (cache : ScratchCache) (fresh text : Text) :
      cache.fileName = none → '/' ∉ fresh →
      (∀ task ∈ tasks, task.name ≠ cache.nextName fresh) →
      (∀ p, entry p = cache.nextName fresh → view.node? s p = none) →
      Step ⟨s, tasks⟩ ⟨s, .start cache fresh text ::ₘ tasks⟩
  | access (s : σ) (task : Task) (others : Multiset Task) :
      Step ⟨s, task ::ₘ others⟩ ⟨(task.step s).2, (task.step s).1 ::ₘ others⟩
  | read {s : σ} {task : Task} {others : Multiset Task} {path : Text} :
      task.path? = some path →
      Step ⟨s, task ::ₘ others⟩
        ⟨(runOn s (ScratchCache.read path : StateM σ _)).2, task ::ₘ others⟩
  | drop {s : σ} {task : Task} {others : Multiset Task} {path : Text} :
      task.path? = some path →
      Step ⟨s, task ::ₘ others⟩
        ⟨(runOn s (ScratchCache.drop path : StateM σ _)).2, others⟩

variable (view entry) in
/-- What holds of every pool that has come from files without any tasks: its tasks have names of
their own, and nothing has changed but the places of the files that they hold. -/
structure Consistent (s₀ : σ) (pool : Pool σ) : Prop where
  locate?_eq : ∀ path, view.locate? pool.files path = view.locate? s₀ path
  names_nodup : (pool.tasks.map Task.name).Nodup
  tasks : ∀ task ∈ pool.tasks, task.Consistent view entry s₀ pool.files
  unheld : ∀ p, (∀ task ∈ pool.tasks, ¬ task.HoldsAt view s₀ p) →
    view.node? pool.files p = view.node? s₀ p

theorem consistent_empty (s₀ : σ) : Consistent view entry s₀ ⟨s₀, 0⟩ := by
  refine ⟨fun _ => rfl, Multiset.nodup_zero, ?_, fun _ _ => rfl⟩
  intro task htask
  exact absurd htask (Multiset.notMem_zero task)

namespace Consistent

variable {s₀ s s' : σ} {task task' : Task} {others : Multiset Task} {path : Text}

theorem name_notMem (h : Consistent view entry s₀ ⟨s, task ::ₘ others⟩) :
    task.name ∉ others.map Task.name ∧ (others.map Task.name).Nodup := by
  have hnodup := h.names_nodup
  rwa [Multiset.map_cons, Multiset.nodup_cons] at hnodup

theorem name_ne (h : Consistent view entry s₀ ⟨s, task ::ₘ others⟩) {other : Task}
    (hother : other ∈ others) : other.name ≠ task.name :=
  fun he => h.name_notMem.1 (he ▸ Multiset.mem_map_of_mem Task.name hother)

theorem node?_eq_none (files : NamedFiles σ view entry)
    (h : Consistent view entry s₀ ⟨s, task ::ₘ others⟩) (hpath : task.path? = none)
    {p : view.Place} (hp : entry p = task.name) : view.node? s p = none := by
  have htask := h.tasks task (Multiset.mem_cons_self _ _)
  rw [h.unheld p, htask.fresh p hp]
  refine Multiset.forall_mem_cons.mpr ⟨Task.not_holdsAt hpath s₀ p, ?_⟩
  intro other hother hholds
  have hentry := (h.tasks other (Multiset.mem_cons_of_mem hother)).entry_eq files hholds
  exact h.name_ne hother (hentry.symm.trans hp)

/-- What happens at a place with the name of one task is no matter to the others. -/
theorem consistent_others (files : NamedFiles σ view entry)
    (h : Consistent view entry s₀ ⟨s, task ::ₘ others⟩) {p : view.Place} {n : Option Node}
    (hp : entry p = task.name) (hsets : view.Sets s s' p n) :
    ∀ other ∈ others, other.Consistent view entry s₀ s' := by
  intro other hother
  have hown := h.tasks other (Multiset.mem_cons_of_mem hother)
  refine hown.congr fun q hholds => hsets.node?_ne q ?_
  rintro rfl
  exact h.name_ne hother ((hown.entry_eq files hholds).symm.trans hp)

theorem start (files : NamedFiles σ view entry) {tasks : Multiset Task}
    (h : Consistent view entry s₀ ⟨s, tasks⟩) {cache : ScratchCache} {fresh : Text} (text : Text)
    (hfileName : cache.fileName = none) (hslash : '/' ∉ fresh)
    (hnames : ∀ task ∈ tasks, task.name ≠ cache.nextName fresh)
    (hentries : ∀ p, entry p = cache.nextName fresh → view.node? s p = none) :
    Consistent view entry s₀ ⟨s, .start cache fresh text ::ₘ tasks⟩ := by
  have hpath : (Task.start cache fresh text).path? = none := rfl
  refine ⟨h.locate?_eq, ?_, ?_, ?_⟩
  · rw [Multiset.map_cons, Multiset.nodup_cons]
    refine ⟨fun hmem => ?_, h.names_nodup⟩
    obtain ⟨task, htask, hname⟩ := Multiset.mem_map.mp hmem
    exact hnames task htask hname
  · refine Multiset.forall_mem_cons.mpr ⟨?_, h.tasks⟩
    have hname : IsEntryName (Task.start cache fresh text).name :=
      Task.isEntryName_name hfileName hslash
    refine .of_path?_eq_none hname (fun p hp => ?_) (.started rfl) hpath
    rw [← h.unheld p, hentries p hp]
    intro other hother hholds
    exact hnames other hother (((h.tasks other hother).entry_eq files hholds).symm.trans hp)
  · intro p hp
    exact h.unheld p (Multiset.forall_mem_cons.mp hp).2

theorem access (files : NamedFiles σ view entry)
    (h : Consistent view entry s₀ ⟨s, task ::ₘ others⟩) :
    Consistent view entry s₀ ⟨(task.step s).2, (task.step s).1 ::ₘ others⟩ := by
  have htask := h.tasks task (Multiset.mem_cons_self _ _)
  cases hpath : task.path? with
  | some path =>
      rw [Task.step_of_done (Task.rest_of_path? hpath)]
      exact h
  | none =>
      have hnames : (((task.step s).1 ::ₘ others).map Task.name).Nodup := by
        rw [Multiset.map_cons, Multiset.nodup_cons]
        exact h.name_notMem
      obtain ⟨hstaging, ⟨hfiles, hnone⟩ | ⟨path, p, hputs⟩⟩ :=
        Task.step_cases files htask.name htask.staging hpath
          (fun p => h.node?_eq_none files hpath)
      · rw [hfiles]
        refine ⟨h.locate?_eq, hnames, ?_, ?_⟩
        · refine Multiset.forall_mem_cons.mpr ⟨?_, (Multiset.forall_mem_cons.mp h.tasks).2⟩
          exact .of_path?_eq_none htask.name htask.fresh hstaging hnone
        · intro p hp
          exact h.unheld p (Multiset.forall_mem_cons.mpr
            ⟨Task.not_holdsAt hpath s₀ p, (Multiset.forall_mem_cons.mp hp).2⟩)
      · have hlocate : view.locate? s₀ path = some p := by
          rw [← h.locate?_eq]
          exact hputs.locate?
        have hentry : entry p = (task.step s).1.name :=
          Task.entry_of_holdsAt files htask.name hstaging ⟨path, hputs.path?, hlocate⟩
        refine ⟨?_, hnames, ?_, ?_⟩
        · intro path
          exact (hputs.sets.locate?_eq path).trans (h.locate?_eq path)
        · refine Multiset.forall_mem_cons.mpr
            ⟨⟨htask.name, htask.fresh, hstaging, fun path' hpath' => ?_⟩,
              h.consistent_others files hentry hputs.sets⟩
          obtain rfl := Option.some.inj (hputs.path?.symm.trans hpath')
          exact ⟨p, hlocate, hputs.sets.node?_eq, s, h.locate?_eq, hputs.writable⟩
        · intro q hq
          have hne : q ≠ p := by
            rintro rfl
            exact hq _ (Multiset.mem_cons_self _ _) ⟨path, hputs.path?, hlocate⟩
          refine (hputs.sets.node?_ne q hne).trans ?_
          exact h.unheld q (Multiset.forall_mem_cons.mpr
            ⟨Task.not_holdsAt hpath s₀ q, (Multiset.forall_mem_cons.mp hq).2⟩)

theorem stands {pool : Pool σ} (h : Consistent view entry s₀ pool) (htask : task ∈ pool.tasks)
    (hpath : task.path? = some path) :
    ∃ p, view.locate? s₀ path = some p ∧ view.locate? pool.files path = some p ∧
      view.node? pool.files p = some (.file (some task.text)) ∧
      ∃ s, (∀ path, view.locate? pool.files path = view.locate? s path) ∧
        Writable s path task.text := by
  obtain ⟨p, hlocate, hnode, s, hsame, hwritable⟩ := (h.tasks task htask).held path hpath
  refine ⟨p, hlocate, (h.locate?_eq path).trans hlocate, hnode, s, fun path => ?_, hwritable⟩
  rw [h.locate?_eq, hsame]

/-- An access by which a task does not come to hold a file changes nothing. -/
theorem files_step (files : NamedFiles σ view entry) {pool : Pool σ}
    (h : Consistent view entry s₀ pool) (htask : task ∈ pool.tasks)
    (hnone : (task.step pool.files).1.path? = none) : (task.step pool.files).2 = pool.files := by
  obtain ⟨s, tasks⟩ := pool
  obtain ⟨others, rfl⟩ := Multiset.exists_cons_of_mem htask
  have hown := h.tasks task htask
  cases hpath : task.path? with
  | some path => rw [Task.step_of_done (Task.rest_of_path? hpath)]
  | none =>
      obtain ⟨-, ⟨hfiles, -⟩ | ⟨path, p, hputs⟩⟩ :=
        Task.step_cases files hown.name hown.staging hpath
          (fun p => h.node?_eq_none files hpath)
      · exact hfiles
      · exact absurd (hnone.symm.trans hputs.path?) (by simp)

theorem read (files : NamedFiles σ view entry) {pool : Pool σ}
    (h : Consistent view entry s₀ pool) (htask : task ∈ pool.tasks)
    (hpath : task.path? = some path) :
    runOn pool.files (ScratchCache.read path : StateM σ _) = (.ok task.text, pool.files) := by
  obtain ⟨p, -, hlocate, hnode, s, hsame, hwritable⟩ := h.stands htask hpath
  have hread := files.read_kept hwritable hsame hlocate hnode
  simp only [ScratchCache.read, runOn_bind, hread, files.readText?_state]
  rfl

theorem drop (files : NamedFiles σ view entry)
    (h : Consistent view entry s₀ ⟨s, task ::ₘ others⟩) (hpath : task.path? = some path) :
    Consistent view entry s₀ ⟨(runOn s (ScratchCache.drop path : StateM σ _)).2, others⟩ := by
  have htask := h.tasks task (Multiset.mem_cons_self _ _)
  obtain ⟨p, hlocate₀, hlocate, hnode, s', hsame, hwritable⟩ :=
    h.stands (Multiset.mem_cons_self _ _) hpath
  have hremove := files.remove_kept hwritable hsame hlocate hnode
  obtain ⟨q, content, hq, -, hsets⟩ := files.remove_done s path hremove
  obtain rfl : q = p := Option.some.inj (hq.symm.trans hlocate)
  have hentry := htask.entry_eq files ⟨path, hpath, hlocate₀⟩
  have hdropped : (runOn s (ScratchCache.drop path : StateM σ _)).2 =
      (runOn s (MonadFiles.remove path : StateM σ Bool)).2 := rfl
  rw [hdropped]
  refine ⟨?_, h.name_notMem.2, h.consistent_others files hentry hsets, ?_⟩
  · intro path
    exact (hsets.locate?_eq path).trans (h.locate?_eq path)
  · intro r hr
    by_cases hplace : r = q
    · rw [hplace, htask.fresh q hentry]
      exact hsets.node?_eq
    · have hkept := hsets.node?_ne r hplace
      refine hkept.trans (h.unheld r (Multiset.forall_mem_cons.mpr ⟨?_, hr⟩))
      rintro ⟨path', hpath', hr'⟩
      obtain rfl := Option.some.inj (hpath.symm.trans hpath')
      exact hplace (Option.some.inj (hr'.symm.trans hlocate₀))

theorem step (files : NamedFiles σ view entry) {pool pool' : Pool σ}
    (h : Consistent view entry s₀ pool) (hstep : Step view entry pool pool') :
    Consistent view entry s₀ pool' := by
  cases hstep with
  | start cache fresh text hfileName hslash hnames hentries =>
      exact h.start files text hfileName hslash hnames hentries
  | access s task others => exact h.access files
  | read hpath =>
      rw [h.read files (Multiset.mem_cons_self _ _) hpath]
      exact h
  | drop hpath => exact h.drop files hpath

theorem run (files : NamedFiles σ view entry) {pool pool' : Pool σ}
    (h : Consistent view entry s₀ pool)
    (hrun : Relation.ReflTransGen (Step view entry) pool pool') :
    Consistent view entry s₀ pool' := by
  induction hrun with
  | refl => exact h
  | tail _ hstep ih => exact ih.step files hstep

theorem paths_nodup (files : NamedFiles σ view entry) {tasks : Multiset Task}
    (h : Consistent view entry s₀ ⟨s, tasks⟩) : (tasks.filterMap Task.path?).Nodup := by
  induction tasks using Quot.inductionOn with
  | h list =>
      have hnames : (list.map Task.name).Nodup := h.names_nodup
      rw [List.Nodup, List.pairwise_map] at hnames
      apply List.pairwise_filterMap.mpr
      refine hnames.imp_of_mem ?_
      rintro task other htask hother hne path hpath path' hpath' rfl
      obtain ⟨p, hlocate, -⟩ := h.stands htask hpath
      have hentry := (h.tasks task htask).entry_eq files ⟨path, hpath, hlocate⟩
      have hentry' := (h.tasks other hother).entry_eq files ⟨path, hpath', hlocate⟩
      exact hne (hentry.symm.trans hentry')

end Consistent

/-- Whatever any number of tasks do in any order, as long as their names are fresh: a file that is
held holds the text that was put there, no two are held at one path, an access that does not put a
file in place changes nothing, and nothing ever differs from the beginning but the places of files
that are held, which were empty. -/
theorem scratch_files_never_collide (files : NamedFiles σ view entry) {s₀ : σ} {pool : Pool σ}
    (hrun : Relation.ReflTransGen (Step view entry) ⟨s₀, 0⟩ pool) :
    (∀ task ∈ pool.tasks, ∀ path, task.path? = some path →
        runOn pool.files (ScratchCache.read path : StateM σ _) = (.ok task.text, pool.files)) ∧
      (pool.tasks.filterMap Task.path?).Nodup ∧
      (∀ task ∈ pool.tasks, (task.step pool.files).1.path? = none →
        (task.step pool.files).2 = pool.files) ∧
      (∀ path, view.locate? pool.files path = view.locate? s₀ path) ∧
      (∀ p, (∃ task ∈ pool.tasks, task.HoldsAt view s₀ p) → view.node? s₀ p = none) ∧
      (∀ p, (¬ ∃ task ∈ pool.tasks, task.HoldsAt view s₀ p) →
        view.node? pool.files p = view.node? s₀ p) ∧
      ((∀ task ∈ pool.tasks, task.path? = none) →
        ∀ p, view.node? pool.files p = view.node? s₀ p) := by
  have h := Consistent.run files (consistent_empty s₀) hrun
  refine ⟨?_, h.paths_nodup files, ?_, h.locate?_eq, ?_, ?_, ?_⟩
  · intro task htask path hpath
    exact h.read files htask hpath
  · intro task htask hnone
    exact h.files_step files htask hnone
  · rintro p ⟨task, htask, hholds⟩
    have hown := h.tasks task htask
    exact hown.fresh p (hown.entry_eq files hholds)
  · intro p hp
    exact h.unheld p fun task htask hholds => hp ⟨task, htask, hholds⟩
  · intro hnone p
    exact h.unheld p fun task htask => Task.not_holdsAt (hnone task htask) s₀ p

/-- Two tasks check their paths, one after the other, before either of them writes.  The second one
is refused by its own directory and takes that of the first. -/
theorem two_tasks_in_one_directory :
    let files : FileSystem := FileSystem.put { temporary := ['t'] } "d/kept".toList (some ['k'])
    ∃ pool, Relation.ReflTransGen (Step FileSystem.view FileSystem.entry) ⟨files, 0⟩ pool ∧
      pool.tasks.filterMap Task.path? =
        {"d/tpl_1.compiled".toList, "d/tpl_2.compiled".toList} ∧
      ∀ task ∈ pool.tasks, ∀ path, task.path? = some path →
        runOn pool.files (ScratchCache.read path : StateM FileSystem _) =
          (.ok task.text, pool.files) := by
  intro files
  have hempty (name : Text) (hname : name ≠ []) (h : ∀ e ∈ files.nodes, FileSystem.entry e.1 ≠ name)
      (p : Location) (hp : FileSystem.entry p = name) : files.node? p = none :=
    FileSystem.node?_eq_none_of_entry hname h hp
  have hrun := Relation.ReflTransGen.refl (r := Step FileSystem.view FileSystem.entry)
    (a := ⟨files, 0⟩)
  have hrun := hrun.tail (.start ⟨['d'], ['t'], none⟩ ['1'] ['x'] rfl (by decide) (by simp)
    (hempty _ (by decide) (by decide)))
  have hrun := hrun.tail (.start ⟨['n'], ['d'], none⟩ ['2'] ['y'] rfl (by decide) (by decide)
    (hempty _ (by decide) (by decide)))
  have hrun := hrun.tail (.access _ _ _)
  rw [Multiset.cons_swap] at hrun
  have hrun := (hrun.tail (.access _ _ _)).tail (.access _ _ _)
  rw [Multiset.cons_swap] at hrun
  have hrun := (hrun.tail (.access _ _ _)).tail (.access _ _ _)
  refine ⟨_, hrun, ?_, (scratch_files_never_collide FileSystem.namedFiles hrun).1⟩
  decide +kernel

end Pool

end Stencil
