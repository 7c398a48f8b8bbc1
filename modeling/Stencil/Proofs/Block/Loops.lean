import Stencil.Proofs.Block.Expansion

namespace Stencil.Part

open Text

/-- The fields of a row under the names that they have in the loop of a key. -/
def rowEntries (key : Text) (row : Row) : List (Text × Text) :=
  row.entries.map fun e => (key ++ ['.'] ++ e.1, e.2)

/-- The fields of a row are named by keys, and their texts are plain. -/
def PlainRow (row : Row) : Prop :=
  ∀ e ∈ row.entries, isKey e.1 ∧ Plain e.2

instance (row : Row) : Decidable (PlainRow row) :=
  inferInstanceAs (Decidable (∀ e ∈ row.entries, isKey e.1 ∧ Plain e.2))

theorem plain_of_mem_rowEntries {key : Text} (hkey : isKey key) {row : Row} (hrow : PlainRow row)
    {e : Text × Text} (he : e ∈ rowEntries key row) : Plain e.1 ∧ Plain e.2 := by
  obtain ⟨field, hfield, rfl⟩ := List.mem_map.mp he
  obtain ⟨hname, hvalue⟩ := hrow field hfield
  exact ⟨plain_field hkey (plain_of_isKey hname), hvalue⟩

theorem instantiate_source {key : Text} (hkey : isKey key) {row : Row} (hrow : PlainRow row)
    {body : List Leaf} (hbody : ∀ l ∈ body, l.WellFormed) :
    Block.instantiate key (body.flatMap Leaf.source) row =
      (body.map (Leaf.fill (rowEntries key row))).flatMap Leaf.source := by
  have hleaves : ∀ p ∈ body.map leaf, p.WellFormed := by
    intro p hp
    obtain ⟨l, hl, rfl⟩ := List.mem_map.mp hp
    exact hbody l hl
  have hentries : ∀ e ∈ rowEntries key row, Plain e.1 ∧ Plain e.2 := fun e he =>
    plain_of_mem_rowEntries hkey hrow he
  have hfold := foldl_replaceAll_source hentries hleaves
  have hfill : (body.map leaf).map (fill (rowEntries key row)) =
      (body.map (Leaf.fill (rowEntries key row))).map leaf := by
    simp only [List.map_map]
    rfl
  rw [hfill, flatMap_source_leaves, flatMap_source_leaves] at hfold
  rw [← hfold, rowEntries, List.foldl_map]
  rfl

/-- The leaves of a loop, for each row once. -/
def rowLeaves (key : Text) (rows : List Row) (body : List Leaf) : List Leaf :=
  rows.flatMap fun row => body.map (Leaf.fill (rowEntries key row))

theorem keepsLeaves_rowLeaves {loops : List (Text × List Row)}
    (hrows : ∀ e ∈ loops, ∀ row ∈ e.2, PlainRow row) : KeepsLeaves rowLeaves loops := by
  intro e he body hkey hbody l hl
  obtain ⟨row, hrow, hl⟩ := List.mem_flatMap.mp hl
  obtain ⟨l', hl', rfl⟩ := List.mem_map.mp hl
  apply Leaf.wellFormed_fill _ (hbody l' hl')
  intro entry hentry
  exact (plain_of_mem_rowEntries hkey (hrows e he row hrow) hentry).2

theorem flatMap_instantiate_source {key : Text} (hkey : isKey key) {rows : List Row}
    (hrows : ∀ row ∈ rows, PlainRow row) {body : List Leaf} (hbody : ∀ l ∈ body, l.WellFormed) :
    rows.flatMap (Block.instantiate key (body.flatMap Leaf.source)) =
      (rowLeaves key rows body).flatMap Leaf.source := by
  rw [rowLeaves, List.flatMap_assoc]
  induction rows with
  | nil => rfl
  | cons row rows ih =>
      rw [List.flatMap_cons, List.flatMap_cons, instantiate_source hkey (hrows row (by simp)) hbody,
        ih fun r hr => hrows r (List.mem_cons_of_mem _ hr)]

theorem exists_split_of_mem {key : Text} {parts : List Part}
    (hmem : some key ∈ parts.map loopKey?) (hnodup : (parts.filterMap loopKey?).Nodup) :
    ∃ front body back, parts = front ++ block .loop key body :: back ∧
      (∀ p ∈ front, p.Apart .loop key) ∧ ∀ p ∈ back, p.Apart .loop key := by
  obtain ⟨p, hp, hkey⟩ := List.mem_map.mp hmem
  obtain ⟨front, back, rfl⟩ := List.append_of_mem hp
  have hblock : ¬ p.Apart .loop key := by
    rcases p with l | ⟨_ | _, key', body⟩
    · simp [loopKey?] at hkey
    · simp [loopKey?] at hkey
    · obtain rfl := Option.some.inj hkey
      simp [Apart]
  obtain ⟨body, rfl⟩ := eq_block_of_not_apart hblock
  rw [List.filterMap_append, List.filterMap_cons_some hkey, List.nodup_append] at hnodup
  obtain ⟨-, hback, hne⟩ := hnodup
  refine ⟨front, body, back, rfl, ?_, ?_⟩
  · intro q hq
    apply apart_of_loopKey?_ne
    intro hq'
    exact hne key (List.mem_filterMap.mpr ⟨q, hq, hq'⟩) key (by simp) rfl
  · intro q hq
    apply apart_of_loopKey?_ne
    intro hq'
    exact (List.nodup_cons.mp hback).1 (List.mem_filterMap.mpr ⟨q, hq, hq'⟩)

theorem fst_resolveLoop_source {key : Text} (hkey : isKey key) {rows : List Row}
    (hrows : ∀ row ∈ rows, PlainRow row) {parts : List Part} (hparts : AllWellFormed parts)
    (ws : Warnings) :
    (Block.resolveLoop key rows (parts.flatMap source) ws).1 =
      (parts.flatMap (expand .loop rowLeaves [(key, rows)])).flatMap source := by
  have hkeeps : KeepsLeaves rowLeaves [(key, rows)] := keepsLeaves_rowLeaves (by simpa using hrows)
  have hexpanded : ∀ q ∈ parts.flatMap (expand .loop rowLeaves [(key, rows)]),
      q.Apart .loop key := by
    intro q hq
    obtain ⟨p, hp, hq⟩ := List.mem_flatMap.mp hq
    exact apart_of_mem_expand hq
  have hdrop := dropTags_source_of_apart hkey (hparts.expand hkeeps).part hexpanded
  rw [Block.resolveLoop, if_pos hkey]
  by_cases hmem : some key ∈ parts.map loopKey?
  · obtain ⟨front, body, back, rfl, hfront, hback⟩ :=
      exists_split_of_mem hmem hparts.loopKeys_nodup
    have hbody : ∀ l ∈ body, l.WellFormed := (hparts.part (block .loop key body) (by simp)).2
    have hsource : (front ++ block .loop key body :: back).flatMap source =
        front.flatMap source ++ (Block.openTag .loop key ++ (body.flatMap Leaf.source ++
          (Block.closeTag .loop key ++ back.flatMap source))) := by
      simp [source]
    have hclose : Skips (Block.closeTag .loop key) (body.flatMap Leaf.source) :=
      skips_of_notMem _ (Leaf.tags_notMem_flatMap_source hbody)
    have hofText := Block.ofText_single hkey
      (skips_openTag_source hkey (fun p hp => hparts.part p (by simp [hp])) hfront).not_isInfix
      hclose.not_isInfix
      (skips_openTag_source hkey (fun p hp => hparts.part p (by simp [hp])) hback).not_isInfix
    rw [hsource, hofText]
    simp only
    rw [flatMap_instantiate_source hkey hrows hbody, ← hdrop, List.flatMap_append,
      List.flatMap_cons, expand_block, flatMap_expand_of_apart hfront,
      flatMap_expand_of_apart hback]
    simp [flatMap_source_leaves]
  · have hapart : ∀ p ∈ parts, p.Apart .loop key := fun p hp =>
      apart_of_loopKey?_ne fun h => hmem (List.mem_map.mpr ⟨p, hp, h⟩)
    rw [Block.ofText_of_not_isInfix (skips_openTag_source hkey hparts.part hapart).not_isInfix]
    rw [flatMap_expand_of_apart hapart] at hdrop ⊢
    exact hdrop

end Stencil.Part
