import Stencil.Proofs.Block.Part

namespace Stencil.Part

open Text

/-- The part is no block of the key. -/
def Apart (kind : BlockKind) (key : Text) : Part → Prop
  | leaf _ => True
  | block kind' key' _ => ¬ (kind = kind' ∧ key = key')

theorem eq_block_of_not_apart {kind : BlockKind} {key : Text} {p : Part}
    (h : ¬ p.Apart kind key) : ∃ body, p = block kind key body := by
  cases p with
  | leaf l => exact absurd trivial h
  | block kind' key' body =>
      obtain ⟨rfl, rfl⟩ := Decidable.not_not.mp h
      exact ⟨body, rfl⟩

theorem skips_source {kind : BlockKind} {key : Text} (hkey : isKey key) {p : Part}
    (hp : p.WellFormed) (h : p.Apart kind key) (ends : Bool) :
    Skips (Block.tag ends kind key) p.source := by
  cases p with
  | leaf l => exact skips_of_notMem _ (Leaf.tags_notMem_source hp)
  | block kind' key' body =>
      have htag (ends' : Bool) : Skips (Block.tag ends kind key) (Block.tag ends' kind' key') := by
        apply Block.skips_tag_of_ne hkey hp.1
        rintro ⟨-, hsame⟩
        exact h hsame
      rw [source, Block.openTag_eq_tag, Block.closeTag_eq_tag]
      apply (htag false).append
      apply Skips.append
      · exact skips_of_notMem _ (Leaf.tags_notMem_flatMap_source hp.2)
      · exact htag true

section

variable {kind : BlockKind} {key : Text} {parts : List Part}

theorem skips_openTag_source (hkey : isKey key) (hparts : ∀ p ∈ parts, p.WellFormed)
    (h : ∀ p ∈ parts, p.Apart kind key) :
    Skips (Block.openTag kind key) (parts.flatMap source) := by
  rw [Block.openTag_eq_tag]
  exact Skips.flatMap fun p hp => skips_source hkey (hparts p hp) (h p hp) false

theorem skips_closeTag_source (hkey : isKey key) (hparts : ∀ p ∈ parts, p.WellFormed)
    (h : ∀ p ∈ parts, p.Apart kind key) :
    Skips (Block.closeTag kind key) (parts.flatMap source) := by
  rw [Block.closeTag_eq_tag]
  exact Skips.flatMap fun p hp => skips_source hkey (hparts p hp) (h p hp) true

theorem dropTags_source_of_apart (hkey : isKey key) (hparts : ∀ p ∈ parts, p.WellFormed)
    (h : ∀ p ∈ parts, p.Apart kind key) :
    Block.dropTags kind key (parts.flatMap source) = parts.flatMap source := by
  rw [Block.dropTags, replaceAll_of_skips (skips_openTag_source hkey hparts h),
    replaceAll_of_skips (skips_closeTag_source hkey hparts h)]

end

variable {α : Type} {kind : BlockKind} {leavesOf : Text → α → List Leaf → List Leaf}

/-- What stands for a part when each block of the kind whose key is in the table gives way to the
leaves that are made of its body. -/
def expand (kind : BlockKind) (leavesOf : Text → α → List Leaf → List Leaf)
    (table : List (Text × α)) : Part → List Part
  | leaf l => [leaf l]
  | block kind' key body =>
      if kind' = kind then
        match table.lookup key with
        | some a => (leavesOf key a body).map leaf
        | none => [block kind' key body]
      else
        [block kind' key body]

theorem expand_nil (p : Part) : p.expand kind leavesOf [] = [p] := by
  cases p with
  | leaf l => rfl
  | block kind' key body => simp [expand]

theorem expand_of_apart {key : Text} {p : Part} (h : p.Apart kind key) (a : α)
    (table : List (Text × α)) :
    p.expand kind leavesOf ((key, a) :: table) = p.expand kind leavesOf table := by
  cases p with
  | leaf l => rfl
  | block kind' key' body =>
      by_cases hkind : kind' = kind
      · have hne : key' ≠ key := fun heq => h ⟨hkind.symm, heq.symm⟩
        have hb : (key' == key) = false := by simpa using hne
        simp only [expand, if_pos hkind, List.lookup_cons, hb]
      · simp only [expand, if_neg hkind]

theorem expand_of_lookup {key : Text} {a : α} {table : List (Text × α)}
    (h : table.lookup key = some a) (body : List Leaf) :
    (block kind key body).expand kind leavesOf table = (leavesOf key a body).map leaf := by
  rw [expand, if_pos rfl, h]

theorem expand_of_lookup_none {key : Text} {table : List (Text × α)}
    (h : table.lookup key = none) (body : List Leaf) :
    (block kind key body).expand kind leavesOf table = [block kind key body] := by
  rw [expand, if_pos rfl, h]

theorem expand_of_ne {kind' : BlockKind} (h : kind' ≠ kind) (key : Text)
    (table : List (Text × α)) (body : List Leaf) :
    (block kind' key body).expand kind leavesOf table = [block kind' key body] := by
  rw [expand, if_neg h]

theorem expand_block (key : Text) (a : α) (table : List (Text × α)) (body : List Leaf) :
    (block kind key body).expand kind leavesOf ((key, a) :: table) =
      (leavesOf key a body).map leaf :=
  expand_of_lookup List.lookup_cons_self body

theorem flatMap_expand_leaves (table : List (Text × α)) (leaves : List Leaf) :
    (leaves.map leaf).flatMap (expand kind leavesOf table) = leaves.map leaf := by
  rw [List.flatMap_map, List.map_eq_flatMap]
  rfl

theorem flatMap_expand_of_apart {key : Text} {parts : List Part}
    (h : ∀ p ∈ parts, p.Apart kind key) (a : α) :
    parts.flatMap (expand kind leavesOf [(key, a)]) = parts := by
  induction parts with
  | nil => rfl
  | cons p parts ih =>
      rw [List.flatMap_cons, expand_of_apart (h p (by simp)), expand_nil,
        ih fun q hq => h q (List.mem_cons_of_mem _ hq)]
      rfl

theorem expand_cons (e : Text × α) (table : List (Text × α)) (p : Part) :
    p.expand kind leavesOf (e :: table) =
      (p.expand kind leavesOf [e]).flatMap (expand kind leavesOf table) := by
  by_cases h : p.Apart kind e.1
  · rw [expand_of_apart h, expand_of_apart h, expand_nil, List.flatMap_singleton]
  · obtain ⟨body, rfl⟩ := eq_block_of_not_apart h
    rw [expand_block, expand_block, flatMap_expand_leaves]

theorem apart_of_mem_expand {key : Text} {a : α} {p q : Part}
    (hq : q ∈ p.expand kind leavesOf [(key, a)]) : q.Apart kind key := by
  by_cases h : p.Apart kind key
  · rw [expand_of_apart h, expand_nil] at hq
    obtain rfl := List.mem_singleton.mp hq
    exact h
  · obtain ⟨body, rfl⟩ := eq_block_of_not_apart h
    rw [expand_block] at hq
    obtain ⟨l, -, rfl⟩ := List.mem_map.mp hq
    trivial

/-- The key of a loop block. -/
def loopKey? : Part → Option Text
  | block .loop key _ => some key
  | _ => none

theorem apart_of_loopKey?_ne {key : Text} {p : Part} (h : p.loopKey? ≠ some key) :
    p.Apart .loop key := by
  rcases p with l | ⟨_ | _, key', body⟩
  · trivial
  · simp [Apart]
  · rintro ⟨-, rfl⟩
    exact h rfl

theorem sublist_loopKeys_expand (table : List (Text × α)) (parts : List Part) :
    ((parts.flatMap (expand kind leavesOf table)).filterMap loopKey?).Sublist
      (parts.filterMap loopKey?) := by
  induction parts with
  | nil => exact List.Sublist.slnil
  | cons p parts ih =>
      have hleaves (leaves : List Leaf) : (leaves.map leaf).filterMap loopKey? = [] := by
        rw [List.filterMap_map]
        exact List.filterMap_eq_nil_iff.mpr fun _ _ => rfl
      have hhead : ((p.expand kind leavesOf table).filterMap loopKey?).Sublist
          ([p].filterMap loopKey?) := by
        cases p with
        | leaf l => exact List.Sublist.refl _
        | block kind' key body =>
            rw [expand]
            split
            next =>
              split
              next =>
                rw [hleaves]
                exact List.nil_sublist _
              next => exact List.Sublist.refl _
            next => exact List.Sublist.refl _
      rw [List.flatMap_cons, List.filterMap_append, ← List.singleton_append,
        List.filterMap_append]
      exact hhead.append ih

/-- Parts that are well-formed, no two of them loops of one key. -/
structure AllWellFormed (parts : List Part) : Prop where
  part : ∀ p ∈ parts, p.WellFormed
  loopKeys_nodup : (parts.filterMap loopKey?).Nodup

/-- What the table makes of well-formed leaves is well-formed. -/
def KeepsLeaves (leavesOf : Text → α → List Leaf → List Leaf) (table : List (Text × α)) : Prop :=
  ∀ e ∈ table, ∀ body, isKey e.1 → (∀ l ∈ body, Leaf.WellFormed l) →
    ∀ l ∈ leavesOf e.1 e.2 body, l.WellFormed

theorem wellFormed_of_mem_expand {table : List (Text × α)} (h : KeepsLeaves leavesOf table)
    {p q : Part} (hp : p.WellFormed) (hq : q ∈ p.expand kind leavesOf table) : q.WellFormed := by
  cases p with
  | leaf l =>
      obtain rfl := List.mem_singleton.mp hq
      exact hp
  | block kind' key body =>
      rw [expand] at hq
      split at hq
      next =>
        split at hq
        next a ha =>
          obtain ⟨l, hl, rfl⟩ := List.mem_map.mp hq
          exact h _ (mem_of_lookup_eq_some ha) body hp.1 hp.2 l hl
        next =>
          obtain rfl := List.mem_singleton.mp hq
          exact hp
      next =>
        obtain rfl := List.mem_singleton.mp hq
        exact hp

theorem AllWellFormed.expand {table : List (Text × α)} (h : KeepsLeaves leavesOf table)
    {parts : List Part} (hparts : AllWellFormed parts) :
    AllWellFormed (parts.flatMap (Part.expand kind leavesOf table)) := by
  constructor
  · intro q hq
    obtain ⟨p, hp, hq⟩ := List.mem_flatMap.mp hq
    exact wellFormed_of_mem_expand h (hparts.part p hp) hq
  · exact hparts.loopKeys_nodup.sublist (sublist_loopKeys_expand table parts)

theorem fst_foldl_source {rule : Text → α → Text → Warnings → Text × Warnings}
    {table : List (Text × α)} (hkeeps : KeepsLeaves leavesOf table)
    (hrule : ∀ e ∈ table, ∀ parts, AllWellFormed parts → ∀ ws,
      (rule e.1 e.2 (parts.flatMap source) ws).1 =
        (parts.flatMap (expand kind leavesOf [e])).flatMap source)
    {parts : List Part} (hparts : AllWellFormed parts) (ws : Warnings) :
    (table.foldl (fun acc e => rule e.1 e.2 acc.1 acc.2) (parts.flatMap source, ws)).1 =
      (parts.flatMap (expand kind leavesOf table)).flatMap source := by
  induction table generalizing parts ws with
  | nil =>
      have hid : expand kind leavesOf [] = fun p => [p] := funext expand_nil
      rw [List.foldl_nil, hid, List.flatMap_singleton']
  | cons e table ih =>
      have hhead : KeepsLeaves leavesOf [e] := by
        rintro e' he'
        obtain rfl := List.mem_singleton.mp he'
        exact hkeeps e' (by simp)
      have hexpanded : AllWellFormed (parts.flatMap (expand kind leavesOf [e])) :=
        hparts.expand hhead
      have htail := ih (fun e' he' => hkeeps e' (List.mem_cons_of_mem _ he'))
        (fun e' he' => hrule e' (List.mem_cons_of_mem _ he')) hexpanded
        (rule e.1 e.2 (parts.flatMap source) ws).2
      rw [List.foldl_cons, funext (expand_cons e table), ← List.flatMap_assoc, ← htail,
        ← hrule e (by simp) parts hparts ws]

end Stencil.Part
