import Stencil.Proofs.Block.Expansion

namespace Stencil.Part

open Text

/-- The leaves of a condition that holds, and none of one that does not. -/
def keptLeaves (_ : Text) (holds : Bool) (body : List Leaf) : List Leaf :=
  if holds then body else []

theorem keepsLeaves_keptLeaves (conditions : List (Text × Bool)) :
    KeepsLeaves keptLeaves conditions := by
  intro c _ body _ hbody l hl
  rw [keptLeaves] at hl
  split at hl
  next => exact hbody l hl
  next => simp at hl

theorem dropTags_kept_append {key : Text} (hkey : isKey key) {p : Part} (hp : p.WellFormed)
    (holds : Bool) (t : Text) :
    Block.dropTags .condition key
        (if holds then p.source ++ t else Block.outside .condition key (p.source ++ t)) =
      (p.expand .condition keptLeaves [(key, holds)]).flatMap source ++
        Block.dropTags .condition key (if holds then t else Block.outside .condition key t) := by
  by_cases h : p.Apart .condition key
  · have hopen := skips_source hkey hp h false
    have hclose := skips_source hkey hp h true
    rw [← Block.openTag_eq_tag] at hopen
    rw [← Block.closeTag_eq_tag] at hclose
    rw [expand_of_apart h, expand_nil, Block.outside_append_of_skips hopen,
      List.flatMap_singleton, ← Block.dropTags_append_of_skips hopen hclose]
    cases holds with
    | false => rfl
    | true => rfl
  · obtain ⟨body, rfl⟩ := eq_block_of_not_apart h
    have hbody : '<' ∉ body.flatMap Leaf.source := Leaf.tags_notMem_flatMap_source hp.2
    have hopen : Skips (Block.openTag .condition key) (body.flatMap Leaf.source) :=
      skips_of_notMem _ hbody
    have hclose : Skips (Block.closeTag .condition key) (body.flatMap Leaf.source) :=
      skips_of_notMem _ hbody
    rw [expand_block, keptLeaves, flatMap_source_leaves, source, List.append_assoc,
      List.append_assoc]
    cases holds with
    | false =>
        simp only [Bool.false_eq_true, if_false, Block.outside_block hkey hclose.not_isInfix,
          List.flatMap_nil, List.nil_append]
    | true =>
        simp only [if_true]
        rw [Block.dropTags_openTag_append, Block.dropTags_append_of_skips hopen hclose,
          Block.dropTags_closeTag_append hkey]

theorem dropTags_kept_flatMap_source {key : Text} (hkey : isKey key) {parts : List Part}
    (hparts : ∀ p ∈ parts, p.WellFormed) (holds : Bool) :
    Block.dropTags .condition key
        (if holds then parts.flatMap source
          else Block.outside .condition key (parts.flatMap source)) =
      (parts.flatMap (expand .condition keptLeaves [(key, holds)])).flatMap source := by
  induction parts with
  | nil =>
      have hnone : Block.ofText .condition key [] = ([], []) := 
        Block.ofText_of_not_isInfix (by simp [Block.openTag])
      simp [Block.outside, hnone, Block.dropTags]
  | cons p parts ih =>
      have hp : p.WellFormed := hparts p (by simp)
      have htail := ih fun q hq => hparts q (List.mem_cons_of_mem _ hq)
      rw [List.flatMap_cons, dropTags_kept_append hkey hp, htail, List.flatMap_cons,
        List.flatMap_append]

theorem fst_resolveCondition_source {key : Text} (hkey : isKey key) {parts : List Part}
    (hparts : ∀ p ∈ parts, p.WellFormed) (holds : Bool) (ws : Warnings) :
    (Block.resolveCondition key holds (parts.flatMap source) ws).1 =
      (parts.flatMap (expand .condition keptLeaves [(key, holds)])).flatMap source := by
  rw [← dropTags_kept_flatMap_source hkey hparts, Block.fst_resolveCondition hkey]

end Stencil.Part
