import Stencil.Proofs.Block.Tag
import Stencil.Proofs.Text.Strewn

/-!
Tags in fragments.  Resolving the condition of a key takes out its opening tags and then its closing
tags, each in one pass over the text.  A tag of the key whose characters come together only then has
been passed by and stays, so the text is free of tags exactly when none stood in fragments before.
-/

namespace Stencil.Block

open Text

/-- The characters of a tag stand in the text with other tags of the key between them: closing ones,
and opening ones in all that.  Where the tag comes together early enough to be taken out itself, it
is whole and not in fragments. -/
def HoldsFragments (ends : Bool) (kind : BlockKind) (key t : Text) : Prop :=
  ∃ front inside part back, t = front ++ '<' :: (inside ++ '>' :: back) ∧
    Strewn (closeTag kind key) (tagName ends kind key) part ∧
    Strewn (openTag kind key) part inside ∧
    (if ends then part else inside) ≠ tagName ends kind key

/-- The text is cut at its blocks of a key.  Each reaches from the first opening tag to the first
closing tag behind it, and behind the last there is no other. -/
structure CutAtBlocks (kind : BlockKind) (key t : Text) (blocks : List Block) (tail : Text) :
    Prop where
  text : t = blocks.flatMap (source kind key) ++ tail
  first : ∀ b ∈ blocks, ¬ openTag kind key <:+: b.before ∧ ¬ closeTag kind key <:+: b.body
  last : ∀ front body back,
    tail ≠ front ++ (openTag kind key ++ (body ++ (closeTag kind key ++ back)))

theorem cutAtBlocks_ofText (kind : BlockKind) (key t : Text) :
    CutAtBlocks kind key t (ofText kind key t).1 (ofText kind key t).2 := by
  refine ⟨(flatMap_source_ofText kind key t).symm, ?_, ?_⟩
  · fun_induction ofText kind key t with
    | case1 => simp
    | case2 t b rest h blocks tail hr ih =>
        rw [hr] at ih
        rw [List.forall_mem_cons]
        simp only [first?, Option.bind_eq_some_iff, Option.map_eq_some_iff, Prod.exists,
          Prod.mk.injEq] at h
        obtain ⟨before, t', hopen, body, r, hclose, rfl, rfl⟩ := h
        exact ⟨⟨(passes_of_cut? hopen).not_isInfix, (passes_of_cut? hclose).not_isInfix⟩, ih⟩
  · fun_induction ofText kind key t with
    | case1 t h =>
        rintro front body back rfl
        obtain ⟨b, rest, hfirst, -⟩ := exists_first?_append kind key front body back
        rw [hfirst] at h
        exact absurd h (by simp)
    | case2 t b rest h blocks tail hr ih =>
        rw [hr] at ih
        exact ih

variable {kind : BlockKind} {key t : Text}

theorem tag_prefix_cons_iff {ends : Bool} {rest : Text} :
    tag ends kind key <+: '<' :: rest ↔ tagName ends kind key ++ ['>'] <+: rest := by
  rw [tag, List.cons_prefix_cons]
  exact and_iff_right rfl

theorem tag_isPrefix (ends : Bool) (kind : BlockKind) (key back : Text) :
    tag ends kind key <+: '<' :: (tagName ends kind key ++ '>' :: back) :=
  ⟨back, by simp [tag]⟩

theorem tag_infix_iff {ends : Bool} :
    tag ends kind key <:+: t ↔
      ∃ front back, t = front ++ '<' :: (tagName ends kind key ++ '>' :: back) := by
  constructor
  · rintro ⟨front, back, rfl⟩
    exact ⟨front, back, by simp [tag]⟩
  · rintro ⟨front, back, rfl⟩
    exact ⟨front, back, by simp [tag]⟩

theorem holdsFragments_of_infix_dropTags {ends : Bool}
    (h : tag ends kind key <:+: dropTags kind key t) : HoldsFragments ends kind key t := by
  obtain ⟨front, back, h⟩ := tag_infix_iff.mp h
  rw [dropTags, openTag_eq_tag, closeTag_eq_tag] at h
  obtain ⟨front, part, back, hfront, hpart, hclose⟩ := exists_between_of_replaceAll_eq h
  obtain ⟨front, inside, back, rfl, hinside, hopen⟩ := exists_between_of_replaceAll_eq hfront
  refine ⟨front, inside, part, back, rfl, by rwa [closeTag_eq_tag], by rwa [openTag_eq_tag], ?_⟩
  cases ends with
  | false =>
      rintro rfl
      exact hopen (tag_isPrefix false kind key _)
  | true =>
      rintro rfl
      exact hclose (tag_isPrefix true kind key _)

theorem tagName_isPrefix_of_strewn (hkey : isKey key) {ends ends' : Bool} {part inside back : Text}
    (h : Strewn (tag ends' kind key) part inside)
    (hstarts : tagName ends kind key ++ ['>'] <+: inside ++ '>' :: back) :
    tagName ends kind key ++ ['>'] <+: part ++ '>' :: back := by
  apply (h.append_right ('>' :: back)).isPrefix_of_isPrefix _ hstarts
  simp [(angle_notMem_tagName hkey ends kind).1]

theorem not_tag_prefix_of_strewn (hkey : isKey key) {ends ends' piece : Bool} {part : Text}
    (h : Strewn (tag piece kind key) (tagName ends kind key) part)
    (hne : ends = ends' → part ≠ tagName ends kind key) (back : Text) :
    ¬ tag ends' kind key <+: '<' :: (part ++ '>' :: back) := by
  rw [tag_prefix_cons_iff]
  intro hstarts
  obtain ⟨rfl, -, -⟩ :=
    tagName_inj_of_isPrefix hkey hkey (tagName_isPrefix_of_strewn hkey h hstarts)
  exact hne rfl (h.eq_of_isPrefix (angle_notMem_tagName hkey ends' kind).1 (by decide) hstarts)

theorem not_openTag_prefix_of_strewn (hkey : isKey key) {ends : Bool} {part inside : Text}
    (hpart : Strewn (tag true kind key) (tagName ends kind key) part)
    (hinside : Strewn (tag false kind key) part inside)
    (hne : ends = false → inside ≠ tagName ends kind key) (back : Text) :
    ¬ tag false kind key <+: '<' :: (inside ++ '>' :: back) := by
  by_cases hwhole : part = tagName ends kind key
  · subst hwhole
    exact not_tag_prefix_of_strewn hkey hinside hne back
  · have hnot : ¬ tag false kind key <+: '<' :: (part ++ '>' :: back) :=
      not_tag_prefix_of_strewn hkey hpart (fun _ => hwhole) back
    rw [tag_prefix_cons_iff] at hnot ⊢
    exact mt (tagName_isPrefix_of_strewn hkey hinside) hnot

theorem infix_dropTags_of_holdsFragments (hkey : isKey key) {ends : Bool}
    (h : HoldsFragments ends kind key t) : tag ends kind key <:+: dropTags kind key t := by
  obtain ⟨front, inside, part, back, rfl, hpart, hinside, hne⟩ := h
  rw [openTag_eq_tag] at hinside
  rw [closeTag_eq_tag] at hpart
  have hname := angle_notMem_tagName hkey
  have hnotMem (ends : Bool) : '<' ∉ tagName ends kind key ++ ['>'] := by
    simp [(hname ends kind).1]
  have hskips : Skips (tag false kind key) part :=
    hpart.skips (hname ends kind).1 (skips_tag_of_ne hkey hkey (by simp))
  have hopened : replaceAll (tag false kind key) [] (front ++ '<' :: (inside ++ '>' :: back)) =
      replaceAll (tag false kind key) [] front ++
        '<' :: (part ++ '>' :: replaceAll (tag false kind key) [] back) := by
    apply replaceAll_between (hnotMem false) (by decide) hinside hskips
    apply not_openTag_prefix_of_strewn hkey hpart hinside
    rintro rfl
    exact hne
  have hclosed (front back : Text) :
      replaceAll (tag true kind key) [] (front ++ '<' :: (part ++ '>' :: back)) =
        replaceAll (tag true kind key) [] front ++
          '<' :: (tagName ends kind key ++ '>' :: replaceAll (tag true kind key) [] back) := by
    have hskips : Skips (tag true kind key) (tagName ends kind key) :=
      skips_of_notMem _ (hname ends kind).1
    apply replaceAll_between (hnotMem true) (by decide) hpart hskips
    apply not_tag_prefix_of_strewn hkey hpart
    rintro rfl
    exact hne
  rw [dropTags, openTag_eq_tag, closeTag_eq_tag, hopened, hclosed]
  exact tag_infix_iff.mpr ⟨_, _, rfl⟩

theorem infix_dropTags_iff (hkey : isKey key) {ends : Bool} :
    tag ends kind key <:+: dropTags kind key t ↔ HoldsFragments ends kind key t :=
  ⟨holdsFragments_of_infix_dropTags, infix_dropTags_of_holdsFragments hkey⟩

/-- A condition that does not hold takes its blocks out, and in any case the tags of the key are
taken out of the rest.  A tag is left exactly when one stood in fragments in what was kept. -/
theorem tag_left_iff_held_in_fragments {key : Text} (hkey : isKey key) (holds : Bool) (t : Text)
    (ws : Warnings) :
    ∃ blocks tail part, CutAtBlocks .condition key t blocks tail ∧
      let kept := if holds then t else blocks.flatMap before ++ tail
      let left := (resolveCondition key holds t ws).1
      Strewn (openTag .condition key) part kept ∧ Strewn (closeTag .condition key) left part ∧
        (openTag .condition key <:+: left ↔ HoldsFragments false .condition key kept) ∧
        (closeTag .condition key <:+: left ↔ HoldsFragments true .condition key kept) := by
  refine ⟨_, _, replaceAll (openTag .condition key) []
    (if holds then t else outside .condition key t), cutAtBlocks_ofText .condition key t, ?_⟩
  intro kept left
  have hleft : left = dropTags .condition key kept := fst_resolveCondition hkey holds t ws
  rw [hleft, openTag_eq_tag, closeTag_eq_tag]
  refine ⟨strewn_replaceAll _ _ _, ?_, infix_dropTags_iff hkey, infix_dropTags_iff hkey⟩
  rw [dropTags, openTag_eq_tag, closeTag_eq_tag]
  exact strewn_replaceAll _ _ _

theorem no_tag_left_of_closing_tag_around_opening_tag :
    let t := "a</i<if.x>f.x><if.x>b</if.x>".toList
    isKey ['x'] ∧ (resolveCondition ['x'] true t []).1 = "ab".toList ∧
      ∀ ends, ¬ HoldsFragments ends .condition ['x'] t := by
  intro t
  have hkey : isKey ['x'] := by decide
  obtain ⟨blocks, tail, part, -, -, -, hopen, hclose⟩ :=
    tag_left_iff_held_in_fragments hkey true t []
  have hleft : (resolveCondition ['x'] true t []).1 = "ab".toList := by decide +kernel
  rw [hleft] at hopen hclose
  refine ⟨hkey, hleft, ?_⟩
  intro ends
  cases ends with
  | false => exact mt hopen.mpr (by decide)
  | true => exact mt hclose.mpr (by decide)

/-- A tag comes together when the tag or the block between its characters has gone. -/
theorem condition_leaves_tag_of_its_key :
    isKey ['x'] ∧
      resolveCondition ['x'] true "<if<if.x>.x>a</if.x>".toList [] = ("<if.x>a".toList, []) ∧
      resolveCondition ['x'] false "<if<if.x>a</if.x><if.x>.x>".toList [] =
        ("<if.x>".toList, []) ∧
      openTag .condition ['x'] <:+: "<if.x>a".toList ∧
      openTag .condition ['x'] <:+: "<if.x>".toList := by
  decide +kernel

end Stencil.Block
