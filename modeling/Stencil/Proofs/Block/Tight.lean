import Stencil.Proofs.Block.Part
import Stencil.Proofs.Placeholder.Tightening

namespace Stencil

theorem tighten_inner_append {inner : Text} (h : Inner inner) (t : Text) :
    tighten (inner ++ (closing ++ t)) = inner ++ (closing ++ tighten t) := by
  rcases List.eq_nil_or_concat inner with rfl | ⟨front, c, rfl⟩
  · exact tighten_closing_append t
  · have hspace : isInlineSpace c = false := h.last c (by simp)
    have hopens := h.opens
    have hcloses := h.closes
    simp only [List.concat_eq_append, List.mem_append, List.mem_singleton, not_or] at hopens hcloses
    have hcalm : Calm (c :: (closing ++ t)) := calm_cons_of_ne hspace (Ne.symm hcloses.2) _
    rw [List.concat_eq_append, List.append_assoc, List.append_assoc, List.singleton_append,
      tighten_append_of_calm hopens.1 hcloses.1 hcalm,
      tighten_cons_of_ne (Ne.symm hopens.2) (by simp [hspace]), tighten_closing_append]
    rfl

theorem dropWhile_inner_append {inner : Text} (h : Inner inner) (t : Text) :
    (inner ++ (closing ++ t)).dropWhile isInlineSpace = inner ++ (closing ++ t) := by
  cases inner with
  | nil => rfl
  | cons c inner =>
      have hspace : isInlineSpace c = false := h.head c (by simp)
      rw [List.cons_append, List.dropWhile_cons_of_neg (by simp [hspace])]

theorem tighten_delimited_append {inner : Text} (h : Inner inner) (t : Text) :
    tighten (delimited inner ++ t) = delimited inner ++ tighten t := by
  rw [delimited, List.append_assoc, List.append_assoc, tighten_opening_append,
    dropWhile_inner_append h, tighten_inner_append h]
  simp

namespace Leaf

theorem calm_source_append {l : Leaf} (hl : l.WellFormed) {t : Text} (ht : Calm t) :
    Calm (l.source ++ t) := by
  cases l with
  | text s => exact ht.append hl.closes
  | slot inner => exact calm_cons_of_ne (by decide) (by decide) _

theorem tighten_source_append {l : Leaf} (hl : l.WellFormed) {t : Text} (ht : Calm t) :
    tighten (l.source ++ t) = l.source ++ tighten t := by
  cases l with
  | text s => exact tighten_append_of_calm hl.opens hl.closes ht
  | slot inner => exact tighten_delimited_append hl t

theorem tighten_flatMap_source_append {leaves : List Leaf} (h : ∀ l ∈ leaves, l.WellFormed)
    {t : Text} (ht : Calm t) :
    Calm (leaves.flatMap source ++ t) ∧
      tighten (leaves.flatMap source ++ t) = leaves.flatMap source ++ tighten t := by
  induction leaves with
  | nil => exact ⟨ht, rfl⟩
  | cons l leaves ih =>
      have hl : l.WellFormed := h l (by simp)
      obtain ⟨hcalm, htail⟩ := ih fun l' hl' => h l' (List.mem_cons_of_mem _ hl')
      rw [List.flatMap_cons, List.append_assoc, tighten_source_append hl hcalm, htail]
      exact ⟨calm_source_append hl hcalm, by rw [List.append_assoc]⟩

end Leaf

theorem Part.tighten_source_append {p : Part} (hp : p.WellFormed) {t : Text} (ht : Calm t) :
    Calm (p.source ++ t) ∧ tighten (p.source ++ t) = p.source ++ tighten t := by
  cases p with
  | leaf l => exact ⟨Leaf.calm_source_append hp ht, Leaf.tighten_source_append hp ht⟩
  | block kind key body =>
      have htag (ends : Bool) (s : Text) : Calm (Block.tag ends kind key ++ s) :=
        calm_cons_of_ne (by decide) (by decide) _
      have htighten (ends : Bool) {s : Text} (hs : Calm s) :
          tighten (Block.tag ends kind key ++ s) = Block.tag ends kind key ++ tighten s := by
        apply tighten_append_of_calm _ _ hs
        · exact Block.notMem_tag hp.1 (by decide) (by decide) ends kind
        · exact Block.notMem_tag hp.1 (by decide) (by decide) ends kind
      rw [source, Block.openTag_eq_tag, Block.closeTag_eq_tag, List.append_assoc,
        List.append_assoc]
      obtain ⟨hcalm, hbody⟩ := Leaf.tighten_flatMap_source_append hp.2 (htag true t)
      refine ⟨htag false _, ?_⟩
      rw [htighten false hcalm, hbody, htighten true ht, List.append_assoc, List.append_assoc]

theorem tighten_flatMap_source {parts : List Part} (h : ∀ p ∈ parts, p.WellFormed) :
    tighten (parts.flatMap Part.source) = parts.flatMap Part.source := by
  have hcalm : Calm (parts.flatMap Part.source) ∧
      tighten (parts.flatMap Part.source) = parts.flatMap Part.source := by
    induction parts with
    | nil => exact ⟨rfl, by rw [List.flatMap_nil, tighten]⟩
    | cons p parts ih =>
        obtain ⟨hcalm, htail⟩ := ih fun q hq => h q (List.mem_cons_of_mem _ hq)
        have hp := Part.tighten_source_append (h p (by simp)) hcalm
        rw [List.flatMap_cons]
        exact ⟨hp.1, by rw [hp.2, htail]⟩
  exact hcalm.2

end Stencil
