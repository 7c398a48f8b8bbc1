import Stencil.Block
import Stencil.Proofs.Placeholder.Strip
import Stencil.Proofs.Text.Sanitize
import Stencil.Proofs.Text.Search

namespace Stencil

open Piece Text

variable {key value t : Text}

/-- A text that is looked for by its inner text: no line end and no closing brace is in it. -/
structure Searchable (key : Text) : Prop where
  line : '\n' ∉ key
  brace : '}' ∉ key

theorem Searchable.isInner (h : Searchable key) : IsInner (opening ++ key) := by
  apply isInner_of_notMem
  · simpa [opening] using h.line
  · simpa [opening] using h.brace

theorem replaceAll_inner_append (hkey : Searchable key) (value : Text) {inner : Text}
    (h : IsInner inner) (hne : ¬ opening ++ key <:+ inner) (rest : Text) :
    replaceAll (delimited key) value (inner ++ (closing ++ rest)) =
      inner ++ (closing ++ replaceAll (delimited key) value rest) := by
  induction inner with
  | nil =>
      rw [List.nil_append, List.nil_append]
      exact replaceAll_append_of_skips (skips_of_notMem _ (by decide)) value rest
  | cons c inner ih =>
      have hstarts : ¬ delimited key <+: c :: (inner ++ (closing ++ rest)) := by
        rintro ⟨rest', hrest'⟩
        have hfound := h.close?_append rest
        rw [List.cons_append, ← hrest', delimited, List.append_assoc,
          hkey.isInner.close?_append] at hfound
        obtain ⟨heq, -⟩ := Prod.mk.inj (Option.some.inj hfound)
        exact hne (heq ▸ List.suffix_rfl)
      rw [List.cons_append, replaceAll_cons_of_not_isPrefix hstarts,
        ih h.2.2 fun hsuffix => hne (hsuffix.trans (List.suffix_cons c inner))]
      rfl

/-- The placeholder of a key is replaced, and any other one stays. -/
def filled (key value inner : Text) : Text :=
  if inner = key then value else delimited inner

theorem replaceAll_delimited (hkey : Searchable key) (value : Text)
    (h : ∀ inner ∈ inners t, ¬ '{' :: key <:+ inner) :
    replaceAll (delimited key) value t = replacePlaceholders (filled key value) t := by
  fun_induction ofText t with
  | case1 => rw [replaceAll_nil, replacePlaceholders_nil]
  | case2 c t inner rest hplace ih =>
      rw [inners_placeholder hplace, List.forall_mem_cons] at h
      rw [replacePlaceholders_placeholder _ hplace, eq_of_placeholder? hplace, ← ih h.2]
      by_cases heq : inner = key
      · rw [filled, if_pos heq, heq]
        exact replaceAll_pattern_append _ _ _
      · have hinner : IsInner (opening ++ inner) :=
          ⟨by decide, rfl, by decide, rfl, isInner_of_placeholder? hplace⟩
        have hne : ¬ opening ++ key <:+ opening ++ inner := by
          intro hsuffix
          rcases List.suffix_cons_iff.mp hsuffix with hsame | hsuffix
          · exact heq (List.cons.inj (List.cons.inj hsame).2).2.symm
          rcases List.suffix_cons_iff.mp hsuffix with hsame | hsuffix
          · have hends : '{' :: key = inner := (List.cons.inj hsame).2
            exact h.1 (hends ▸ List.suffix_rfl)
          · exact h.1 ((List.suffix_cons _ _).trans hsuffix)
        have hparts (t : Text) : delimited inner ++ t = (opening ++ inner) ++ (closing ++ t) := by
          simp [delimited]
        rw [filled, if_neg heq, hparts, replaceAll_inner_append hkey value hinner hne, hparts]
  | case3 c t hplace ih =>
      rw [inners_plain hplace] at h
      have hstarts : ¬ delimited key <+: c :: t := by
        rintro ⟨rest, hrest⟩
        rw [← hrest] at hplace
        exact placeholder?_ne_none hkey.line rest hplace
      rw [replacePlaceholders_plain _ hplace, ← ih h, replaceAll_cons_of_not_isPrefix hstarts]

theorem inners_replacePlaceholders_filled (hvalue : '{' ∉ value) (key t : Text) :
    inners (replacePlaceholders (filled key value) t) = (inners t).filter (· ≠ key) := by
  have hfound : inners (replacePlaceholders (filled key value) t) =
      (inners t).flatMap fun inner => if inner = key then [] else [inner] := by
    apply inners_replacePlaceholders
    intro inner hinner rest
    by_cases heq : inner = key
    · rw [filled, if_pos heq, if_pos heq]
      exact inners_append_of_notMem hvalue rest
    · rw [filled, if_neg heq, if_neg heq]
      exact inners_delimited_append (isInner_of_mem_inners hinner) rest
  rw [hfound]
  induction inners t with
  | nil => rfl
  | cons inner inners ih =>
      by_cases heq : inner = key
      · simp [heq, ih]
      · simp [heq, ih]

theorem inners_substitute (hkey : Searchable key) (hvalue : '{' ∉ value)
    (h : ∀ inner ∈ inners t, ¬ '{' :: key <:+ inner) :
    inners (Block.substitute key value t) = (inners t).filter (· ≠ key) := by
  have hsanitized : '{' ∉ sanitize value :=
    fun hmem => hvalue ((sanitize_sublist value).subset hmem)
  rw [Block.substitute, replaceAll_delimited hkey _ h, inners_replacePlaceholders_filled hsanitized]

theorem inners_foldl_substitute (entries : List (Text × Text))
    (hentries : ∀ e ∈ entries, Searchable e.1 ∧ '{' ∉ e.2)
    (h : ∀ e ∈ entries, ∀ inner ∈ inners t, ¬ '{' :: e.1 <:+ inner) :
    inners (entries.foldl (fun t (key, value) => Block.substitute key value t) t) =
      (inners t).filter (· ∉ entries.map Prod.fst) := by
  induction entries generalizing t with
  | nil => simp
  | cons e entries ih =>
      rw [List.forall_mem_cons] at hentries h
      have hfirst := inners_substitute hentries.1.1 hentries.1.2 h.1
      have hrest : ∀ e' ∈ entries, ∀ inner ∈ inners (Block.substitute e.1 e.2 t),
          ¬ '{' :: e'.1 <:+ inner := by
        intro e' he' inner hinner
        rw [hfirst] at hinner
        exact h.2 e' he' inner (List.mem_of_mem_filter hinner)
      rw [List.foldl_cons, ih hentries.2 hrest, hfirst, List.filter_filter]
      apply List.filter_congr
      intro inner _
      by_cases heq : inner = e.1
      · simp [heq]
      · simp [heq]

end Stencil
