import Stencil.Proofs.Placeholder.Pieces

/-!
Taking the placeholders out of a text leaves none behind.  A brace that stays has no placeholder
right behind it, so two neighbours among the braces that stay were neighbours before; and what
follows them on their line stays as it is, since a placeholder there would have closed them.
-/

namespace Stencil

open Piece

variable (replace : Text → Text)

theorem replacePlaceholders_nil : replacePlaceholders replace [] = [] := by
  simp [replacePlaceholders, ofText]

theorem replacePlaceholders_plain {c : Char} {t : Text} (h : placeholder? (c :: t) = none) :
    replacePlaceholders replace (c :: t) = c :: replacePlaceholders replace t := by
  rw [replacePlaceholders, ofText_plain h]
  rfl

theorem replacePlaceholders_placeholder {t inner rest : Text}
    (h : placeholder? t = some (inner, rest)) :
    replacePlaceholders replace t = replace inner ++ replacePlaceholders replace rest := by
  rw [replacePlaceholders, ofText_placeholder h]
  rfl

theorem inners_nil : inners [] = [] := by
  simp [inners, ofText]

theorem inners_plain {c : Char} {t : Text} (h : placeholder? (c :: t) = none) :
    inners (c :: t) = inners t := by
  rw [inners, ofText_plain h]
  rfl

theorem inners_placeholder {t inner rest : Text} (h : placeholder? t = some (inner, rest)) :
    inners t = inner :: inners rest := by
  rw [inners, ofText_placeholder h]
  rfl

theorem inners_append_of_notMem {front : Text} (h : '{' ∉ front) (t : Text) :
    inners (front ++ t) = inners t := by
  rw [inners, inners, ofText_append_of_notMem h, List.filterMap_append, List.filterMap_map]
  simp [inner?]

theorem inners_delimited_append {inner : Text} (h : IsInner inner) (rest : Text) :
    inners (delimited inner ++ rest) = inner :: inners rest :=
  inners_placeholder (placeholder?_delimited h rest)

theorem inners_eq_nil_iff {t : Text} : inners t = [] ↔ placeholders t = [] := by
  rw [← map_inner_placeholders, List.map_eq_nil_iff]

theorem forall_mem_placeholders {t : Text} {q : Text → Prop} :
    (∀ p ∈ placeholders t, q p.inner) ↔ ∀ inner ∈ inners t, q inner := by
  rw [← map_inner_placeholders, List.forall_mem_map]

theorem delimited_infix_of_mem_inners {t inner : Text} (h : inner ∈ inners t) :
    delimited inner <:+: t := by
  fun_induction ofText t with
  | case1 =>
      rw [inners_nil] at h
      exact absurd h List.not_mem_nil
  | case2 c t i rest hp ih =>
      rw [inners_placeholder hp] at h
      rw [eq_of_placeholder? hp]
      rcases List.mem_cons.mp h with rfl | h
      · exact (List.prefix_append _ rest).isInfix
      · exact (ih h).trans (List.suffix_append _ rest).isInfix
  | case3 c t hp ih =>
      rw [inners_plain hp] at h
      exact (ih h).trans (List.suffix_cons c t).isInfix

theorem infix_of_mem_inners {t inner : Text} (h : inner ∈ inners t) : inner <:+: t := by
  have hinner : inner <:+: delimited inner := ⟨opening, closing, rfl⟩
  exact hinner.trans (delimited_infix_of_mem_inners h)

theorem isInner_of_mem_inners {t inner : Text} (h : inner ∈ inners t) : IsInner inner := by
  fun_induction ofText t with
  | case1 =>
      rw [inners_nil] at h
      exact absurd h List.not_mem_nil
  | case2 c t i rest hp ih =>
      rw [inners_placeholder hp] at h
      rcases List.mem_cons.mp h with rfl | h
      · exact isInner_of_placeholder? hp
      · exact ih h
  | case3 c t hp ih =>
      rw [inners_plain hp] at h
      exact ih h

/-- Text has no placeholder exactly when delimiters enclose no part of a line in it. -/
theorem placeholders_eq_nil_iff_not_infix {t : Text} :
    placeholders t = [] ↔ ∀ inner, '\n' ∉ inner → ¬ delimited inner <:+: t := by
  rw [← inners_eq_nil_iff]
  constructor
  · intro hnone inner hline hinfix
    fun_induction ofText t with
    | case1 => simp [delimited, opening] at hinfix
    | case2 c t i rest hp ih =>
        rw [inners_placeholder hp] at hnone
        exact absurd hnone (List.cons_ne_nil _ _)
    | case3 c t hp ih =>
        rw [inners_plain hp] at hnone
        rcases List.infix_cons_iff.mp hinfix with ⟨rest, hprefix⟩ | hinfix
        · rw [← hprefix] at hp
          exact placeholder?_ne_none hline rest hp
        · exact ih hnone hinfix
  · intro hnone
    rw [List.eq_nil_iff_forall_not_mem]
    intro inner hinner
    exact hnone inner (isInner_of_mem_inners hinner).newline_notMem
      (delimited_infix_of_mem_inners hinner)

theorem close?_replacePlaceholders {t : Text} (h : close? t = none) :
    close? (replacePlaceholders replace t) = none := by
  induction t with
  | nil => rw [replacePlaceholders_nil, h]
  | cons c t ih =>
      rw [replacePlaceholders_plain replace (placeholder?_eq_none h)]
      by_cases hc : c = '\n'
      · rw [hc, close?_newline]
      · have htail : close? t = none := close?_tail_eq_none hc h
        have hhead : Text.after? closing (c :: replacePlaceholders replace t) = none := by
          have ha := after?_closing_eq_none h
          cases t with
          | nil => rwa [replacePlaceholders_nil]
          | cons d t =>
              -- the next character stays next, since no placeholder begins with it
              rw [replacePlaceholders_plain replace (placeholder?_eq_none htail)]
              simpa [closing, Text.after?] using ha
        rw [close?_cons hc hhead, ih htail, Option.map_none]

theorem placeholder?_cons_replacePlaceholders {c : Char} {t : Text}
    (h : placeholder? (c :: t) = none) :
    placeholder? (c :: replacePlaceholders replace t) = none := by
  rw [placeholder?, Option.bind_eq_none_iff]
  intro rest hrest
  obtain ⟨rfl, hopen⟩ : c = '{' ∧ replacePlaceholders replace t = '{' :: rest := by
    simpa [opening] using Text.after?_eq_some_iff.mp hrest
  cases hp : placeholder? t with
  | some p =>
      obtain ⟨inner, r⟩ := p
      exfalso
      -- with one more brace before it the same delimiters enclose a placeholder
      rw [eq_of_placeholder? hp] at h hp
      simp only [placeholder?, delimited, opening, List.cons_append, List.nil_append,
        Text.after?, Option.bind_some, ite_true] at h hp
      have hopened : Text.after? closing ('{' :: (inner ++ closing ++ r)) = none := rfl
      rw [List.append_assoc] at h hp hopened
      rw [close?_cons (by decide) hopened, hp] at h
      simp at h
  | none =>
      cases t with
      | nil =>
          rw [replacePlaceholders_nil] at hopen
          simp at hopen
      | cons d t =>
          rw [replacePlaceholders_plain replace hp] at hopen
          obtain ⟨rfl, rfl⟩ := List.cons.inj hopen
          have hclosed : close? t = none := by
            simpa [placeholder?, opening, Text.after?] using h
          exact close?_replacePlaceholders replace hclosed

/-- Replacing the placeholders makes those that stand in the replacements, and no others. -/
theorem inners_replacePlaceholders {found : Text → List Text} {t : Text}
    (h : ∀ inner ∈ inners t, ∀ rest, inners (replace inner ++ rest) = found inner ++ inners rest) :
    inners (replacePlaceholders replace t) = (inners t).flatMap found := by
  fun_induction ofText t with
  | case1 => rw [replacePlaceholders_nil, inners_nil, List.flatMap_nil]
  | case2 c t inner rest hp ih =>
      rw [inners_placeholder hp, List.forall_mem_cons] at h
      rw [replacePlaceholders_placeholder _ hp, h.1, ih h.2, inners_placeholder hp,
        List.flatMap_cons]
  | case3 c t hp ih =>
      rw [inners_plain hp] at h
      rw [replacePlaceholders_plain _ hp,
        inners_plain (placeholder?_cons_replacePlaceholders _ hp), ih h, inners_plain hp]

theorem placeholders_eq_nil_of_plain {t s : Text} (h : ofText t = s.map .plain) :
    placeholders t = [] := by
  have hpieces (offset : Nat) (s : Text) : Placeholder.ofPieces offset (s.map .plain) = [] := by
    induction s generalizing offset with
    | nil => rfl
    | cons c s ih => exact ih _
  rw [placeholders, h, hpieces]

theorem placeholders_eq_nil_iff {t : Text} :
    placeholders t = [] ↔ ofText t = t.map .plain := by
  constructor
  · intro h
    have hinners : inners t = [] := inners_eq_nil_iff.mpr h
    clear h
    fun_induction ofText t with
    | case1 => rfl
    | case2 c t inner rest hp ih =>
        rw [inners_placeholder hp] at hinners
        exact absurd hinners (List.cons_ne_nil _ _)
    | case3 c t hp ih =>
        rw [inners_plain hp] at hinners
        rw [ih hinners, List.map_cons]
  · exact placeholders_eq_nil_of_plain

theorem ofText_replacePlaceholders {t : Text} (h : ∀ inner ∈ inners t, '{' ∉ replace inner) :
    ofText (replacePlaceholders replace t) = (replacePlaceholders replace t).map .plain := by
  have hnone : inners (replacePlaceholders replace t) = (inners t).flatMap fun _ => [] :=
    inners_replacePlaceholders replace fun inner hinner rest =>
      inners_append_of_notMem (h inner hinner) rest
  rw [← placeholders_eq_nil_iff, ← inners_eq_nil_iff, hnone, List.flatMap_eq_nil_iff]
  exact fun _ _ => rfl

theorem ofText_stripPlaceholders (t : Text) :
    ofText (stripPlaceholders t) = (stripPlaceholders t).map .plain :=
  ofText_replacePlaceholders _ fun _ _ => List.not_mem_nil

theorem replacePlaceholders_of_plain {t : Text} (h : ofText t = t.map .plain) :
    replacePlaceholders replace t = t := by
  rw [replacePlaceholders, h, List.flatMap_map]
  simp [write]

theorem stripPlaceholders_eq_self_iff {t : Text} :
    stripPlaceholders t = t ↔ placeholders t = [] := by
  constructor
  · intro h
    rw [← h]
    exact placeholders_eq_nil_of_plain (ofText_stripPlaceholders t)
  · intro h
    exact replacePlaceholders_of_plain _ (placeholders_eq_nil_iff.mp h)

end Stencil
