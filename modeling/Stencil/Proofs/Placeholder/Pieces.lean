import Stencil.Placeholder.Basic

namespace Stencil.Piece

theorem close?_newline (t : Text) : close? ('\n' :: t) = none := by
  simp [close?, closing, Text.after?]

theorem close?_closing (t : Text) : close? (closing ++ t) = some ([], t) := by
  simp [close?, closing, Text.after?]

theorem close?_cons {c : Char} {t : Text} (hc : c ≠ '\n')
    (h : Text.after? closing (c :: t) = none) :
    close? (c :: t) = (close? t).map fun (inner, rest) => (c :: inner, rest) := by
  rw [close?, h]
  simp [hc]

theorem close?_tail_eq_none {c : Char} {t : Text} (hc : c ≠ '\n')
    (h : close? (c :: t) = none) : close? t = none := by
  cases ha : Text.after? closing (c :: t) with
  | some rest => simp [close?, ha] at h
  | none => simpa [close?_cons hc ha] using h

theorem after?_closing_eq_none {t : Text} (h : close? t = none) :
    Text.after? closing t = none := by
  cases t with
  | nil => rfl
  | cons c t =>
      rw [close?] at h
      split at h
      next => simp at h
      next ha => exact ha

theorem after?_closing_cons {c : Char} {t t' : Text} (h : t'.head? = t.head?) :
    Text.after? closing (c :: t) = none ↔ Text.after? closing (c :: t') = none := by
  cases t with
  | nil =>
      rw [List.head?_nil, List.head?_eq_none_iff] at h
      rw [h]
  | cons d t =>
      obtain ⟨t'', rfl⟩ := List.head?_eq_some_iff.mp h
      simp [closing, Text.after?]

/-- The text holds no newline and no closing delimiter, and none begins at its end. -/
def IsInner : Text → Prop
  | [] => True
  | c :: inner => c ≠ '\n' ∧ Text.after? closing (c :: (inner ++ closing)) = none ∧ IsInner inner

namespace IsInner

variable {front inner : Text}

theorem of_append (h : IsInner (front ++ inner)) : IsInner inner := by
  induction front with
  | nil => exact h
  | cons c front ih => exact ih h.2.2

theorem append (hfront : IsInner front) (h : IsInner inner) : IsInner (front ++ inner) := by
  induction front with
  | nil => exact h
  | cons c front ih =>
      refine ⟨hfront.1, ?_, ih hfront.2.2⟩
      cases front with
      | nil =>
          have hbrace : c ≠ '}' := by
            rintro rfl
            exact absurd hfront.2.1 (by decide)
          simp [closing, Text.after?, Ne.symm hbrace]
      | cons d front =>
          refine (after?_closing_cons ?_).mp hfront.2.1
          rfl

theorem concat_of_infix (h : IsInner inner) {part : Text} (hpart : part <:+: inner) {c : Char}
    (hline : c ≠ '\n') (hbrace : c ≠ '}') : IsInner (part ++ [c]) := by
  obtain ⟨front, back, rfl⟩ := hpart
  rw [List.append_assoc] at h
  have hparts : IsInner (part ++ back) := h.of_append
  clear h
  induction part with
  | nil => exact ⟨hline, by simp [closing, Text.after?, Ne.symm hbrace], trivial⟩
  | cons d part ih =>
      refine ⟨hparts.1, ?_, ih hparts.2.2⟩
      cases part with
      | nil => simp [closing, Text.after?, Ne.symm hbrace]
      | cons e part =>
          refine (after?_closing_cons ?_).mp hparts.2.1
          rfl

theorem after?_closing {c : Char} (h : IsInner (c :: inner)) (rest : Text) :
    Text.after? closing (c :: (inner ++ (closing ++ rest))) = none := by
  refine (after?_closing_cons ?_).mp h.2.1
  cases inner with
  | nil => rfl
  | cons d inner => rfl

theorem close?_append (h : IsInner inner) (rest : Text) :
    close? (inner ++ (closing ++ rest)) = some (inner, rest) := by
  induction inner with
  | nil => exact close?_closing rest
  | cons c inner ih =>
      rw [List.cons_append, close?_cons h.1 (h.after?_closing rest), ih h.2.2]
      rfl

theorem close?_eq_none (h : IsInner inner) : close? inner = none := by
  induction inner with
  | nil => rfl
  | cons c inner ih =>
      rw [close?_cons h.1, ih h.2.2, Option.map_none]
      have hclosing := h.2.1
      cases inner with
      | nil => simp [closing, Text.after?]
      | cons d inner => simpa [closing, Text.after?] using hclosing

theorem newline_notMem (h : IsInner inner) : '\n' ∉ inner := by
  induction inner with
  | nil => exact List.not_mem_nil
  | cons c inner ih =>
      rw [List.mem_cons, not_or]
      exact ⟨Ne.symm h.1, ih h.2.2⟩

end IsInner

theorem isInner_of_close? {t inner rest : Text} (h : close? t = some (inner, rest)) :
    IsInner inner := by
  induction t generalizing inner with
  | nil => simp [close?] at h
  | cons c t ih =>
      rw [close?] at h
      split at h
      next =>
        obtain ⟨rfl, -⟩ := Prod.mk.inj (Option.some.inj h)
        trivial
      next hnone =>
        split at h
        next => simp at h
        next hc =>
          simp only [Option.map_eq_some_iff, Prod.mk.injEq, Prod.exists] at h
          obtain ⟨inner, rest, hclose, rfl, rfl⟩ := h
          refine ⟨hc, ?_, ih hclose⟩
          rw [eq_of_close? hclose] at hnone
          refine (after?_closing_cons ?_).mp hnone
          cases inner with
          | nil => rfl
          | cons d inner => rfl

theorem isInner_of_placeholder? {t inner rest : Text} (h : placeholder? t = some (inner, rest)) :
    IsInner inner := by
  rw [placeholder?, Option.bind_eq_some_iff] at h
  obtain ⟨t', -, hclose⟩ := h
  exact isInner_of_close? hclose

theorem isInner_of_close?_append {front rest : Text} (h : close? (front ++ '}' :: rest) = none)
    (hline : '\n' ∉ front) : IsInner front := by
  induction front with
  | nil => trivial
  | cons c front ih =>
      rw [List.mem_cons, not_or] at hline
      have hc : c ≠ '\n' := Ne.symm hline.1
      refine ⟨hc, ?_, ih (close?_tail_eq_none hc h) hline.2⟩
      refine (after?_closing_cons ?_).mp (after?_closing_eq_none h)
      cases front with
      | nil => rfl
      | cons d front => rfl

theorem isInner_of_notMem {inner : Text} (hline : '\n' ∉ inner) (hbrace : '}' ∉ inner) :
    IsInner inner := by
  induction inner with
  | nil => trivial
  | cons c inner ih =>
      rw [List.mem_cons, not_or] at hline hbrace
      refine ⟨Ne.symm hline.1, ?_, ih hline.2 hbrace.2⟩
      simp [closing, Text.after?, hbrace.1]

theorem placeholder?_eq_none {t : Text} (h : close? t = none) : placeholder? t = none := by
  rw [placeholder?, Option.bind_eq_none_iff]
  intro rest hrest
  rw [Text.after?_eq_some_iff.mp hrest] at h
  exact close?_tail_eq_none (by decide) (close?_tail_eq_none (by decide) h)

theorem close?_ne_none {front : Text} (h : '\n' ∉ front) (rest : Text) :
    close? (front ++ closing ++ rest) ≠ none := by
  induction front with
  | nil =>
      rw [List.nil_append, close?_closing]
      simp
  | cons c front ih =>
      simp only [List.mem_cons, not_or] at h
      intro hnone
      exact ih h.2 (close?_tail_eq_none (Ne.symm h.1) hnone)

theorem prefix_of_close? {front rest inner rest' : Text}
    (h : close? (front ++ closing ++ rest) = some (inner, rest')) : inner <+: front := by
  induction front generalizing inner with
  | nil =>
      rw [List.nil_append, close?_closing] at h
      obtain ⟨rfl, -⟩ := Prod.mk.inj (Option.some.inj h)
      exact List.nil_prefix
  | cons c front ih =>
      rw [List.cons_append, List.cons_append, close?] at h
      split at h
      next =>
        obtain ⟨rfl, -⟩ := Prod.mk.inj (Option.some.inj h)
        exact List.nil_prefix
      next =>
        split at h
        next => simp at h
        next =>
          simp only [Option.map_eq_some_iff, Prod.mk.injEq, Prod.exists] at h
          obtain ⟨i, r, hclose, rfl, rfl⟩ := h
          exact List.cons_prefix_cons.mpr ⟨rfl, ih hclose⟩

theorem placeholder?_ne_none {inner : Text} (h : '\n' ∉ inner) (rest : Text) :
    placeholder? (delimited inner ++ rest) ≠ none := by
  rw [placeholder?, Text.after?_eq_some_iff.mpr (show delimited inner ++ rest =
    opening ++ (inner ++ closing ++ rest) by simp [delimited]), Option.bind_some]
  exact close?_ne_none h rest

theorem placeholder?_delimited {inner : Text} (h : IsInner inner) (rest : Text) :
    placeholder? (delimited inner ++ rest) = some (inner, rest) := by
  rw [placeholder?, show delimited inner ++ rest = opening ++ (inner ++ (closing ++ rest)) by
    simp [delimited], Text.after?_eq_some_iff.mpr rfl]
  exact h.close?_append rest

theorem ofText_plain {c : Char} {t : Text} (h : placeholder? (c :: t) = none) :
    ofText (c :: t) = .plain c :: ofText t := by
  rw [ofText]
  split
  next i r hs => simp [h] at hs
  next => rfl

theorem ofText_placeholder {t inner rest : Text} (h : placeholder? t = some (inner, rest)) :
    ofText t = .placeholder inner :: ofText rest := by
  cases t with
  | nil => simp [placeholder?, Text.after?, opening] at h
  | cons c t =>
      rw [ofText]
      split
      next i r hs =>
        rw [h] at hs
        simp only [Option.some.injEq, Prod.mk.injEq] at hs
        rw [hs.1, hs.2]
      next hs => simp [h] at hs

theorem ofText_cons_of_ne {c : Char} (hc : c ≠ '{') (t : Text) :
    ofText (c :: t) = .plain c :: ofText t :=
  ofText_plain (by simp [placeholder?, opening, Text.after?, Ne.symm hc])

theorem ofText_append_of_notMem {front : Text} (h : '{' ∉ front) (t : Text) :
    ofText (front ++ t) = front.map .plain ++ ofText t := by
  induction front with
  | nil => rfl
  | cons c front ih =>
      rw [List.mem_cons, not_or] at h
      rw [List.cons_append, ofText_cons_of_ne (Ne.symm h.1), ih h.2]
      rfl

end Stencil.Piece
