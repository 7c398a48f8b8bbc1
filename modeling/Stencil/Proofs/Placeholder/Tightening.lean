import Stencil.Placeholder.Tightening
import Stencil.Proofs.Placeholder.Strip

namespace Stencil

/-- The text does not go on with a closing delimiter behind inline spaces. -/
def Calm (t : Text) : Prop :=
  closing.isPrefixOf (t.dropWhile isInlineSpace) = false

theorem calm_iff {t : Text} : Calm t ↔ ¬ closing <+: t.dropWhile isInlineSpace := by
  rw [Calm, Bool.eq_false_iff, Ne, List.isPrefixOf_iff_prefix]

theorem calm_cons_of_ne {c : Char} (hspace : isInlineSpace c = false) (hc : c ≠ '}') (t : Text) :
    Calm (c :: t) := by
  simp [Calm, hspace, closing, List.isPrefixOf, Ne.symm hc]

theorem Calm.append {front t : Text} (hfront : '}' ∉ front) (ht : Calm t) :
    Calm (front ++ t) := by
  induction front with
  | nil => exact ht
  | cons c front ih =>
      simp only [List.mem_cons, not_or] at hfront
      cases hspace : isInlineSpace c with
      | true =>
          rw [Calm, List.cons_append, List.dropWhile_cons_of_pos hspace]
          exact ih hfront.2
      | false => exact calm_cons_of_ne hspace (Ne.symm hfront.1) _

theorem tighten_kept {c : Char} {t : Text} (hopen : Text.after? opening (c :: t) = none)
    (hblank : ¬ (isInlineSpace c && closing.isPrefixOf (t.dropWhile isInlineSpace)) = true) :
    tighten (c :: t) = c :: tighten t := by
  rw [tighten]
  split
  next rest hsome => simp [hopen] at hsome
  next => rw [if_neg hblank]

theorem tighten_blank {c : Char} (hspace : isInlineSpace c) {t : Text}
    (h : closing.isPrefixOf (t.dropWhile isInlineSpace)) : tighten (c :: t) = tighten t := by
  have hc : '{' ≠ c := by
    rintro rfl
    simp [isInlineSpace] at hspace
  rw [tighten]
  split
  next rest hsome => simp [opening, Text.after?, hc] at hsome
  next => rw [if_pos (by simp [hspace, h])]

theorem tighten_cons_of_ne {c : Char} (hc : c ≠ '{') {t : Text}
    (h : isInlineSpace c = true → Calm t) : tighten (c :: t) = c :: tighten t := by
  apply tighten_kept
  · simp [opening, Text.after?, Ne.symm hc]
  · rw [Bool.and_eq_true]
    rintro ⟨hspace, hclosing⟩
    have hcalm : closing.isPrefixOf (t.dropWhile isInlineSpace) = false := h hspace
    simp [hcalm] at hclosing

theorem tighten_append_of_calm {front t : Text} (hopens : '{' ∉ front) (hcloses : '}' ∉ front)
    (ht : Calm t) : tighten (front ++ t) = front ++ tighten t := by
  induction front with
  | nil => rfl
  | cons c front ih =>
      simp only [List.mem_cons, not_or] at hopens hcloses
      rw [List.cons_append, tighten_cons_of_ne (Ne.symm hopens.1)
        (fun _ => ht.append hcloses.2), ih hopens.2 hcloses.2]
      rfl

theorem tighten_brace_cons (t : Text) : tighten ('}' :: t) = '}' :: tighten t :=
  tighten_cons_of_ne (by decide) fun hspace => absurd hspace (by decide)

theorem tighten_closing_append (t : Text) : tighten (closing ++ t) = closing ++ tighten t := by
  rw [closing, List.cons_append, List.singleton_append, tighten_brace_cons, tighten_brace_cons]
  rfl

theorem tighten_opening_append (t : Text) :
    tighten (opening ++ t) = opening ++ tighten (t.dropWhile isInlineSpace) := by
  rw [opening, List.cons_append, List.singleton_append, tighten]
  split
  next rest h =>
    obtain rfl : t = rest := by simpa [opening] using Text.after?_eq_some_iff.mp h
    rfl
  next h => simp [opening, Text.after?] at h

/-- A text as tightening reads it: a pair of braces with the spaces and tabs behind it, or a single
character. -/
@[elab_as_elim]
theorem opening_induction {motive : Text → Prop} (nil : motive [])
    (opening : ∀ t, motive (t.dropWhile isInlineSpace) → motive (opening ++ t))
    (plain : ∀ c t, Text.after? Stencil.opening (c :: t) = none → motive t → motive (c :: t))
    (t : Text) : motive t := by
  induction hlength : t.length using Nat.strongRecOn generalizing t with
  | ind n ih =>
      cases t with
      | nil => exact nil
      | cons c t =>
          rw [List.length_cons] at hlength
          cases hopen : Text.after? Stencil.opening (c :: t) with
          | none => exact plain c t hopen (ih t.length (by omega) t rfl)
          | some rest =>
              have hparts := Text.after?_eq_some_iff.mp hopen
              have hle := length_dropWhile_le isInlineSpace rest
              have hlen := congrArg List.length hparts
              simp only [Stencil.opening, List.length_append, List.length_cons,
                List.length_nil] at hlen
              rw [hparts]
              exact opening rest (ih _ (by omega) _ rfl)

theorem tighten_cons_congr {c : Char} {s t : Text} (hs : Text.after? opening (c :: s) = none)
    (ht : Text.after? opening (c :: t) = none)
    (hclosing : closing.isPrefixOf (s.dropWhile isInlineSpace) =
      closing.isPrefixOf (t.dropWhile isInlineSpace))
    (h : tighten s = tighten t) : tighten (c :: s) = tighten (c :: t) := by
  by_cases hblank : (isInlineSpace c && closing.isPrefixOf (t.dropWhile isInlineSpace)) = true
  · have hboth := hblank
    rw [Bool.and_eq_true] at hboth
    rw [tighten_blank hboth.1 hboth.2, tighten_blank hboth.1 (hclosing.trans hboth.2), h]
  · rw [tighten_kept ht hblank, tighten_kept hs (by rwa [hclosing]), h]

theorem head?_tighten_of_closing {t : Text}
    (h : closing.isPrefixOf (t.dropWhile isInlineSpace)) : (tighten t).head? = some '}' := by
  induction t with
  | nil => simp [closing] at h
  | cons c t ih =>
      cases hspace : isInlineSpace c with
      | true =>
          rw [List.dropWhile_cons_of_pos hspace] at h
          rw [tighten_blank hspace h]
          exact ih h
      | false =>
          rw [List.dropWhile_cons_of_neg (by simp [hspace])] at h
          obtain ⟨rest, hrest⟩ := List.isPrefixOf_iff_prefix.mp h
          rw [← hrest, tighten_closing_append]
          rfl

theorem brace_notMem_takeWhile (t : Text) : '{' ∉ t.takeWhile isInlineSpace :=
  fun hmem => absurd (List.all_eq_true.mp List.all_takeWhile _ hmem) (by decide)

theorem ne_newline_of_isInlineSpace {c : Char} (h : isInlineSpace c) : c ≠ '\n' := by
  rintro rfl
  simp [isInlineSpace] at h

open Piece

theorem close?_dropWhile {t : Text} (h : close? t = none) :
    close? (t.dropWhile isInlineSpace) = none := by
  induction t with
  | nil => exact h
  | cons c t ih =>
      cases hspace : isInlineSpace c with
      | true =>
          rw [List.dropWhile_cons_of_pos hspace]
          exact ih (close?_tail_eq_none (ne_newline_of_isInlineSpace hspace) h)
      | false => rwa [List.dropWhile_cons_of_neg (by simp [hspace])]

theorem calm_of_close? {t : Text} (h : close? t = none) : Calm t := by
  rw [calm_iff]
  rintro ⟨rest, hrest⟩
  have hnone := close?_dropWhile h
  rw [← hrest, close?_closing] at hnone
  simp at hnone

theorem head?_tighten {t : Text} {c : Char} (h : (tighten t).head? = some c) (hc : c ≠ '}') :
    t.head? = some c := by
  revert h
  fun_cases tighten t with
  | case1 => exact id
  | case2 d t rest hopen =>
      rw [Text.after?_eq_some_iff.mp hopen]
      exact id
  | case3 d t _ hblank =>
      rw [Bool.and_eq_true] at hblank
      rw [head?_tighten_of_closing hblank.2, Option.some.injEq]
      exact fun h => absurd h.symm hc
  | case4 => exact id

theorem head?_tighten_of_close? {t : Text} (h : close? t = none) :
    (tighten t).head? = t.head? := by
  fun_cases tighten t with
  | case1 => rfl
  | case2 d t rest hopen =>
      rw [Text.after?_eq_some_iff.mp hopen]
      rfl
  | case3 d t _ hblank =>
      rw [Bool.and_eq_true] at hblank
      have htail : close? t = none :=
        close?_tail_eq_none (ne_newline_of_isInlineSpace hblank.1) h
      have hcalm : closing.isPrefixOf (t.dropWhile isInlineSpace) = false := calm_of_close? htail
      rw [hcalm] at hblank
      simp at hblank
  | case4 => rfl

theorem close?_brace_cons {t : Text} (h : close? t = none) : close? ('{' :: t) = none := by
  rw [close?_cons (by decide) rfl, h, Option.map_none]

theorem close?_tighten {t : Text} (h : close? t = none) : close? (tighten t) = none := by
  fun_induction tighten t with
  | case1 => exact h
  | case2 c t rest hopen ih =>
      rw [Text.after?_eq_some_iff.mp hopen] at h
      have hrest : close? rest = none :=
        close?_tail_eq_none (by decide) (close?_tail_eq_none (by decide) h)
      exact close?_brace_cons (close?_brace_cons (ih (close?_dropWhile hrest)))
  | case3 c t _ hblank ih =>
      rw [Bool.and_eq_true] at hblank
      exact ih (close?_tail_eq_none (ne_newline_of_isInlineSpace hblank.1) h)
  | case4 c t _ _ ih =>
      by_cases hline : c = '\n'
      · rw [hline, close?_newline]
      · have htail : close? t = none := close?_tail_eq_none hline h
        have hhead : Text.after? closing (c :: tighten t) = none :=
          (after?_closing_cons (head?_tighten_of_close? htail)).mp (after?_closing_eq_none h)
        rw [close?_cons hline hhead, ih htail, Option.map_none]

/-- The characters that tightening takes away, and those beside which it does. -/
def isDelimiting (c : Char) : Bool :=
  isInlineSpace c || c == '{' || c == '}'

theorem prefix_of_prefix_tighten {pattern t : Text} (h : ∀ c ∈ pattern, isDelimiting c = false)
    (hstarts : pattern <+: tighten t) : pattern <+: t := by
  induction pattern generalizing t with
  | nil => exact List.nil_prefix
  | cons p pattern ih =>
      rw [List.forall_mem_cons] at h
      have hp : p ≠ '{' ∧ p ≠ '}' := by
        constructor
        · rintro rfl
          simp [isDelimiting] at h
        · rintro rfl
          simp [isDelimiting] at h
      obtain ⟨rest, hrest⟩ := hstarts
      have hhead : t.head? = some p := head?_tighten (by rw [← hrest]; rfl) hp.2
      obtain ⟨t', rfl⟩ := List.head?_eq_some_iff.mp hhead
      have hspace : isInlineSpace p = false := by
        simp only [isDelimiting, Bool.or_eq_false_iff] at h
        exact h.1.1.1
      rw [tighten_cons_of_ne hp.1 (by simp [hspace]), List.cons_append, List.cons.injEq] at hrest
      exact List.cons_prefix_cons.mpr ⟨rfl, ih h.2 ⟨rest, hrest.2⟩⟩

/-- A pattern without braces and blanks stands in a tight text only where it stood before. -/
theorem infix_of_infix_tighten {pattern t : Text} (h : ∀ c ∈ pattern, isDelimiting c = false)
    (hstands : pattern <:+: tighten t) : pattern <:+: t := by
  fun_induction tighten t with
  | case1 => exact hstands
  | case2 c t rest hopen ih =>
      have hbrace {t : Text} (ht : pattern <:+: '{' :: t) : pattern <:+: t := by
        rcases List.infix_cons_iff.mp ht with hstarts | ht
        · cases pattern with
          | nil => exact List.nil_infix
          | cons p pattern =>
              obtain ⟨rfl, -⟩ := List.cons_prefix_cons.mp hstarts
              exact absurd (h '{' (by simp)) (by decide)
        · exact ht
      rw [Text.after?_eq_some_iff.mp hopen]
      have hrest := (ih (hbrace (hbrace hstands))).trans (List.dropWhile_suffix _).isInfix
      exact hrest.trans (List.suffix_append opening rest).isInfix
  | case3 c t _ _ ih => exact (ih hstands).trans (List.suffix_cons c t).isInfix
  | case4 c t hopen hblank ih =>
      rcases List.infix_cons_iff.mp hstands with hstarts | ht
      · rw [← tighten_kept hopen hblank] at hstarts
        exact (prefix_of_prefix_tighten h hstarts).isInfix
      · exact (ih ht).trans (List.suffix_cons c t).isInfix

theorem tighten_of_not_infix {text : Text} (hopening : ¬ opening <:+: text)
    (hclosing : ¬ closing <:+: text) : tighten text = text := by
  fun_induction tighten text with
  | case1 => rfl
  | case2 c t rest hopen ih =>
      exact absurd ⟨[], rest, (Text.after?_eq_some_iff.mp hopen).symm⟩ hopening
  | case3 c t _ hblank ih =>
      rw [Bool.and_eq_true, List.isPrefixOf_iff_prefix] at hblank
      exact absurd (hblank.2.isInfix.trans
        ((List.dropWhile_suffix _).trans (List.suffix_cons c t)).isInfix) hclosing
  | case4 c t _ _ ih =>
      have htail {pattern : Text} (h : ¬ pattern <:+: c :: t) : ¬ pattern <:+: t :=
        fun hstands => h (hstands.trans (List.suffix_cons c t).isInfix)
      rw [ih (htail hopening) (htail hclosing)]

end Stencil
