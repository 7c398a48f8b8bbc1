import Mathlib.Data.List.TakeWhile
import Stencil.Proofs.Placeholder.Inners
import Stencil.Proofs.Placeholder.Matching

namespace Stencil

open Piece

theorem thinned_tighten (t : Text) : Thinned (tighten t) t := by
  fun_induction tighten t with
  | case1 => exact .nil
  | case2 c t rest hopen ih =>
      rw [Text.after?_eq_some_iff.mp hopen]
      exact .keep _ (.keep _ ih.of_dropWhile)
  | case3 c t _ hblank ih =>
      rw [Bool.and_eq_true] at hblank
      exact .drop hblank.1 ih
  | case4 c t _ _ ih => exact .keep c ih

theorem after?_opening_cons_append {c : Char} {front : Text}
    (h : Text.after? opening (c :: front) = none) {t : Text}
    (hnext : front = [] → c = '{' → t.head? ≠ some '{') :
    Text.after? opening (c :: (front ++ t)) = none := by
  rw [Option.eq_none_iff_forall_ne_some]
  intro rest hrest
  obtain ⟨rfl, htail⟩ : c = '{' ∧ front ++ t = '{' :: rest := by
    simpa [opening] using Text.after?_eq_some_iff.mp hrest
  cases front with
  | nil =>
      rw [List.nil_append] at htail
      exact hnext rfl rfl (by rw [htail, List.head?_cons])
  | cons d front =>
      obtain ⟨rfl, -⟩ := List.cons.inj htail
      simp [opening, Text.after?] at h

theorem after?_opening_of_append {c : Char} {front t : Text}
    (h : Text.after? opening (c :: (front ++ t)) = none) :
    Text.after? opening (c :: front) = none := by
  cases front with
  | nil => simp [opening, Text.after?]
  | cons d front => simpa [opening, Text.after?] using h

/-- What is made of a text before two characters, the first of them no space or tab, does not depend
on what follows them.  The two must not be torn from a brace with which the first one is paired. -/
theorem exists_tighten_append {a : Char} (ha : isInlineSpace a = false) (b : Char) (front : Text)
    (hfront : a = '{' → front.getLast? ≠ some '{') :
    ∃ tight, ∀ rest, tighten (front ++ (a :: b :: rest)) = tight ++ tighten (a :: b :: rest) := by
  have hclosing (front rest : Text) : closing.isPrefixOf (front ++ (a :: b :: rest)) =
      closing.isPrefixOf (front ++ [a, b]) := by
    rcases front with _ | ⟨c, _ | ⟨d, front⟩⟩
    · rfl
    · rfl
    · rfl
  induction front using opening_induction with
  | nil => exact ⟨[], fun _ => rfl⟩
  | opening front ih =>
      have hlast : a = '{' → (front.dropWhile isInlineSpace).getLast? ≠ some '{' := by
        intro hbrace hends
        obtain ⟨init, hinit⟩ := List.getLast?_eq_some_iff.mp hends
        have hparts := List.takeWhile_append_dropWhile (p := isInlineSpace) (l := front)
        apply hfront hbrace
        rw [← hparts, hinit, ← List.append_assoc, ← List.append_assoc, List.getLast?_concat]
      obtain ⟨tight, htight⟩ := ih hlast
      refine ⟨opening ++ tight, fun rest => ?_⟩
      rw [List.append_assoc, tighten_opening_append, dropWhile_append_of_solid ha, htight,
        List.append_assoc]
  | plain c front hopen ih =>
      have hlast : a = '{' → front.getLast? ≠ some '{' := by
        intro hbrace hends
        obtain ⟨init, rfl⟩ := List.getLast?_eq_some_iff.mp hends
        exact hfront hbrace (by rw [← List.cons_append, List.getLast?_concat])
      obtain ⟨tight, htight⟩ := ih hlast
      by_cases hblank : (isInlineSpace c && closing.isPrefixOf
          (front.dropWhile isInlineSpace ++ [a, b])) = true
      · refine ⟨tight, fun rest => ?_⟩
        rw [Bool.and_eq_true] at hblank
        rw [List.cons_append, tighten_blank hblank.1, htight]
        rw [dropWhile_append_of_solid ha, hclosing]
        exact hblank.2
      · refine ⟨c :: tight, fun rest => ?_⟩
        rw [List.cons_append, tighten_kept, htight, List.cons_append]
        · apply after?_opening_cons_append hopen
          rintro rfl rfl
          rw [List.head?_cons]
          exact fun hbrace => hfront (Option.some.inj hbrace) rfl
        · rwa [dropWhile_append_of_solid ha, hclosing]

theorem tighten_blanks_append_closing {blanks : Text} (h : ∀ c ∈ blanks, isInlineSpace c)
    (rest : Text) : tighten (blanks ++ (closing ++ rest)) = closing ++ tighten rest := by
  induction blanks with
  | nil => exact tighten_closing_append rest
  | cons c blanks ih =>
      rw [List.forall_mem_cons] at h
      rw [List.cons_append, tighten_blank h.1, ih h.2]
      rw [List.dropWhile_append_of_pos h.2]
      rfl

theorem isInner_of_isInlineSpace {blanks : Text} (h : ∀ c ∈ blanks, isInlineSpace c) :
    IsInner blanks := by
  apply isInner_of_notMem
  · exact fun hmem => ne_newline_of_isInlineSpace (h _ hmem) rfl
  · exact fun hmem => absurd (h _ hmem) (by decide)

theorem tighten_dropWhile_append_blanks {inner blanks rest : Text}
    (hblanks : ∀ c ∈ blanks, isInlineSpace c)
    (h : tighten (inner.dropWhile isInlineSpace ++ (blanks ++ (closing ++ rest))) =
      tighten (inner.dropWhile isInlineSpace ++ (closing ++ rest))) :
    tighten ((inner ++ (blanks ++ (closing ++ rest))).dropWhile isInlineSpace) =
      tighten ((inner ++ (closing ++ rest)).dropWhile isInlineSpace) := by
  rw [← List.append_assoc, dropWhile_append_closing, dropWhile_append_closing,
    List.dropWhile_append]
  split
  next hnil => rw [List.isEmpty_iff.mp hnil, List.dropWhile_eq_nil_iff.mpr hblanks]
  next => rw [List.append_assoc, h]

theorem tighten_inner_append_blanks {inner : Text} (h : IsInner inner) {blanks : Text}
    (hblanks : ∀ c ∈ blanks, isInlineSpace c) (rest : Text) :
    tighten (inner ++ (blanks ++ (closing ++ rest))) = tighten (inner ++ (closing ++ rest)) := by
  induction inner using opening_induction with
  | nil =>
      rw [List.nil_append, List.nil_append, tighten_blanks_append_closing hblanks,
        tighten_closing_append]
  | opening inner ih =>
      have hinner : IsInner inner := h.2.2.2.2
      rw [← List.takeWhile_append_dropWhile (p := isInlineSpace) (l := inner)] at hinner
      rw [List.append_assoc, List.append_assoc, tighten_opening_append, tighten_opening_append,
        tighten_dropWhile_append_blanks hblanks (ih hinner.of_append)]
  | plain c inner hopen ih =>
      rw [List.cons_append, List.cons_append]
      apply tighten_cons_congr _ _ _ (ih h.2.2)
      · apply after?_opening_cons_append hopen
        rintro - - hbrace
        cases blanks with
        | nil => simp [closing] at hbrace
        | cons d blanks =>
            obtain rfl : d = '{' := by simpa using hbrace
            exact absurd (hblanks '{' List.mem_cons_self) (by decide)
      · exact after?_opening_cons_append hopen (by simp [closing])
      · -- a space or tab goes on both sides, or stays on both
        by_cases hsolid : ∃ d ∈ inner, isInlineSpace d = false
        · have hcalm : Calm (inner ++ blanks ++ (closing ++ rest)) := by
            obtain ⟨d, hd, hspace⟩ := hsolid
            exact calm_append_closing (h.2.2.append (isInner_of_isInlineSpace hblanks))
              ⟨d, List.mem_append_left _ hd, hspace⟩ rest
          rw [List.append_assoc] at hcalm
          exact hcalm.trans (calm_append_closing h.2.2 hsolid rest).symm
        · have hinner := isInlineSpace_of_forall hsolid
          rw [List.dropWhile_append_of_pos hinner, List.dropWhile_append_of_pos hinner,
            List.dropWhile_append_of_pos hblanks]

theorem tighten_delimited_padded {inner : Text} (h : IsInner inner) {left right : Text}
    (hleft : ∀ c ∈ left, isInlineSpace c) (hright : ∀ c ∈ right, isInlineSpace c) (rest : Text) :
    tighten (delimited (left ++ inner ++ right) ++ rest) = tighten (delimited inner ++ rest) := by
  rw [← List.takeWhile_append_dropWhile (p := isInlineSpace) (l := inner)] at h
  simp only [delimited, List.append_assoc, tighten_opening_append]
  rw [List.dropWhile_append_of_pos hleft, tighten_dropWhile_append_blanks hright
    (tighten_inner_append_blanks h.of_append hright rest)]

theorem getLast?_ne_of_mem_placeholders {t : Text} {p : Placeholder} (hp : p ∈ placeholders t)
    {before rest : Text} (ht : t = before ++ (delimited p.inner ++ rest))
    (hstart : Text.utf8Size before = p.start) : before.getLast? ≠ some '{' := by
  have hmatching := Placeholder.matching_placeholders t
  intro hlast
  obtain ⟨front, rfl⟩ := List.getLast?_eq_some_iff.mp hlast
  have hbrace : Text.utf8Size front + 1 = p.start := by
    rw [← hstart, Text.utf8Size_append]
    rfl
  have hline : '\n' ∉ '{' :: p.inner := by
    simpa using hmatching.line p hp
  have hearlier : t = front ++ (delimited ('{' :: p.inner) ++ rest) := by
    rw [ht]
    simp [delimited, opening]
  obtain ⟨q, hq, hqstart, hqstop⟩ := hmatching.complete _ _ _ hearlier hline
  have hpstop := hmatching.start_lt_stop hp
  rcases Nat.lt_or_ge p.start q.stop with hover | hends
  · have heq := hmatching.eq_of_common hp hq (n := p.start) ⟨Nat.le_refl _, hpstop⟩
      ⟨by omega, hover⟩
    rw [heq] at hbrace
    omega
  · -- the other one ends where this one begins, with a closing brace
    obtain ⟨before', rest', ht', hbefore', hstop'⟩ := hmatching.exists_source hq
    rw [ht, ← List.append_assoc before'] at ht'
    have hsize : Text.utf8Size (front ++ ['{']) = Text.utf8Size (before' ++ delimited q.inner) := by
      rw [hstart, Text.utf8Size_append, hbefore', hstop']
      omega
    obtain ⟨hsame, -⟩ := Text.append_inj_of_utf8Size ht' hsize
    have hclosed := congrArg List.getLast? hsame
    simp [delimited, closing] at hclosed

/-- Tightening takes away nothing but spaces and tabs, and for any placeholder those that are put
behind its opening and before its closing delimiter. -/
theorem blanks_inside_delimiters_do_not_matter (t : Text) :
    Thinned (tighten t) t ∧
      ∀ p ∈ placeholders t, ∃ before rest, t = before ++ (delimited p.inner ++ rest) ∧
        Text.utf8Size before = p.start ∧
        ∀ left right : Text, (∀ c ∈ left, isInlineSpace c) → (∀ c ∈ right, isInlineSpace c) →
          tighten (before ++ (delimited (left ++ p.inner ++ right) ++ rest)) = tighten t := by
  refine ⟨thinned_tighten t, ?_⟩
  intro p hp
  obtain ⟨before, rest, ht, hstart, -⟩ := (Placeholder.matching_placeholders t).exists_source hp
  refine ⟨before, rest, ht, hstart, ?_⟩
  intro left right hleft hright
  have hinner : IsInner p.inner :=
    (forall_mem_placeholders (q := IsInner)).mpr (fun _ => isInner_of_mem_inners) p hp
  have hlast := getLast?_ne_of_mem_placeholders hp ht hstart
  obtain ⟨tight, htight⟩ := exists_tighten_append (a := '{') (by decide) '{' before fun _ => hlast
  have hsource (inner : Text) : tighten (before ++ (delimited inner ++ rest)) =
      tight ++ tighten (delimited inner ++ rest) := htight (inner ++ closing ++ rest)
  rw [hsource, tighten_delimited_padded hinner hleft hright, ← hsource, ← ht]

theorem blanks_put_around_lone_braces :
    let t := "a\x7b\x7b \x7bb\x7d \x7d\x7d\x7b\x7b\n\x7b\x7bc \x7d\x7d".toList
    let p : Placeholder := ⟨1, 10, " \x7bb\x7d ".toList⟩
    p ∈ placeholders t ∧ (∀ c ∈ ['\t', ' '], isInlineSpace c) ∧ (∀ c ∈ [' '], isInlineSpace c) ∧
      ∃ before rest, t = before ++ (delimited p.inner ++ rest) ∧
        Text.utf8Size before = p.start ∧
        tighten (before ++ (delimited (['\t', ' '] ++ p.inner ++ [' ']) ++ rest)) = tighten t := by
  intro t p
  have hp : p ∈ placeholders t := by decide +kernel
  have hleft : ∀ c ∈ ['\t', ' '], isInlineSpace c := by simp [isInlineSpace]
  have hright : ∀ c ∈ [' '], isInlineSpace c := by simp [isInlineSpace]
  obtain ⟨before, rest, ht, hstart, hsame⟩ := (blanks_inside_delimiters_do_not_matter t).2 p hp
  exact ⟨hp, hleft, hright, before, rest, ht, hstart, hsame _ _ hleft hright⟩

end Stencil
