import Stencil.Proofs.Placeholder.Padding

/-!
How tight a tightened text is.  No space or tab is left behind an opening delimiter.  Before a
closing one some are left where a brace between blanks stands before a delimiter: taking the blanks
behind that brace away makes a new delimiter of it, and the blanks before it have been passed.
Everywhere else a tightened text is a normal form.
-/

namespace Stencil

open Piece

/-- A space or tab stands right before a closing delimiter. -/
def Loose (t : Text) : Prop :=
  ∃ c, isInlineSpace c ∧ c :: closing <:+: t

/-- The text ends in an opening delimiter when its braces are paired from the left. -/
def EndsOpen : Text → Prop
  | [] => False
  | '{' :: '{' :: t => t = [] ∨ EndsOpen t
  | _ :: t => EndsOpen t

/-- The text begins with a closing brace between blanks, and a closing delimiter follows. -/
def BeginsSpaced (t : Text) : Prop :=
  ∃ left right back, t = left ++ '}' :: (right ++ (closing ++ back)) ∧ left ≠ [] ∧ right ≠ [] ∧
    (∀ c ∈ left, isInlineSpace c) ∧ ∀ c ∈ right, isInlineSpace c

/-- A closing brace stands between blanks before a closing delimiter, and the blanks on its left are
not those behind an opening one. -/
def HoldsSpaced (t : Text) : Prop :=
  ∃ front rest, t = front ++ rest ∧ BeginsSpaced rest ∧
    (∀ c ∈ front.getLast?, isInlineSpace c = false) ∧ ¬ EndsOpen front

theorem endsOpen_opening_append (t : Text) : EndsOpen (opening ++ t) ↔ t = [] ∨ EndsOpen t :=
  Iff.rfl

theorem endsOpen_cons {c : Char} {t : Text} (h : Text.after? opening (c :: t) = none) :
    EndsOpen (c :: t) ↔ EndsOpen t := by
  rw [EndsOpen]
  rintro t' rfl rfl
  simp [opening, Text.after?] at h

theorem endsOpen_cons_of_ne {c : Char} (hc : c ≠ '{') (t : Text) :
    EndsOpen (c :: t) ↔ EndsOpen t :=
  endsOpen_cons (by simp [opening, Text.after?, Ne.symm hc])

theorem endsOpen_append_of_notMem {front : Text} (h : '{' ∉ front) (t : Text) :
    EndsOpen (front ++ t) ↔ EndsOpen t := by
  induction front with
  | nil => exact Iff.rfl
  | cons c front ih =>
      rw [List.mem_cons, not_or] at h
      rw [List.cons_append, endsOpen_cons_of_ne (Ne.symm h.1), ih h.2]

theorem endsOpen_dropWhile (t : Text) : EndsOpen (t.dropWhile isInlineSpace) ↔ EndsOpen t := by
  rw [← endsOpen_append_of_notMem (brace_notMem_takeWhile t), List.takeWhile_append_dropWhile]

namespace BeginsSpaced

variable {c : Char} {t : Text}

theorem head (h : BeginsSpaced (c :: t)) : isInlineSpace c := by
  obtain ⟨left, right, back, heq, hne, -, hleft, -⟩ := h
  obtain ⟨d, left, rfl⟩ := List.exists_cons_of_ne_nil hne
  obtain ⟨rfl, -⟩ := List.cons.inj heq
  exact hleft c List.mem_cons_self

theorem ne_nil (h : BeginsSpaced t) : t ≠ [] := by
  obtain ⟨left, right, back, rfl, -⟩ := h
  exact List.append_ne_nil_of_right_ne_nil _ (List.cons_ne_nil _ _)

theorem cons (hc : isInlineSpace c) (h : BeginsSpaced t) : BeginsSpaced (c :: t) := by
  obtain ⟨left, right, back, rfl, -, hne, hleft, hright⟩ := h
  refine ⟨c :: left, right, back, rfl, List.cons_ne_nil c left, hne, ?_, hright⟩
  rw [List.forall_mem_cons]
  exact ⟨hc, hleft⟩

theorem calm (h : BeginsSpaced t) : Calm t := by
  obtain ⟨left, right, back, rfl, -, hne, hleft, hright⟩ := h
  obtain ⟨d, right, rfl⟩ := List.exists_cons_of_ne_nil hne
  have hd : '}' ≠ d := by
    rintro rfl
    exact absurd (hright '}' List.mem_cons_self) (by decide)
  rw [Calm, List.dropWhile_append_of_pos hleft]
  simp [closing, isInlineSpace, List.isPrefixOf, hd]

theorem exists_eq (h : BeginsSpaced (c :: t)) :
    BeginsSpaced t ∨ ∃ right back, t = '}' :: (right ++ (closing ++ back)) ∧
      ∀ c ∈ right, isInlineSpace c := by
  obtain ⟨left, right, back, heq, hne, hright, hleft, hblank⟩ := h
  obtain ⟨d, left, rfl⟩ := List.exists_cons_of_ne_nil hne
  rw [List.cons_append, List.cons.injEq] at heq
  rw [List.forall_mem_cons] at hleft
  cases left with
  | nil => exact Or.inr ⟨right, back, heq.2, hblank⟩
  | cons e left =>
      exact Or.inl ⟨e :: left, right, back, heq.2, List.cons_ne_nil e left, hright, hleft.2, hblank⟩

end BeginsSpaced

theorem not_holdsSpaced_nil : ¬ HoldsSpaced [] := by
  rintro ⟨front, rest, heq, hrest, -⟩
  exact hrest.ne_nil (List.append_eq_nil_iff.mp heq.symm).2

theorem holdsSpaced_cons {c : Char} {t : Text} (h : Text.after? opening (c :: t) = none) :
    HoldsSpaced (c :: t) ↔ BeginsSpaced (c :: t) ∨ HoldsSpaced t := by
  constructor
  · rintro ⟨front, rest, heq, hrest, hlast, hopen⟩
    cases front with
    | nil =>
        rw [List.nil_append] at heq
        exact Or.inl (heq ▸ hrest)
    | cons d front =>
        rw [List.cons_append, List.cons.injEq] at heq
        obtain ⟨rfl, rfl⟩ := heq
        have hfront := after?_opening_of_append h
        refine Or.inr ⟨front, rest, rfl, hrest, ?_, (endsOpen_cons hfront).not.mp hopen⟩
        cases front with
        | nil => simp
        | cons e front => rwa [List.getLast?_cons_cons] at hlast
  · rintro (hrest | ⟨front, rest, rfl, hrest, hlast, hopen⟩)
    · exact ⟨[], c :: t, rfl, hrest, by simp, id⟩
    · by_cases hjoined : front = [] ∧ isInlineSpace c
      · obtain ⟨rfl, hc⟩ := hjoined
        exact ⟨[], c :: rest, rfl, hrest.cons hc, by simp, id⟩
      · have hfront := after?_opening_of_append h
        refine ⟨c :: front, rest, rfl, hrest, ?_, (endsOpen_cons hfront).not.mpr hopen⟩
        cases front with
        | nil => simpa using hjoined
        | cons e front => rwa [List.getLast?_cons_cons]

theorem holdsSpaced_opening_append (t : Text) :
    HoldsSpaced (opening ++ t) ↔ HoldsSpaced (t.dropWhile isInlineSpace) := by
  have hparts := List.takeWhile_append_dropWhile (p := isInlineSpace) (l := t)
  constructor
  · rintro ⟨front, rest, heq, hrest, hlast, hopen⟩
    rcases List.append_eq_append_iff.mp heq with ⟨front, rfl, rfl⟩ | ⟨braces, hbraces, rfl⟩
    · have hne : front ≠ [] := fun hnil => hopen (Or.inl hnil)
      rw [List.getLast?_append_of_ne_nil _ hne] at hlast
      have hparts := List.takeWhile_append_dropWhile (p := isInlineSpace) (l := front)
      have hsolid : front.dropWhile isInlineSpace ≠ [] := by
        rw [Ne, List.dropWhile_eq_nil_iff]
        intro hall
        have hspace := hall _ (List.getLast_mem hne)
        rw [hlast _ (List.getLast?_eq_getLast_of_ne_nil hne)] at hspace
        exact Bool.false_ne_true hspace
      refine ⟨front.dropWhile isInlineSpace, rest, ?_, hrest, ?_, ?_⟩
      · rw [List.dropWhile_append, if_neg (by simpa using hsolid)]
      · rwa [← hparts, List.getLast?_append_of_ne_nil _ hsolid] at hlast
      · rw [endsOpen_dropWhile]
        exact fun hends => hopen (Or.inr hends)
    · cases braces with
      | nil =>
          rw [List.append_nil] at hbraces
          exact absurd (Or.inl rfl) (hbraces ▸ hopen)
      | cons c braces =>
          have hc : c ∈ opening := by simp [hbraces]
          obtain rfl : c = '{' := by simpa [opening] using hc
          exact absurd hrest.head (by decide)
  · rintro ⟨front, rest, heq, hrest, hlast, hopen⟩
    have hne : front ≠ [] := by
      rintro rfl
      obtain ⟨c, rest, rfl⟩ := List.exists_cons_of_ne_nil hrest.ne_nil
      have hhead := List.head?_dropWhile_not isInlineSpace t
      rw [heq] at hhead
      simp [hrest.head] at hhead
    refine ⟨opening ++ (t.takeWhile isInlineSpace ++ front), rest, ?_, hrest, ?_, ?_⟩
    · rw [List.append_assoc, List.append_assoc, ← heq, hparts]
    · rwa [← List.append_assoc, List.getLast?_append_of_ne_nil _ hne]
    · rw [endsOpen_opening_append, endsOpen_append_of_notMem (brace_notMem_takeWhile t)]
      rintro (hnil | hends)
      · exact hne (List.append_eq_nil_iff.mp hnil).2
      · exact hopen hends

theorem not_loose_nil : ¬ Loose [] := by
  rintro ⟨c, -, hstands⟩
  simp at hstands

theorem loose_cons {c : Char} {t : Text} :
    Loose (c :: t) ↔ (isInlineSpace c ∧ closing <+: t) ∨ Loose t := by
  constructor
  · rintro ⟨d, hd, hstands⟩
    rcases List.infix_cons_iff.mp hstands with hstarts | hstands
    · obtain ⟨rfl, hclosing⟩ := List.cons_prefix_cons.mp hstarts
      exact Or.inl ⟨hd, hclosing⟩
    · exact Or.inr ⟨d, hd, hstands⟩
  · rintro (⟨hc, hclosing⟩ | ⟨d, hd, hstands⟩)
    · exact ⟨c, hc, (List.cons_prefix_cons.mpr ⟨rfl, hclosing⟩).isInfix⟩
    · exact ⟨d, hd, hstands.trans (List.suffix_cons c t).isInfix⟩

theorem loose_opening_append {t : Text} : Loose (opening ++ t) ↔ Loose t := by
  have hbrace : isInlineSpace '{' = false := by decide
  rw [opening, List.cons_append, List.singleton_append, loose_cons, loose_cons]
  simp [hbrace]

theorem loose_of_closing {c : Char} (hc : isInlineSpace c) {t : Text}
    (h : closing.isPrefixOf (t.dropWhile isInlineSpace)) : Loose (c :: t) := by
  induction t generalizing c with
  | nil => simp [closing] at h
  | cons d t ih =>
      cases hd : isInlineSpace d with
      | true =>
          rw [List.dropWhile_cons_of_pos hd] at h
          exact loose_cons.mpr (Or.inr (ih hd h))
      | false =>
          rw [List.dropWhile_cons_of_neg (by simp [hd])] at h
          exact loose_cons.mpr (Or.inl ⟨hc, List.isPrefixOf_iff_prefix.mp h⟩)

theorem head?_tighten_dropWhile (t : Text) :
    ∀ c ∈ (tighten (t.dropWhile isInlineSpace)).head?, isInlineSpace c = false := by
  intro c hc
  cases hspace : isInlineSpace c with
  | false => rfl
  | true =>
      have hne : c ≠ '}' := by
        rintro rfl
        exact absurd hspace (by decide)
      have hhead := List.head?_dropWhile_not isInlineSpace t
      rw [head?_tighten hc hne] at hhead
      simp [hspace] at hhead

theorem dropWhile_tighten_dropWhile (t : Text) :
    (tighten (t.dropWhile isInlineSpace)).dropWhile isInlineSpace =
      tighten (t.dropWhile isInlineSpace) := by
  have hhead := head?_tighten_dropWhile t
  generalize tighten (t.dropWhile isInlineSpace) = tight at hhead
  cases tight with
  | nil => rfl
  | cons c tight => exact List.dropWhile_cons_of_neg (by simp [hhead c rfl])

theorem not_loose_of_tighten_eq_self {t : Text} (h : tighten t = t) : ¬ Loose t := by
  induction t using opening_induction with
  | nil => exact not_loose_nil
  | opening t ih =>
      rw [tighten_opening_append] at h
      have htail : tighten (t.dropWhile isInlineSpace) = t := List.append_cancel_left h
      have hdrop : t.dropWhile isInlineSpace = t := by
        apply (List.dropWhile_sublist isInlineSpace).eq_of_length_le
        have hle := (tighten_sublist (t.dropWhile isInlineSpace)).length_le
        rwa [htail] at hle
      rw [hdrop] at ih htail
      rw [loose_opening_append]
      exact ih htail
  | plain c t hopen ih =>
      by_cases hblank : (isInlineSpace c && closing.isPrefixOf (t.dropWhile isInlineSpace)) = true
      · rw [Bool.and_eq_true] at hblank
        have hle := (tighten_sublist t).length_le
        rw [← tighten_blank hblank.1 hblank.2, h, List.length_cons] at hle
        omega
      · rw [tighten_kept hopen hblank] at h
        rw [loose_cons]
        rintro (⟨hc, rest, rfl⟩ | hloose)
        · exact hblank (by rw [hc]; rfl)
        · exact ih (List.cons.inj h).2 hloose

theorem tighten_tighten_of_not_loose {t : Text} (h : ¬ Loose (tighten t)) :
    tighten (tighten t) = tighten t := by
  induction t using opening_induction with
  | nil => simp [tighten]
  | opening t ih =>
      rw [tighten_opening_append, loose_opening_append] at h
      rw [tighten_opening_append, tighten_opening_append, dropWhile_tighten_dropWhile, ih h]
  | plain c t hopen ih =>
      by_cases hblank : (isInlineSpace c && closing.isPrefixOf (t.dropWhile isInlineSpace)) = true
      · rw [Bool.and_eq_true] at hblank
        rw [tighten_blank hblank.1 hblank.2] at h ⊢
        exact ih h
      · rw [tighten_kept hopen hblank] at h ⊢
        have htail : ¬ Loose (tighten t) := fun hloose => h (loose_cons.mpr (Or.inr hloose))
        have hkept : ¬ (isInlineSpace c &&
            closing.isPrefixOf ((tighten t).dropWhile isInlineSpace)) = true := by
          rw [Bool.and_eq_true]
          rintro ⟨hc, hclosing⟩
          exact h (loose_of_closing hc hclosing)
        rw [tighten_kept (after?_opening_cons_tighten hopen) hkept, ih htail]

theorem brace_head_of_tighten {t : Text} (h : (tighten t).head? = some '}') :
    t.head? = some '}' ∨ closing <+: t.dropWhile isInlineSpace := by
  revert h
  fun_cases tighten t with
  | case1 => exact Or.inl
  | case2 c t rest hopen => exact fun h => absurd (Option.some.inj h) (by decide)
  | case3 c t _ hblank =>
      rw [Bool.and_eq_true, List.isPrefixOf_iff_prefix] at hblank
      rw [List.dropWhile_cons_of_pos hblank.1]
      exact fun _ => Or.inr hblank.2
  | case4 c t => exact Or.inl

/-- A delimiter that comes to close a tight text has closed before, or its first brace stood there
and the spaces and tabs behind it have gone. -/
theorem closing_prefix_tighten {t : Text} (hcalm : Calm t) (h : closing <+: tighten t) :
    ∃ right back, t = '}' :: (right ++ (closing ++ back)) ∧ right ≠ [] ∧
      ∀ c ∈ right, isInlineSpace c := by
  obtain ⟨rest, hrest⟩ := h
  have hhead : (tighten t).head? = some '}' := by
    rw [← hrest]
    rfl
  have hfirst := (brace_head_of_tighten hhead).resolve_right (calm_iff.mp hcalm)
  obtain ⟨t, rfl⟩ := List.head?_eq_some_iff.mp hfirst
  rw [tighten_brace_cons] at hrest
  have hsecond : (tighten t).head? = some '}' := by
    rw [← (List.cons.inj hrest).2]
    rfl
  have hnext : t.head? ≠ some '}' := by
    intro hnext
    obtain ⟨t, rfl⟩ := List.head?_eq_some_iff.mp hnext
    exact absurd hcalm (by simp [Calm, isInlineSpace, closing])
  obtain ⟨back, hback⟩ := (brace_head_of_tighten hsecond).resolve_left hnext
  have hparts := List.takeWhile_append_dropWhile (p := isInlineSpace) (l := t)
  refine ⟨t.takeWhile isInlineSpace, back, by rw [hback, hparts], ?_, ?_⟩
  · intro hnil
    rw [hnil, List.nil_append, ← hback] at hparts
    exact hnext (by rw [← hparts]; rfl)
  · exact List.all_eq_true.mp List.all_takeWhile

theorem closing_prefix_tighten_brace {right : Text} (h : ∀ c ∈ right, isInlineSpace c)
    (back : Text) : closing <+: tighten ('}' :: (right ++ (closing ++ back))) := by
  rw [tighten_brace_cons, tighten_blanks_append_closing h]
  exact List.prefix_append closing ('}' :: tighten back)

theorem loose_tighten_iff {t : Text} : Loose (tighten t) ↔ HoldsSpaced t := by
  induction t using opening_induction with
  | nil => simp [tighten, not_loose_nil, not_holdsSpaced_nil]
  | opening t ih =>
      rw [tighten_opening_append, loose_opening_append, ih, holdsSpaced_opening_append]
  | plain c t hopen ih =>
      rw [holdsSpaced_cons hopen]
      by_cases hblank : (isInlineSpace c && closing.isPrefixOf (t.dropWhile isInlineSpace)) = true
      · rw [Bool.and_eq_true] at hblank
        rw [tighten_blank hblank.1 hblank.2, ih]
        refine ⟨Or.inr, ?_⟩
        rintro (hspaced | hspaced)
        · have hcalm := hspaced.calm
          rw [Calm, List.dropWhile_cons_of_pos hblank.1] at hcalm
          exact absurd (hcalm.symm.trans hblank.2) (by decide)
        · exact hspaced
      · rw [tighten_kept hopen hblank, loose_cons, ih]
        constructor
        · rintro (⟨hc, hclosing⟩ | hspaced)
          · -- the blank has stayed, so the delimiter behind it has come about
            have hcalm : Calm t := by
              rw [Calm, Bool.eq_false_iff]
              intro hclosing
              exact hblank (by rw [hc, hclosing]; rfl)
            obtain ⟨right, back, rfl, hne, hright⟩ := closing_prefix_tighten hcalm hclosing
            exact Or.inl ⟨[c], right, back, rfl, by simp, hne, by simpa using hc, hright⟩
          · exact Or.inr hspaced
        · rintro (hspaced | hspaced)
          · rcases hspaced.exists_eq with htail | ⟨right, back, rfl, hright⟩
            · exact Or.inr ⟨[], t, rfl, htail, by simp, id⟩
            · exact Or.inl ⟨hspaced.head, closing_prefix_tighten_brace hright back⟩
          · exact Or.inr hspaced

theorem tighten_tighten_iff {t : Text} : tighten (tighten t) = tighten t ↔ ¬ HoldsSpaced t := by
  rw [← loose_tighten_iff]
  exact ⟨not_loose_of_tighten_eq_self, tighten_tighten_of_not_loose⟩

theorem exists_of_not_settled {inner : Text} (h : IsInner inner) (hsettled : ¬ Settled inner) :
    ∃ front c blanks, inner = front ++ '}' :: c :: blanks ∧ ∀ d ∈ c :: blanks, isInlineSpace d := by
  simp only [Settled, not_forall] at hsettled
  obtain ⟨front, back, rfl, hblank⟩ := hsettled
  cases back with
  | nil => exact absurd h.of_append.2.1 (by decide)
  | cons c blanks => exact ⟨front, c, blanks, rfl, isInlineSpace_of_forall hblank⟩

/-- What tightening makes of a placeholder: a placeholder, and the brace that stood before the last
blanks of the inner text behind it. -/
structure DelimitsTo (inner b braces : Text) : Prop where
  isInner : IsInner b
  head : ∀ c ∈ b.head?, isInlineSpace c = false
  brace : ∀ c ∈ braces, c = '}'
  tighten : ∀ rest, tighten (delimited inner ++ rest) = delimited b ++ (braces ++ tighten rest)

theorem exists_delimitsTo_of_brace {front : Text} {c : Char} {blanks : Text}
    (h : IsInner (front ++ '}' :: c :: blanks)) (hblank : ∀ d ∈ c :: blanks, isInlineSpace d) :
    ∃ b, DelimitsTo (front ++ '}' :: c :: blanks) b ['}'] := by
  obtain ⟨b, hb⟩ := exists_tighten_append (a := '}') (by decide) c
    (front.dropWhile isInlineSpace) (by simp)
  have hstands : tighten ((front ++ ['}', c]).dropWhile isInlineSpace) =
      b ++ '}' :: tighten [c] := by
    rw [dropWhile_append_of_solid (by decide), hb, tighten_brace_cons]
  refine ⟨b, ?_, ?_, by simp, ?_⟩
  · -- nothing closes up to the first blank behind the brace
    have hc := hblank c List.mem_cons_self
    have hbrace : c ≠ '}' := by
      rintro rfl
      exact absurd hc (by decide)
    have hinner : IsInner (front ++ ['}'] ++ [c]) :=
      h.concat_of_infix ⟨[], c :: blanks, by simp⟩ (ne_newline_of_isInlineSpace hc) hbrace
    rw [List.append_assoc, List.singleton_append] at hinner
    have hclose := close?_tighten (close?_dropWhile hinner.close?_eq_none)
    rw [hstands] at hclose
    refine isInner_of_close?_append hclose fun hmem => hinner.newline_notMem ?_
    apply ((tighten_sublist _).trans (List.dropWhile_sublist isInlineSpace)).subset
    rw [hstands]
    exact List.mem_append_left _ hmem
  · have hhead := head?_tighten_dropWhile (front ++ ['}', c])
    rw [hstands] at hhead
    cases b with
    | nil => simp
    | cons d b => exact hhead
  · intro rest
    have htail : tighten ('}' :: ((c :: blanks) ++ (closing ++ rest))) =
        closing ++ ('}' :: tighten rest) := by
      rw [tighten_brace_cons, tighten_blanks_append_closing hblank]
      rfl
    rw [List.cons_append] at htail
    rw [delimited, List.append_assoc, List.append_assoc, tighten_opening_append,
      List.append_assoc, List.cons_append, dropWhile_append_of_solid (by decide), List.cons_append,
      hb, htail]
    simp [delimited]

theorem exists_delimitsTo {inner : Text} (h : IsInner inner) :
    ∃ b braces, DelimitsTo inner b braces := by
  by_cases hsettled : Settled inner
  · obtain ⟨b, hb, hinner, htight⟩ := exists_tighten_delimited_of_settled h hsettled
    exact ⟨b, [], hinner, hb.head, by simp, htight⟩
  · obtain ⟨front, c, blanks, rfl, hblank⟩ := exists_of_not_settled h hsettled
    obtain ⟨b, hb⟩ := exists_delimitsTo_of_brace h hblank
    exact ⟨b, ['}'], hb⟩

theorem not_loose_of_forall_brace {t : Text} (h : ∀ c ∈ t, c = '}') : ¬ Loose t := by
  rintro ⟨c, hc, hstands⟩
  obtain rfl := h c (hstands.subset List.mem_cons_self)
  exact absurd hc (by decide)

theorem loose_append_closing_iff {b braces : Text} (hb : IsInner b)
    (hbraces : ∀ c ∈ braces, c = '}') :
    Loose (b ++ (closing ++ braces)) ↔ ∃ c ∈ b.getLast?, isInlineSpace c := by
  induction b with
  | nil =>
      have hall : ∀ c ∈ closing ++ braces, c = '}' := by
        simpa [closing] using hbraces
      simpa using not_loose_of_forall_brace hall
  | cons c b ih =>
      rw [List.cons_append, loose_cons, ih hb.2.2]
      cases b with
      | nil => simp
      | cons d b =>
          have hnot : ¬ closing <+: d :: b ++ (closing ++ braces) := by
            rintro ⟨rest, hrest⟩
            have hnone := hb.2.2.after?_closing braces
            rw [← List.cons_append, ← hrest, Text.after?_eq_some_iff.mpr rfl] at hnone
            exact absurd hnone (by simp)
          rw [List.getLast?_cons_cons]
          exact or_iff_right fun hboth => hnot hboth.2

namespace DelimitsTo

variable {inner b braces : Text}

theorem ends_iff (h : DelimitsTo inner b braces) :
    (∃ c ∈ b.getLast?, isInlineSpace c) ↔ HoldsSpaced (delimited inner) := by
  have htight := h.tighten []
  rw [List.append_nil, Stencil.tighten, List.append_nil, delimited.eq_def b, List.append_assoc,
    List.append_assoc] at htight
  rw [← loose_tighten_iff, htight, loose_opening_append, loose_append_closing_iff h.isInner h.brace]

theorem inners_eq (h : DelimitsTo inner b braces) (rest : Text) :
    inners (Stencil.tighten (delimited inner ++ rest)) = b :: inners (Stencil.tighten rest) := by
  have hbrace : '{' ∉ braces := fun hmem => absurd (h.brace _ hmem) (by decide)
  rw [h.tighten, inners_delimited_append h.isInner, inners_append_of_notMem hbrace]

end DelimitsTo

/-- The inner text of the tight placeholder begins with no space or tab, and ends in one exactly
when a brace stood between blanks before the delimiter. -/
structure Narrowed (inner b : Text) : Prop where
  head : ∀ c ∈ b.head?, isInlineSpace c = false
  last : (∀ c ∈ b.getLast?, isInlineSpace c = false) ↔ ¬ HoldsSpaced (delimited inner)

theorem forall₂_narrowed (t : Text) : List.Forall₂ Narrowed (inners t) (inners (tighten t)) := by
  apply forall₂_inners_tighten
  intro inner hinner rest
  obtain ⟨b, braces, hb⟩ := exists_delimitsTo (isInner_of_mem_inners hinner)
  refine ⟨b, ⟨hb.head, ?_⟩, hb.inners_eq rest⟩
  rw [← hb.ends_iff]
  simp

/-- A tight text is a normal form, and a placeholder of it ends in no space or tab, exactly when no
closing brace stands between blanks before a delimiter.  None begins with one. -/
theorem tight_text_is_normal_iff (t : Text) :
    (tighten (tighten t) = tighten t ↔ ¬ HoldsSpaced t) ∧
      ((∀ p ∈ placeholders (tighten t), ∀ c ∈ p.inner.getLast?, isInlineSpace c = false) ↔
        ∀ p ∈ placeholders t, ¬ HoldsSpaced (delimited p.inner)) ∧
      ∀ p ∈ placeholders (tighten t), ∀ c ∈ p.inner.head?, isInlineSpace c = false := by
  have hnarrowed := forall₂_narrowed t
  refine ⟨tighten_tighten_iff, ?_, ?_⟩
  · rw [forall_mem_placeholders (q := fun inner => ∀ c ∈ inner.getLast?, isInlineSpace c = false),
      forall_mem_placeholders (q := fun inner => ¬ HoldsSpaced (delimited inner))]
    exact forall_mem_iff_of_forall₂ hnarrowed fun _ _ h => h.last
  · rw [forall_mem_placeholders (q := fun inner => ∀ c ∈ inner.head?, isInlineSpace c = false),
      forall_mem_iff_of_forall₂ (p := fun _ => True) hnarrowed fun _ _ h => iff_true_intro h.head]
    exact fun _ _ => trivial

/-- The blank behind the letter has been passed when the brace comes to stand before the other two;
a second pass takes it away. -/
theorem brace_between_blanks_keeps_its_blank :
    let t := "\x7b\x7ba \x7d \x7d\x7d".toList
    placeholders t = [⟨0, 8, "a \x7d ".toList⟩] ∧
      tighten t = "\x7b\x7ba \x7d\x7d\x7d".toList ∧
      placeholders (tighten t) = [⟨0, 6, "a ".toList⟩] ∧
      tighten (tighten t) = "\x7b\x7ba\x7d\x7d\x7d".toList := by
  decide +kernel

end Stencil
