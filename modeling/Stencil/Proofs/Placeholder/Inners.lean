import Mathlib.Data.List.Forall2
import Stencil.Proofs.Placeholder.Thinned
import Stencil.Proofs.Placeholder.Tightening

/-!
Tightening of placeholders.  A placeholder loses spaces and tabs of its inner text and stays a
placeholder, and none comes up where there was none.  Only an inner text that ends in a brace and
blanks would end earlier: the brace comes to stand before the delimiter.
-/

namespace Stencil

open Piece

/-- Behind every closing brace of the text something stands that is no space or tab. -/
def Settled (t : Text) : Prop :=
  ∀ front back, t = front ++ '}' :: back → ∃ c ∈ back, isInlineSpace c = false

theorem Settled.of_append {front t : Text} (h : Settled (front ++ t)) : Settled t := by
  rintro front' back rfl
  exact h (front ++ front') back (List.append_assoc _ _ _).symm

theorem Settled.of_cons {c : Char} {t : Text} (h : Settled (c :: t)) : Settled t := by
  rintro front back rfl
  exact h (c :: front) back rfl

theorem isInlineSpace_of_forall {t : Text} (h : ¬ ∃ c ∈ t, isInlineSpace c = false) :
    ∀ c ∈ t, isInlineSpace c := by
  intro c hc
  cases hspace : isInlineSpace c with
  | true => rfl
  | false => exact absurd ⟨c, hc, hspace⟩ h

theorem dropWhile_append_of_solid {c : Char} (hc : isInlineSpace c = false) (t rest : Text) :
    (t ++ c :: rest).dropWhile isInlineSpace = t.dropWhile isInlineSpace ++ c :: rest := by
  rw [List.dropWhile_append]
  split
  next hnil =>
    rw [List.isEmpty_iff.mp hnil, List.nil_append, List.dropWhile_cons_of_neg (by simp [hc])]
  next => rfl

theorem dropWhile_append_closing (t rest : Text) :
    (t ++ (closing ++ rest)).dropWhile isInlineSpace =
      t.dropWhile isInlineSpace ++ (closing ++ rest) :=
  dropWhile_append_of_solid (by decide) t ('}' :: rest)

theorem calm_append_closing {t : Text} (h : IsInner t) (hsolid : ∃ c ∈ t, isInlineSpace c = false)
    (rest : Text) : Calm (t ++ (closing ++ rest)) := by
  obtain ⟨d, hd, hspace⟩ := hsolid
  rw [calm_iff, dropWhile_append_closing]
  have hparts := List.takeWhile_append_dropWhile (p := isInlineSpace) (l := t)
  cases hdrop : t.dropWhile isInlineSpace with
  | nil =>
      rw [hdrop, List.append_nil] at hparts
      rw [← hparts] at hd
      exact absurd (hspace.symm.trans (List.all_eq_true.mp List.all_takeWhile d hd)) (by decide)
  | cons e t' =>
      rw [hdrop] at hparts
      rw [← hparts] at h
      rintro ⟨rest', hrest'⟩
      have hnone := h.of_append.after?_closing rest
      rw [List.cons_append] at hrest'
      rw [← hrest', Text.after?_eq_some_iff.mpr rfl] at hnone
      exact absurd hnone (by simp)

/-- Before a closing delimiter the first text is tightened to the second one. -/
structure TightensTo (inner b : Text) : Prop where
  thinned : Thinned b inner
  isInner : IsInner b
  head : (∃ c ∈ inner, isInlineSpace c = false) → b.head? = inner.head?
  last : ∀ c ∈ b.getLast?, isInlineSpace c = false
  tighten : ∀ rest, tighten (inner ++ (closing ++ rest)) = b ++ (closing ++ tighten rest)

namespace TightensTo

variable {inner b : Text} {c : Char}

theorem nil : TightensTo [] [] :=
  ⟨.nil, trivial, fun _ => rfl, by simp, tighten_closing_append⟩

theorem opening (h : TightensTo (inner.dropWhile isInlineSpace) b) :
    TightensTo ('{' :: '{' :: inner) ('{' :: '{' :: b) := by
  refine ⟨.keep _ (.keep _ h.thinned.of_dropWhile), ?_, fun _ => rfl, ?_, ?_⟩
  · exact ⟨by decide, rfl, by decide, rfl, h.isInner⟩
  · intro c hc
    rw [List.getLast?_cons_cons] at hc
    cases b with
    | nil =>
        obtain rfl : '{' = c := by simpa using hc
        rfl
    | cons d b =>
        rw [List.getLast?_cons_cons] at hc
        exact h.last c hc
  · intro rest
    have hopened := tighten_opening_append (inner ++ (closing ++ rest))
    rw [dropWhile_append_closing, h.tighten] at hopened
    exact hopened

theorem blank (h : TightensTo inner b) (hc : isInlineSpace c)
    (hblank : ∀ c ∈ inner, isInlineSpace c) : TightensTo (c :: inner) b := by
  refine ⟨.drop hc h.thinned, h.isInner, ?_, h.last, ?_⟩
  · rintro ⟨d, hd, hsolid⟩
    rcases List.mem_cons.mp hd with rfl | hd
    · exact absurd (hsolid.symm.trans hc) (by decide)
    · exact absurd (hsolid.symm.trans (hblank d hd)) (by decide)
  · intro rest
    rw [List.cons_append, tighten_blank hc, h.tighten]
    rw [dropWhile_append_closing, ← List.append_nil inner, List.dropWhile_append_of_pos hblank,
      List.isPrefixOf_iff_prefix]
    exact List.prefix_append _ _

theorem kept (h : TightensTo inner b) (hinner : IsInner (c :: inner))
    (hopen : Text.after? Stencil.opening (c :: inner) = none)
    (hsolid : isInlineSpace c ∨ c = '}' → ∃ d ∈ inner, isInlineSpace d = false) :
    TightensTo (c :: inner) (c :: b) := by
  refine ⟨.keep c h.thinned, ⟨hinner.1, ?_, h.isInner⟩, fun _ => rfl, ?_, ?_⟩
  · by_cases hbrace : c = '}'
    · have hhead := h.head (hsolid (Or.inr hbrace))
      refine (after?_closing_cons ?_).mp hinner.2.1
      rw [List.head?_append, List.head?_append, hhead]
    · simp [closing, Text.after?, Ne.symm hbrace]
  · cases b with
    | nil =>
        intro d hd
        obtain rfl : c = d := by simpa using hd
        cases hspace : isInlineSpace c with
        | false => rfl
        | true =>
            have hhead := h.head (hsolid (Or.inl hspace))
            obtain ⟨e, he, -⟩ := hsolid (Or.inl hspace)
            rw [List.head?_nil, eq_comm, List.head?_eq_none_iff] at hhead
            rw [hhead] at he
            exact absurd he List.not_mem_nil
    | cons d b => exact h.last
  · intro rest
    rw [List.cons_append, tighten_kept ?_ ?_, h.tighten]
    · rfl
    · cases inner with
      | nil => simp [Stencil.opening, closing, Text.after?]
      | cons d inner => simpa [Stencil.opening, Text.after?] using hopen
    · rw [Bool.and_eq_true]
      rintro ⟨hspace, hclosing⟩
      have hcalm := calm_append_closing hinner.2.2 (hsolid (Or.inl hspace)) rest
      exact absurd (hcalm.symm.trans hclosing) (by decide)

end TightensTo

theorem exists_tightensTo {inner : Text} (h : IsInner inner) (hsettled : Settled inner) :
    ∃ b, TightensTo inner b := by
  induction inner using opening_induction with
  | nil => exact ⟨[], .nil⟩
  | opening inner ih =>
      have hparts := List.takeWhile_append_dropWhile (p := isInlineSpace) (l := inner)
      have hinner : IsInner inner := h.2.2.2.2
      have hbehind : Settled inner := hsettled.of_append
      rw [← hparts] at hinner hbehind
      obtain ⟨b, hb⟩ := ih hinner.of_append hbehind.of_append
      exact ⟨_, hb.opening⟩
  | plain c inner hopen ih =>
      obtain ⟨b, hb⟩ := ih h.2.2 hsettled.of_cons
      by_cases hblank : isInlineSpace c = true ∧ ∀ d ∈ inner, isInlineSpace d
      · exact ⟨b, hb.blank hblank.1 hblank.2⟩
      · refine ⟨c :: b, hb.kept h hopen ?_⟩
        rintro (hspace | rfl)
        · refine Classical.byContradiction fun hnone => ?_
          exact hblank ⟨hspace, isInlineSpace_of_forall hnone⟩
        · exact hsettled [] inner rfl

/-- What tightening makes of the inner text of a placeholder. -/
structure Tightened (inner b : Text) : Prop where
  thinned : Thinned b inner
  head : ∀ c ∈ b.head?, isInlineSpace c = false
  last : ∀ c ∈ b.getLast?, isInlineSpace c = false

theorem TightensTo.tightened {inner b : Text} (h : TightensTo (inner.dropWhile isInlineSpace) b) :
    Tightened inner b := by
  refine ⟨h.thinned.of_dropWhile, ?_, h.last⟩
  cases hdrop : inner.dropWhile isInlineSpace with
  | nil =>
      have hthinned := h.thinned
      rw [hdrop] at hthinned
      cases hthinned
      simp
  | cons d inner' =>
      have hsolid : isInlineSpace d = false := by
        have hhead := List.head?_dropWhile_not isInlineSpace inner
        rw [hdrop] at hhead
        simpa using hhead
      rw [h.head ⟨d, by rw [hdrop]; exact List.mem_cons_self, hsolid⟩, hdrop]
      intro c hc
      obtain rfl : d = c := Option.some.inj hc
      exact hsolid

theorem inners_opening {t : Text} (h : close? t = none) : inners (opening ++ t) = inners t := by
  have hnone : placeholder? ('{' :: '{' :: t) = none := by
    rw [placeholder?]
    exact h
  rw [opening, List.cons_append, List.singleton_append, inners_plain hnone,
    inners_plain (placeholder?_eq_none (close?_brace_cons h))]

theorem inners_dropWhile (t : Text) : inners (t.dropWhile isInlineSpace) = inners t := by
  rw [← inners_append_of_notMem (brace_notMem_takeWhile t), List.takeWhile_append_dropWhile]

theorem exists_tighten_delimited_of_settled {inner : Text} (h : IsInner inner)
    (hsettled : Settled inner) :
    ∃ b, Tightened inner b ∧ IsInner b ∧
      ∀ rest, tighten (delimited inner ++ rest) = delimited b ++ tighten rest := by
  rw [← List.takeWhile_append_dropWhile (p := isInlineSpace) (l := inner)] at h hsettled
  obtain ⟨b, hb⟩ := exists_tightensTo h.of_append hsettled.of_append
  refine ⟨b, hb.tightened, hb.isInner, fun rest => ?_⟩
  rw [delimited, List.append_assoc, List.append_assoc, tighten_opening_append,
    dropWhile_append_closing, hb.tighten]
  simp [delimited]

theorem after?_opening_cons_tighten {c : Char} {t : Text}
    (h : Text.after? opening (c :: t) = none) : Text.after? opening (c :: tighten t) = none := by
  rw [Option.eq_none_iff_forall_ne_some]
  intro rest hrest
  obtain ⟨rfl, htight⟩ : c = '{' ∧ tighten t = '{' :: rest := by
    simpa [opening] using Text.after?_eq_some_iff.mp hrest
  -- the brace behind this one stood there before, so the two open a delimiter
  have hhead : t.head? = some '{' := head?_tighten (by rw [htight]; rfl) (by decide)
  obtain ⟨t', rfl⟩ := List.head?_eq_some_iff.mp hhead
  simp [opening, Text.after?] at h

theorem placeholder?_cons_tighten {c : Char} {t : Text}
    (h : Text.after? opening (c :: t) = none) : placeholder? (c :: tighten t) = none := by
  rw [placeholder?, after?_opening_cons_tighten h, Option.bind_none]

/-- Each placeholder of a text is one of the tight text, and no other ones come up. -/
theorem forall₂_inners_tighten {r : Text → Text → Prop} {t : Text}
    (h : ∀ inner ∈ inners t, ∀ rest, ∃ b, r inner b ∧
      inners (tighten (delimited inner ++ rest)) = b :: inners (tighten rest)) :
    List.Forall₂ r (inners t) (inners (tighten t)) := by
  induction hlength : t.length using Nat.strongRecOn generalizing t with
  | ind n ih =>
      cases hplace : placeholder? t with
      | some found =>
          obtain ⟨inner, rest⟩ := found
          rw [inners_placeholder hplace, List.forall_mem_cons] at h
          have hshorter := length_lt_of_placeholder? hplace
          obtain ⟨b, hb, hfound⟩ := h.1 rest
          rw [inners_placeholder hplace, eq_of_placeholder? hplace, hfound]
          exact .cons hb (ih _ (hlength ▸ hshorter) h.2 rfl)
      | none =>
          cases t with
          | nil =>
              rw [tighten, inners_nil]
              exact .nil
          | cons c t =>
              have hshorter : t.length < n := by
                rw [← hlength]
                exact Nat.lt_succ_self _
              cases hopen : Text.after? opening (c :: t) with
              | some rest =>
                  -- nothing closes on the line, so the delimiter is as plain as before
                  have hparts := Text.after?_eq_some_iff.mp hopen
                  have hclose : close? rest = none := by
                    rw [placeholder?, hopen] at hplace
                    exact hplace
                  rw [hparts, inners_opening hclose, ← inners_dropWhile] at h
                  rw [hparts, tighten_opening_append, inners_opening hclose, ← inners_dropWhile,
                    inners_opening (close?_tighten (close?_dropWhile hclose))]
                  have hle := length_dropWhile_le isInlineSpace rest
                  have hlen := congrArg List.length hparts
                  simp only [opening, List.length_append, List.length_cons,
                    List.length_nil] at hlen
                  exact ih _ (by omega) h rfl
              | none =>
                  rw [inners_plain hplace] at h ⊢
                  by_cases hblank :
                      (isInlineSpace c && closing.isPrefixOf (t.dropWhile isInlineSpace)) = true
                  · have hboth := hblank
                    rw [Bool.and_eq_true] at hboth
                    rw [tighten_blank hboth.1 hboth.2]
                    exact ih _ hshorter h rfl
                  · rw [tighten_kept hopen hblank, inners_plain (placeholder?_cons_tighten hopen)]
                    exact ih _ hshorter h rfl

/-- The inner texts of a tight text are those of the text before, each without the spaces and tabs
at its ends. -/
theorem inners_tighten {t : Text} (h : ∀ inner ∈ inners t, Settled inner) :
    List.Forall₂ Tightened (inners t) (inners (tighten t)) := by
  apply forall₂_inners_tighten
  intro inner hinner rest
  obtain ⟨b, hb, hisInner, htight⟩ :=
    exists_tighten_delimited_of_settled (isInner_of_mem_inners hinner) (h inner hinner)
  exact ⟨b, hb, by rw [htight, inners_delimited_append hisInner]⟩

theorem exists_of_forall₂ {α β : Type} {r : α → β → Prop} {as : List α} {bs : List β}
    (h : List.Forall₂ r as bs) {a : α} (ha : a ∈ as) : ∃ b ∈ bs, r a b := by
  induction h with
  | nil => exact absurd ha List.not_mem_nil
  | cons hr _ ih =>
      rcases List.mem_cons.mp ha with rfl | ha
      · exact ⟨_, List.mem_cons_self, hr⟩
      · obtain ⟨b, hb, hr⟩ := ih ha
        exact ⟨b, List.mem_cons_of_mem _ hb, hr⟩

theorem forall_mem_iff_of_forall₂ {α β : Type} {r : α → β → Prop} {as : List α} {bs : List β}
    {p : α → Prop} {q : β → Prop} (h : List.Forall₂ r as bs) (hr : ∀ a b, r a b → (q b ↔ p a)) :
    (∀ b ∈ bs, q b) ↔ ∀ a ∈ as, p a := by
  induction h with
  | nil => simp
  | cons hab _ ih => rw [List.forall_mem_cons, List.forall_mem_cons, ih, hr _ _ hab]

theorem placeholders_tighten {t : Text} (h : placeholders t = []) :
    placeholders (tighten t) = [] := by
  rw [← inners_eq_nil_iff] at h ⊢
  have htight := inners_tighten (t := t) (by simp [h])
  rw [h, List.forall₂_nil_left_iff] at htight
  exact htight

end Stencil
