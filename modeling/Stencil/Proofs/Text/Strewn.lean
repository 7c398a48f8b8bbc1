import Stencil.Proofs.Text.Occurrence

/-!
Texts with copies of a piece put in.  Taking out all occurrences of a piece leaves a text that was
strewn with them; taking them out of a strewn text leaves the text that was there before, as long as
the piece begins with a character that is not in the rest of it and does not stand there by itself.
-/

namespace Stencil.Text

/-- The second text is the first one with copies of the piece put in, anywhere and any number. -/
inductive Strewn (piece : Text) : Text → Text → Prop
  | nil : Strewn piece [] []
  | keep (c : Char) {t t' : Text} (h : Strewn piece t t') : Strewn piece (c :: t) (c :: t')
  | copy {t t' : Text} (h : Strewn piece t t') : Strewn piece t (piece ++ t')

variable {p c : Char} {pattern t t' front back : Text}

namespace Strewn

theorem refl (piece t : Text) : Strewn piece t t := by
  induction t with
  | nil => exact nil
  | cons c t ih => exact ih.keep c

theorem append_right (h : Strewn pattern t t') (back : Text) :
    Strewn pattern (t ++ back) (t' ++ back) := by
  induction h with
  | nil => exact refl pattern back
  | keep c _ ih => exact ih.keep c
  | copy _ ih =>
      rw [List.append_assoc]
      exact ih.copy

theorem isPrefix_of_isPrefix (h : Strewn (p :: pattern) t t') (hp : p ∉ front)
    (hstarts : front <+: t') : front <+: t := by
  induction h generalizing front with
  | nil => exact hstarts
  | keep c _ ih =>
      cases front with
      | nil => exact List.nil_prefix
      | cons d front =>
          simp only [List.mem_cons, not_or] at hp
          obtain ⟨rfl, hrest⟩ := List.cons_prefix_cons.mp hstarts
          exact List.cons_prefix_cons.mpr ⟨rfl, ih hp.2 hrest⟩
  | copy _ _ =>
      cases front with
      | nil => exact List.nil_prefix
      | cons d front =>
          obtain ⟨rfl, -⟩ := List.cons_prefix_cons.mp hstarts
          simp at hp

theorem eq_of_isPrefix (h : Strewn (p :: pattern) t t') (hp : p ∉ t) (hc : p ≠ c)
    (hstarts : t ++ [c] <+: t' ++ back) : t' = t := by
  induction h with
  | nil => rfl
  | keep d _ ih =>
      simp only [List.mem_cons, not_or] at hp
      rw [List.cons_append, List.cons_append, List.cons_prefix_cons] at hstarts
      rw [ih hp.2 hstarts.2]
  | @copy t _ _ _ =>
      cases t with
      | nil => exact absurd (List.cons_prefix_cons.mp hstarts).1.symm hc
      | cons d t =>
          obtain ⟨rfl, -⟩ := List.cons_prefix_cons.mp hstarts
          simp at hp

theorem skips {piece : Text} (h : Strewn piece t t') (hp : p ∉ t)
    (hpiece : Skips (p :: pattern) piece) : Skips (p :: pattern) t' := by
  induction h with
  | nil => trivial
  | keep c _ ih =>
      simp only [List.mem_cons, not_or] at hp
      have hhead : Skips (p :: pattern) [c] := skips_of_notMem _ (by simpa using hp.1)
      exact hhead.append (ih hp.2)
  | copy _ ih => exact hpiece.append (ih hp)

theorem replaceAll_append (h : Strewn (p :: pattern) t t') (hp : p ∉ pattern)
    (hskips : Skips (p :: pattern) t) (rest : Text) :
    replaceAll (p :: pattern) [] (t' ++ rest) = t ++ replaceAll (p :: pattern) [] rest := by
  induction h with
  | nil => rfl
  | @keep c t t' h ih =>
      have hstarts : ¬ p :: pattern <+: c :: (t' ++ rest) := by
        intro hstarts
        obtain ⟨rfl, hrest⟩ := List.cons_prefix_cons.mp hstarts
        have hbefore := (h.append_right rest).isPrefix_of_isPrefix hp hrest
        exact hskips.1 rest (List.cons_prefix_cons.mpr ⟨rfl, hbefore⟩)
      rw [List.cons_append, replaceAll_cons_of_not_isPrefix hstarts, ih hskips.2, List.cons_append]
  | copy _ ih =>
      rw [List.append_assoc, replaceAll_pattern_append, List.nil_append, ih hskips]

end Strewn

theorem strewn_replaceAll (p : Char) (pattern t : Text) :
    Strewn (p :: pattern) (replaceAll (p :: pattern) [] t) t := by
  fun_induction replaceAll (p :: pattern) [] t with
  | case1 => exact .nil
  | case2 c t hstarts ih =>
      obtain ⟨rest, rfl, rfl, hdrop⟩ := exists_drop_of_isPrefix hstarts
      rw [hdrop] at ih ⊢
      exact ih.copy
  | case3 c t _ ih => exact ih.keep c

/-- Where a character stands when all copies have gone, it stood before, in a text strewn with
them, and no copy began there. -/
theorem exists_of_replaceAll_eq (h : replaceAll (p :: pattern) [] t = front ++ c :: back) :
    ∃ a b, t = a ++ c :: b ∧ Strewn (p :: pattern) front a ∧ ¬ p :: pattern <+: c :: b ∧
      replaceAll (p :: pattern) [] b = back := by
  fun_induction replaceAll (p :: pattern) [] t generalizing front with
  | case1 => simp at h
  | case2 d t hstarts ih =>
      obtain ⟨rest, rfl, rfl, hdrop⟩ := exists_drop_of_isPrefix hstarts
      rw [hdrop] at ih h
      obtain ⟨a, b, rfl, ha, hb⟩ := ih h
      exact ⟨p :: pattern ++ a, b, by simp, ha.copy, hb⟩
  | case3 d t hstarts ih =>
      cases front with
      | nil =>
          obtain ⟨rfl, hrest⟩ := List.cons.inj h
          exact ⟨[], t, rfl, .nil, hstarts, hrest⟩
      | cons e front =>
          obtain ⟨rfl, hrest⟩ := List.cons.inj h
          obtain ⟨a, b, rfl, ha, hb⟩ := ih hrest
          exact ⟨d :: a, b, rfl, ha.keep d, hb⟩

theorem exists_between_of_replaceAll_eq {q : Char} {inner : Text}
    (h : replaceAll (p :: pattern) [] t = front ++ c :: (inner ++ q :: back)) :
    ∃ a inside b, t = a ++ c :: (inside ++ q :: b) ∧ Strewn (p :: pattern) inner inside ∧
      ¬ p :: pattern <+: c :: (inside ++ q :: b) := by
  obtain ⟨a, rest, rfl, -, hstarts, hrest⟩ := exists_of_replaceAll_eq h
  obtain ⟨inside, b, rfl, hinside, -⟩ := exists_of_replaceAll_eq hrest
  exact ⟨a, inside, b, rfl, hinside, hstarts⟩

theorem replaceAll_between {q : Char} {inner inside : Text} (hp : p ∉ pattern) (hq : p ≠ q)
    (h : Strewn (p :: pattern) inner inside) (hskips : Skips (p :: pattern) inner)
    (hstarts : ¬ p :: pattern <+: p :: (inside ++ q :: back)) (front : Text) :
    replaceAll (p :: pattern) [] (front ++ p :: (inside ++ q :: back)) =
      replaceAll (p :: pattern) [] front ++
        p :: (inner ++ q :: replaceAll (p :: pattern) [] back) := by
  have hlast : ¬ p :: pattern <+: q :: back := fun hstarts =>
    hq (List.cons_prefix_cons.mp hstarts).1
  rw [(parted_cons hp front _).replaceAll_append, replaceAll_cons_of_not_isPrefix hstarts,
    h.replaceAll_append hp hskips, replaceAll_cons_of_not_isPrefix hlast]

end Stencil.Text
