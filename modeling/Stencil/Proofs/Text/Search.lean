import Stencil.Text.Basic

namespace Stencil.Text

/-- The pattern begins nowhere in the text, whatever comes behind the text. -/
def Skips (pattern : Text) : Text → Prop
  | [] => True
  | c :: t => (∀ rest, ¬ pattern <+: c :: (t ++ rest)) ∧ Skips pattern t

theorem Skips.append {pattern front back : Text} (hfront : Skips pattern front)
    (hback : Skips pattern back) : Skips pattern (front ++ back) := by
  induction front with
  | nil => exact hback
  | cons c front ih =>
      obtain ⟨hhead, htail⟩ := hfront
      refine ⟨?_, ih htail⟩
      intro rest
      simpa using hhead (back ++ rest)

theorem Skips.flatMap {α : Type} {pattern : Text} {source : α → Text} {parts : List α}
    (h : ∀ p ∈ parts, Skips pattern (source p)) : Skips pattern (parts.flatMap source) := by
  induction parts with
  | nil => trivial
  | cons p parts ih =>
      rw [List.flatMap_cons]
      apply Skips.append
      · exact h p (by simp)
      · exact ih fun q hq => h q (List.mem_cons_of_mem _ hq)

theorem skips_of_notMem {p : Char} (pattern : Text) {t : Text} (h : p ∉ t) :
    Skips (p :: pattern) t := by
  induction t with
  | nil => trivial
  | cons c t ih =>
      simp only [List.mem_cons, not_or] at h
      refine ⟨?_, ih h.2⟩
      intro rest hstarts
      exact h.1 (List.cons_prefix_cons.mp hstarts).1

/-- The pattern begins nowhere in the front of a text. -/
def Passes (pattern : Text) : Text → Text → Prop
  | [], _ => True
  | c :: front, back => ¬ pattern <+: c :: (front ++ back) ∧ Passes pattern front back

theorem Skips.passes {pattern front : Text} (h : Skips pattern front) (back : Text) :
    Passes pattern front back := by
  induction front with
  | nil => trivial
  | cons c front ih => exact ⟨h.1 back, ih h.2⟩

theorem after?_eq_none_iff {pattern t : Text} : after? pattern t = none ↔ ¬ pattern <+: t := by
  constructor
  · rintro h ⟨rest, rfl⟩
    rw [after?_eq_some_iff.mpr rfl] at h
    simp at h
  · intro h
    cases ht : after? pattern t with
    | none => rfl
    | some rest => exact absurd ⟨rest, (after?_eq_some_iff.mp ht).symm⟩ h

theorem cut?_append_of_passes {pattern front back : Text} (h : Passes pattern front back) :
    cut? pattern (front ++ back) = (cut? pattern back).map (Prod.map (front ++ ·) id) := by
  induction front with
  | nil =>
      have hid : Prod.map (fun t : Text => [] ++ t) (id : Text → Text) = id := by
        funext cut
        rfl
      rw [hid, Option.map_id]
      rfl
  | cons c front ih =>
      obtain ⟨hhead, htail⟩ := h
      rw [List.cons_append, cut?, after?_eq_none_iff.mpr hhead, ih htail]
      cases cut? pattern back with
      | none => rfl
      | some cut => rfl

theorem cut?_append_of_skips {pattern front : Text} (h : Skips pattern front) (t : Text) :
    cut? pattern (front ++ t) = (cut? pattern t).map (Prod.map (front ++ ·) id) :=
  cut?_append_of_passes (h.passes t)

theorem cut?_pattern_append (pattern t : Text) : cut? pattern (pattern ++ t) = some ([], t) := by
  have hafter : after? pattern (pattern ++ t) = some t := after?_eq_some_iff.mpr rfl
  cases ht : pattern ++ t with
  | nil =>
      obtain ⟨rfl, rfl⟩ := List.append_eq_nil_iff.mp ht
      rfl
  | cons c s =>
      rw [ht] at hafter
      rw [cut?, hafter]

theorem exists_cut?_append (pattern front back : Text) :
    ∃ before rest, cut? pattern (front ++ (pattern ++ back)) = some (before, rest) ∧
      back <:+ rest := by
  induction front with
  | nil => exact ⟨[], back, cut?_pattern_append pattern back, List.suffix_rfl⟩
  | cons c front ih =>
      obtain ⟨before, rest, hcut, hback⟩ := ih
      rw [List.cons_append, cut?]
      cases ha : after? pattern (c :: (front ++ (pattern ++ back))) with
      | none => exact ⟨c :: before, rest, by rw [hcut]; rfl, hback⟩
      | some rest' =>
          refine ⟨[], rest', rfl, ?_⟩
          have hsuffix : back <:+ c :: (front ++ (pattern ++ back)) :=
            ⟨c :: (front ++ pattern), by simp⟩
          rw [after?_eq_some_iff] at ha
          have hlen := congrArg List.length ha
          simp only [List.length_cons, List.length_append] at hlen
          exact List.suffix_of_suffix_length_le hsuffix ⟨pattern, ha.symm⟩ (by omega)

theorem passes_of_cut? {pattern t before rest : Text}
    (h : cut? pattern t = some (before, rest)) : Passes pattern before (pattern ++ rest) := by
  induction t generalizing before with
  | nil =>
      simp only [cut?, Option.map_eq_some_iff, Prod.mk.injEq] at h
      obtain ⟨_, -, rfl, -⟩ := h
      trivial
  | cons c t ih =>
      rw [cut?] at h
      split at h
      next =>
        obtain ⟨rfl, -⟩ := Prod.mk.inj (Option.some.inj h)
        trivial
      next hnone =>
        simp only [Option.map_eq_some_iff, Prod.mk.injEq, Prod.exists] at h
        obtain ⟨before, _, hcut, rfl, rfl⟩ := h
        refine ⟨?_, ih hcut⟩
        rw [after?_eq_none_iff, eq_of_cut? hcut, List.append_assoc] at hnone
        exact hnone

/-- A text is cut where the pattern stands and has begun nowhere before. -/
theorem cut?_eq_some_iff {pattern t before rest : Text} :
    cut? pattern t = some (before, rest) ↔
      t = before ++ (pattern ++ rest) ∧ Passes pattern before (pattern ++ rest) := by
  constructor
  · intro h
    rw [← List.append_assoc]
    exact ⟨eq_of_cut? h, passes_of_cut? h⟩
  · rintro ⟨rfl, h⟩
    rw [cut?_append_of_passes h, cut?_pattern_append]
    simp

theorem Passes.notMem {c : Char} {front back : Text} (h : Passes [c] front back) :
    c ∉ front := by
  induction front with
  | nil => exact List.not_mem_nil
  | cons d front ih =>
      have hcd : c ≠ d := by simpa using h.1
      simp [hcd, ih h.2]

theorem Passes.not_isInfix {p : Char} {pattern front back : Text}
    (h : Passes (p :: pattern) front back) : ¬ p :: pattern <:+: front := by
  induction front with
  | nil => simp
  | cons c front ih =>
      rw [List.infix_cons_iff, not_or]
      exact ⟨fun hstarts => h.1 (hstarts.trans (List.prefix_append (c :: front) back)), ih h.2⟩

theorem Skips.not_isInfix {p : Char} {pattern front : Text} (h : Skips (p :: pattern) front) :
    ¬ p :: pattern <:+: front :=
  (h.passes []).not_isInfix

theorem cut?_eq_none_iff {p : Char} {pattern t : Text} :
    cut? (p :: pattern) t = none ↔ ¬ p :: pattern <:+: t := by
  constructor
  · rintro h ⟨front, back, rfl⟩
    obtain ⟨before, rest, hcut, -⟩ := exists_cut?_append (p :: pattern) front back
    rw [List.append_assoc, hcut] at h
    exact absurd h (by simp)
  · intro h
    rw [Option.eq_none_iff_forall_ne_some]
    rintro ⟨before, rest⟩ hcut
    exact h ⟨before, rest, (eq_of_cut? hcut).symm⟩

theorem notMem_of_cut?_singleton {c : Char} {t before rest : Text}
    (h : cut? [c] t = some (before, rest)) : c ∉ before :=
  (passes_of_cut? h).notMem

theorem cut?_skips_pattern {pattern front : Text} (h : Skips pattern front) (t : Text) :
    cut? pattern (front ++ (pattern ++ t)) = some (front, t) :=
  cut?_eq_some_iff.mpr ⟨rfl, h.passes _⟩

theorem exists_drop_of_isPrefix {p c : Char} {pattern t : Text} (h : p :: pattern <+: c :: t) :
    ∃ rest, p = c ∧ t = pattern ++ rest ∧ t.drop ((p :: pattern).length - 1) = rest := by
  obtain ⟨rfl, rest, rfl⟩ := List.cons_prefix_cons.mp h
  refine ⟨rest, rfl, rfl, ?_⟩
  rw [List.length_cons, Nat.add_sub_cancel, List.drop_left]

theorem replaceAll_cons_of_not_isPrefix {c : Char} {pattern t : Text} (h : ¬ pattern <+: c :: t)
    (replacement : Text) :
    replaceAll pattern replacement (c :: t) = c :: replaceAll pattern replacement t := by
  rw [replaceAll, if_neg h]

theorem replaceAll_append_of_passes {pattern front back : Text} (h : Passes pattern front back)
    (replacement : Text) :
    replaceAll pattern replacement (front ++ back) =
      front ++ replaceAll pattern replacement back := by
  induction front with
  | nil => rfl
  | cons c front ih =>
      obtain ⟨hhead, htail⟩ := h
      rw [List.cons_append, replaceAll_cons_of_not_isPrefix hhead, ih htail]
      rfl

theorem replaceAll_append_of_skips {pattern front : Text} (h : Skips pattern front)
    (replacement t : Text) :
    replaceAll pattern replacement (front ++ t) = front ++ replaceAll pattern replacement t :=
  replaceAll_append_of_passes (h.passes t) replacement

theorem replaceAll_of_skips {pattern t : Text} (h : Skips pattern t) (replacement : Text) :
    replaceAll pattern replacement t = t := by
  simpa using replaceAll_append_of_skips h replacement []

theorem replaceAll_pattern_append {p : Char} (pattern replacement t : Text) :
    replaceAll (p :: pattern) replacement (p :: pattern ++ t) =
      replacement ++ replaceAll (p :: pattern) replacement t := by
  rw [List.cons_append, replaceAll, if_pos ⟨t, rfl⟩]
  simp

theorem replaceAll_empty_sublist (pattern t : Text) : (replaceAll pattern [] t).Sublist t := by
  fun_induction replaceAll pattern [] t with
  | case1 => exact List.Sublist.slnil
  | case2 c t hstarts ih => exact (ih.trans (List.drop_sublist _ _)).cons c
  | case3 c t hstarts ih => exact ih.cons_cons c

theorem replaceAll_empty_eq_self_iff {p : Char} {pattern t : Text} :
    replaceAll (p :: pattern) [] t = t ↔ ¬ p :: pattern <:+: t := by
  refine ⟨?_, replaceAll_of_not_infix []⟩
  intro heq
  rw [← cut?_eq_none_iff, Option.eq_none_iff_forall_ne_some]
  rintro ⟨before, rest⟩ hcut
  obtain ⟨rfl, hpasses⟩ := cut?_eq_some_iff.mp hcut
  rw [replaceAll_append_of_passes hpasses, replaceAll_pattern_append, List.nil_append,
    List.append_cancel_left_eq] at heq
  have hlength := (replaceAll_empty_sublist (p :: pattern) rest).length_le
  rw [heq, List.length_append, List.length_cons] at hlength
  omega

theorem takeWhile_append_of_stop {p : Char → Bool} {front back : Text}
    (hfront : ∀ c ∈ front, p c) (hback : ∀ c t, back = c :: t → p c = false) :
    (front ++ back).takeWhile p = front ∧ (front ++ back).dropWhile p = back := by
  rw [List.takeWhile_append_of_pos hfront, List.dropWhile_append_of_pos hfront]
  cases back with
  | nil => simp
  | cons c t => simp [hback c t rfl]

theorem eq_of_append_cons_isPrefix {front front' rest : Text} {c : Char} (h : c ∉ front)
    (h' : c ∉ front') (hstarts : front ++ [c] <+: front' ++ c :: rest) : front = front' := by
  induction front generalizing front' with
  | nil =>
      cases front' with
      | nil => rfl
      | cons d front' =>
          rw [List.nil_append, List.cons_append, List.cons_prefix_cons] at hstarts
          exact absurd (by simp [hstarts.1]) h'
  | cons e front ih =>
      cases front' with
      | nil =>
          rw [List.nil_append, List.cons_append, List.cons_prefix_cons] at hstarts
          exact absurd (by simp [hstarts.1]) h
      | cons d front' =>
          simp only [List.mem_cons, not_or] at h h'
          rw [List.cons_append, List.cons_append, List.cons_prefix_cons] at hstarts
          rw [hstarts.1, ih h.2 h'.2 hstarts.2]

end Stencil.Text
