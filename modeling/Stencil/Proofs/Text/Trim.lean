import Stencil.Text.Blank

namespace Stencil.Text

theorem trim_append_of_blank {back : Text} (h : ∀ c ∈ back, isBlank c) (t : Text) :
    trim (t ++ back) = trim t := by
  have hback : back.dropWhile isBlank = [] := by
    rw [← List.append_nil back, List.dropWhile_append_of_pos h, List.dropWhile_nil]
  rw [trim, trim, List.dropWhile_append]
  split
  next hnil => rw [hback, List.isEmpty_iff.mp hnil]
  next =>
    rw [List.reverse_append, List.dropWhile_append_of_pos]
    intro c hc
    exact h c (List.mem_reverse.mp hc)

theorem trim_blank_append {front : Text} (h : ∀ c ∈ front, isBlank c) (t : Text) :
    trim (front ++ t) = trim t := by
  rw [trim, trim, List.dropWhile_append_of_pos h]

theorem exists_eq_trim (t : Text) :
    ∃ front back, t = front ++ (trim t ++ back) ∧ (∀ c ∈ front, isBlank c) ∧
      ∀ c ∈ back, isBlank c := by
  refine ⟨t.takeWhile isBlank, ((t.dropWhile isBlank).reverse.takeWhile isBlank).reverse,
    ?_, ?_, ?_⟩
  · rw [trim, ← List.reverse_append, List.takeWhile_append_dropWhile, List.reverse_reverse,
      List.takeWhile_append_dropWhile]
  · exact List.all_eq_true.mp List.all_takeWhile
  · intro c hc
    exact List.all_eq_true.mp List.all_takeWhile c (List.mem_reverse.mp hc)

theorem trim_prefix_dropWhile (t : Text) : trim t <+: t.dropWhile isBlank := by
  rw [trim, ← List.reverse_suffix, List.reverse_reverse]
  exact List.dropWhile_suffix isBlank

theorem isInfix_trim (t : Text) : trim t <:+: t :=
  (trim_prefix_dropWhile t).isInfix.trans (List.dropWhile_suffix isBlank).isInfix

theorem mem_of_mem_trim {t : Text} {c : Char} (h : c ∈ trim t) : c ∈ t :=
  (isInfix_trim t).subset h

/-- No blank stands at either end of the text. -/
structure Trimmed (t : Text) : Prop where
  head : ∀ c ∈ t.head?, isBlank c = false
  last : ∀ c ∈ t.getLast?, isBlank c = false

theorem trim_of_trimmed {t : Text} (h : Trimmed t) : trim t = t := by
  rcases List.eq_nil_or_concat t with rfl | ⟨front, d, rfl⟩
  · rfl
  · have hhead : (front.concat d).dropWhile isBlank = front.concat d := by
      cases hcons : front.concat d with
      | nil => rfl
      | cons c t =>
          have hc : isBlank c = false := h.head c (by rw [hcons]; rfl)
          rw [List.dropWhile_cons_of_neg (by simp [hc])]
    have hlast : isBlank d = false := h.last d (by simp)
    rw [trim, hhead, List.concat_eq_append, List.reverse_append, List.reverse_singleton,
      List.singleton_append, List.dropWhile_cons_of_neg (by simp [hlast]), List.reverse_cons,
      List.reverse_reverse]

theorem trimmed_trim (t : Text) : Trimmed (trim t) := by
  constructor
  · intro c hc
    obtain ⟨rest, hrest⟩ := List.head?_eq_some_iff.mp hc
    obtain ⟨back, hback⟩ := trim_prefix_dropWhile t
    have hhead := List.head?_dropWhile_not isBlank t
    rw [← hback, hrest] at hhead
    simpa using hhead
  · intro c hc
    rw [trim, List.getLast?_reverse] at hc
    have hhead := List.head?_dropWhile_not isBlank (t.dropWhile isBlank).reverse
    rw [Option.mem_def.mp hc] at hhead
    simpa using hhead

theorem mem_trim_of_mem {t : Text} {c : Char} (h : c ∈ t) (hc : isBlank c = false) :
    c ∈ trim t := by
  obtain ⟨front, back, hparts, hfront, hback⟩ := exists_eq_trim t
  rw [hparts, List.mem_append, List.mem_append] at h
  rcases h with h | h | h
  · exact absurd (hc.symm.trans (hfront c h)) (by decide)
  · exact h
  · exact absurd (hc.symm.trans (hback c h)) (by decide)

theorem trim_eq_nil_iff {t : Text} : trim t = [] ↔ ∀ c ∈ t, isBlank c := by
  constructor
  · intro hnil c hc
    cases hblank : isBlank c with
    | true => rfl
    | false => exact absurd (hnil ▸ mem_trim_of_mem hc hblank) List.not_mem_nil
  · intro hblank
    have htrim := trim_append_of_blank hblank []
    rwa [List.nil_append] at htrim

theorem exists_trim_append_singleton (front : Text) {c : Char} (hc : isBlank c = false) :
    ∃ s, trim (front ++ [c]) = s ++ [c] := by
  refine ⟨front.dropWhile isBlank, ?_⟩
  have hdrop : (front ++ [c]).dropWhile isBlank = front.dropWhile isBlank ++ [c] := by
    have hsingle : [c].dropWhile isBlank = [c] := List.dropWhile_cons_of_neg (by simp [hc])
    rw [List.dropWhile_append]
    split
    next hnil => rw [hsingle, List.isEmpty_iff.mp hnil, List.nil_append]
    next => rfl
  rw [trim, hdrop, List.reverse_append, List.reverse_singleton, List.singleton_append,
    List.dropWhile_cons_of_neg (by simp [hc]), List.reverse_cons, List.reverse_reverse]

end Stencil.Text
