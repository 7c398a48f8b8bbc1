import Stencil.Placeholder.Tightening
import Stencil.Proofs.Text.Trim

namespace Stencil

/-- The first text is the second one without some of its spaces and tabs. -/
inductive Thinned : Text → Text → Prop
  | nil : Thinned [] []
  | keep (c : Char) {s t : Text} (h : Thinned s t) : Thinned (c :: s) (c :: t)
  | drop {c : Char} (hc : isInlineSpace c) {s t : Text} (h : Thinned s t) : Thinned s (c :: t)

theorem isBlank_of_isInlineSpace {c : Char} (h : isInlineSpace c) : Text.isBlank c := by
  simp only [isInlineSpace, Bool.or_eq_true, beq_iff_eq] at h
  rcases h with rfl | rfl
  · decide
  · decide

theorem isInlineSpace_eq_false {c : Char} (h : Text.isBlank c = false) :
    isInlineSpace c = false := by
  rw [Bool.eq_false_iff] at h ⊢
  exact mt isBlank_of_isInlineSpace h

namespace Thinned

variable {s t front back : Text} {c : Char}

theorem sublist (h : Thinned s t) : s.Sublist t := by
  induction h with
  | nil => exact List.Sublist.slnil
  | keep c _ ih => exact ih.cons_cons c
  | drop _ _ ih => exact ih.cons _

theorem mem_of_mem (h : Thinned s t) (hc : c ∈ t) (hspace : isInlineSpace c = false) : c ∈ s := by
  induction h with
  | nil => exact hc
  | keep d _ ih =>
      rcases List.mem_cons.mp hc with rfl | hc
      · exact List.mem_cons_self
      · exact List.mem_cons_of_mem _ (ih hc)
  | drop hd _ ih =>
      rcases List.mem_cons.mp hc with rfl | hc
      · exact absurd (hspace.symm.trans hd) (by decide)
      · exact ih hc

theorem of_dropWhile (h : Thinned s (t.dropWhile isInlineSpace)) : Thinned s t := by
  induction t with
  | nil => exact h
  | cons c t ih =>
      cases hc : isInlineSpace c with
      | true =>
          rw [List.dropWhile_cons_of_pos hc] at h
          exact .drop hc (ih h)
      | false => rwa [List.dropWhile_cons_of_neg (by simp [hc])] at h

theorem split (h : Thinned s (front ++ back)) :
    ∃ s₁ s₂, s = s₁ ++ s₂ ∧ Thinned s₁ front ∧ Thinned s₂ back := by
  induction front generalizing s with
  | nil => exact ⟨[], s, rfl, .nil, h⟩
  | cons c front ih =>
      cases h with
      | keep c h =>
          obtain ⟨s₁, s₂, rfl, h₁, h₂⟩ := ih h
          exact ⟨c :: s₁, s₂, rfl, .keep c h₁, h₂⟩
      | drop hc h =>
          obtain ⟨s₁, s₂, rfl, h₁, h₂⟩ := ih h
          exact ⟨s₁, s₂, rfl, .drop hc h₁, h₂⟩

theorem eq_of_solid (h : Thinned s t) (hsolid : ∀ c ∈ t, isInlineSpace c = false) : s = t := by
  induction h with
  | nil => rfl
  | keep c _ ih => rw [ih fun d hd => hsolid d (List.mem_cons_of_mem c hd)]
  | drop hc _ _ => exact absurd (hc.symm.trans (hsolid _ List.mem_cons_self)) (by decide)

theorem exists_cons (h : Thinned s (c :: t)) (hc : isInlineSpace c = false) :
    ∃ s', s = c :: s' ∧ Thinned s' t := by
  cases h with
  | keep c h => exact ⟨_, rfl, h⟩
  | drop hspace _ => exact absurd (hc.symm.trans hspace) (by decide)

theorem exists_concat (h : Thinned s (t ++ [c])) (hc : isInlineSpace c = false) :
    ∃ s', s = s' ++ [c] ∧ Thinned s' t := by
  obtain ⟨s₁, s₂, rfl, h₁, h₂⟩ := h.split
  obtain rfl : s₂ = [c] := h₂.eq_of_solid (by simpa using hc)
  exact ⟨s₁, rfl, h₁⟩

theorem trimmed (h : Thinned s t) (ht : Text.Trimmed t) : Text.Trimmed s := by
  cases t with
  | nil =>
      cases h
      exact ht
  | cons c t =>
      constructor
      · have hc : Text.isBlank c = false := ht.head c rfl
        obtain ⟨s', rfl, -⟩ := h.exists_cons (isInlineSpace_eq_false hc)
        rintro d hd
        obtain rfl : c = d := Option.some.inj hd
        exact hc
      · obtain ⟨front, d, hconcat⟩ := List.eq_nil_or_concat (c :: t) |>.resolve_left (by simp)
        rw [List.concat_eq_append] at hconcat
        rw [hconcat] at h
        have hd : Text.isBlank d = false := ht.last d (by rw [hconcat]; simp)
        obtain ⟨s', rfl, -⟩ := h.exists_concat (isInlineSpace_eq_false hd)
        rintro e he
        obtain rfl : d = e := by simpa using he
        exact hd

theorem trim (h : Thinned s t) : Thinned (Text.trim s) (Text.trim t) := by
  obtain ⟨front, back, hparts, hfront, hback⟩ := t.exists_eq_trim
  rw [hparts] at h
  obtain ⟨s₁, _, rfl, h₁, h⟩ := h.split
  obtain ⟨s₂, s₃, rfl, h₂, h₃⟩ := h.split
  rw [Text.trim_blank_append fun c hc => hfront c (h₁.sublist.subset hc),
    Text.trim_append_of_blank fun c hc => hback c (h₃.sublist.subset hc),
    Text.trim_of_trimmed (h₂.trimmed t.trimmed_trim)]
  exact h₂

end Thinned

end Stencil
