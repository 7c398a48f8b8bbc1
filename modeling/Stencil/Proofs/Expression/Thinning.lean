import Stencil.Proofs.Expression.Line
import Stencil.Proofs.Placeholder.Thinned

namespace Stencil

/-- The text goes on, behind any brace in it, with a character that begins or ends a part of an
expression. -/
def EndsClosed (t : Text) : Prop :=
  ∃ front c name, t = front ++ c :: name ∧ (c = '$' ∨ c = ']' ∨ c = '>') ∧ '{' ∉ name ∧ '}' ∉ name

namespace EndsClosed

theorem brace_ne_last {s : Text} : ¬ EndsClosed (s ++ ['}']) := by
  rintro ⟨front, c, name, hparts, hc, -, hbrace⟩
  rcases List.eq_nil_or_concat name with rfl | ⟨name, d, rfl⟩
  · obtain ⟨-, hlast⟩ := List.append_inj' hparts rfl
    obtain rfl := (List.cons.inj hlast).1
    simp at hc
  · rw [List.concat_eq_append, ← List.cons_append, ← List.append_assoc] at hparts
    obtain ⟨-, hlast⟩ := List.append_inj' hparts rfl
    rw [← (List.cons.inj hlast).1] at hbrace
    simp at hbrace

theorem not_suffix {t key back : Text} (h : EndsClosed t)
    (hkey : ∀ c ∈ key, c ≠ '$' ∧ c ≠ ']' ∧ c ≠ '>') (hback : '{' ∉ back) :
    ¬ '{' :: key <:+ t ++ back := by
  obtain ⟨front, c, name, rfl, hc, hname, -⟩ := h
  intro hsuffix
  have hends : c :: (name ++ back) <:+ front ++ c :: name ++ back := ⟨front, by simp⟩
  rcases List.suffix_or_suffix_of_suffix hsuffix hends with hsuffix | hsuffix
  · have hmem := hsuffix.subset List.mem_cons_self
    simp only [List.mem_cons, List.mem_append, hname, hback, or_false] at hmem
    subst hmem
    simp at hc
  · rcases List.mem_cons.mp (hsuffix.subset List.mem_cons_self) with rfl | hmem
    · simp at hc
    · obtain ⟨hdollar, hbracket, harrow⟩ := hkey c hmem
      simp [hdollar, hbracket, harrow] at hc

end EndsClosed

namespace Accessor

variable {s t : Text} {a : Accessor} {accessors : List Accessor}

theorem isInlineSpace_eq_false_of_notMem {t : Text} (hspace : ' ' ∉ t) (htab : '\t' ∉ t) :
    ∀ c ∈ t, isInlineSpace c = false := by
  intro c hc
  rw [isInlineSpace, Bool.or_eq_false_iff, beq_eq_false_iff_ne, beq_eq_false_iff_ne]
  constructor
  · rintro rfl
    exact hspace hc
  · rintro rfl
    exact htab hc

theorem solid_of_isName {name : Text} (h : isName name) : ∀ c ∈ name, isInlineSpace c = false :=
  isInlineSpace_eq_false_of_notMem (notMem_of_isName h (by decide)) (notMem_of_isName h (by decide))

theorem Bracketed.thinned (h : Bracketed t a) (hthin : Thinned s t) : ∃ a', Bracketed s a' := by
  cases h with
  | integer h =>
      obtain rfl := hthin.eq_of_solid (isInlineSpace_eq_false_of_notMem
        (h.notMem (by decide) (by decide)) (h.notMem (by decide) (by decide)))
      exact ⟨_, .integer h⟩
  | @quoted quote k hquote hk =>
      have hsolid : isInlineSpace quote = false := by
        rcases hquote with rfl | rfl
        · decide
        · decide
      obtain ⟨s₁, rfl, h₁⟩ := hthin.exists_cons hsolid
      obtain ⟨s₂, rfl, h₂⟩ := h₁.exists_concat hsolid
      exact ⟨_, .quoted hquote fun hmem => hk (h₂.sublist.subset hmem)⟩
  | name hk =>
      obtain rfl := hthin.eq_of_solid (solid_of_isName hk)
      exact ⟨_, .name hk⟩

theorem Derives.thinned (h : Derives t a) (hthin : Thinned s t) : ∃ a', Derives s a' := by
  cases h with
  | bracketed h =>
      obtain ⟨s₁, rfl, h₁⟩ := hthin.exists_cons (by decide)
      obtain ⟨s₂, rfl, h₂⟩ := h₁.exists_concat (by decide)
      obtain ⟨a', ha'⟩ := h.thinned h₂
      exact ⟨a', .bracketed ha'⟩
  | property h =>
      obtain ⟨s₁, rfl, h₁⟩ := hthin.exists_cons (by decide)
      obtain ⟨s₂, rfl, h₂⟩ := h₁.exists_cons (by decide)
      obtain rfl := h₂.eq_of_solid (solid_of_isName h)
      exact ⟨_, .property h⟩

theorem DeriveAll.thinned (h : DeriveAll t accessors) (hthin : Thinned s t) :
    ∃ accessors', DeriveAll s accessors' := by
  induction h generalizing s with
  | nil =>
      cases hthin
      exact ⟨[], .nil⟩
  | cons h _ ih =>
      obtain ⟨s₁, s₂, rfl, h₁, h₂⟩ := hthin.split
      obtain ⟨a', ha'⟩ := h.thinned h₁
      obtain ⟨accessors', haccessors'⟩ := ih h₂
      exact ⟨a' :: accessors', .cons ha' haccessors'⟩

theorem Derives.endsClosed (h : Derives t a) (front : Text) : EndsClosed (front ++ t) := by
  cases h with
  | @bracketed s _ h =>
      refine ⟨front ++ '[' :: s, ']', [], by simp, Or.inr (Or.inl rfl), ?_, ?_⟩
      · exact List.not_mem_nil
      · exact List.not_mem_nil
  | @property name h =>
      refine ⟨front ++ ['-'], '>', name, by simp, Or.inr (Or.inr rfl), ?_, ?_⟩
      · exact notMem_of_isName h (by decide)
      · exact notMem_of_isName h (by decide)

theorem DeriveAll.endsClosed (h : DeriveAll t accessors) {front : Text}
    (hfront : EndsClosed front) : EndsClosed (front ++ t) := by
  induction h generalizing front with
  | nil => rwa [List.append_nil]
  | cons h _ ih =>
      rw [← List.append_assoc]
      exact ih (h.endsClosed front)

end Accessor

namespace Expression

variable {s t : Text} {e : Expression}

theorem Derives.thinned (h : Derives t e) (hthin : Thinned s t) : ∃ e', Derives s e' := by
  cases h with
  | intro hname h =>
      obtain ⟨s₁, rfl, h₁⟩ := hthin.exists_cons (by decide)
      obtain ⟨s₂, s₃, rfl, h₂, h₃⟩ := h₁.split
      obtain rfl := h₂.eq_of_solid (Accessor.solid_of_isName hname)
      obtain ⟨accessors', haccessors'⟩ := h.thinned h₃
      exact ⟨_, .intro hname haccessors'⟩

theorem Derives.endsClosed (h : Derives t e) : EndsClosed t := by
  cases h with
  | @intro name s _ hname h =>
      rw [← List.cons_append]
      apply h.endsClosed
      refine ⟨[], '$', name, rfl, Or.inl rfl, ?_, ?_⟩
      · exact notMem_of_isName hname (by decide)
      · exact notMem_of_isName hname (by decide)

end Expression

end Stencil
