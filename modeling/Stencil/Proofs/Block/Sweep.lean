import Stencil.Proofs.Block.Tag

namespace Stencil.Block

open Text

/-- The text from the head of a tag to its end.  The key in it is whatever stands between. -/
def anyTag (head key : Text) : Text :=
  head ++ (key ++ ['>'])

/-- A block of a kind stands in the text, whatever the keys in its two tags. -/
def HoldsBlock (kind : BlockKind) (t : Text) : Prop :=
  ∃ before key body key' rest, '>' ∉ key ∧ '>' ∉ key' ∧
    t = before ++ (anyTag (openHead kind) key ++
      (body ++ (anyTag (closeHead kind) key' ++ rest)))

theorem around?_eq_some_iff {kind : BlockKind} {t before rest : Text} :
    around? kind t = some (before, rest) ↔
      ∃ t₁ key t₂ body t₃ key', cut? (openHead kind) t = some (before, t₁) ∧
        cut? ['>'] t₁ = some (key, t₂) ∧ cut? (closeHead kind) t₂ = some (body, t₃) ∧
        cut? ['>'] t₃ = some (key', rest) := by
  simp only [around?, Option.bind_eq_bind, Option.bind_eq_some_iff, Prod.exists,
    Option.some.injEq, Prod.mk.injEq]
  constructor
  · rintro ⟨_, t₁, h₁, key, t₂, h₂, body, t₃, h₃, key', _, h₄, rfl, rfl⟩
    exact ⟨t₁, key, t₂, body, t₃, key', h₁, h₂, h₃, h₄⟩
  · rintro ⟨t₁, key, t₂, body, t₃, key', h₁, h₂, h₃, h₄⟩
    exact ⟨_, t₁, h₁, key, t₂, h₂, body, t₃, h₃, key', _, h₄, rfl, rfl⟩

theorem exists_block_of_around? {kind : BlockKind} {t before rest : Text}
    (h : around? kind t = some (before, rest)) :
    ∃ key body key', '>' ∉ key ∧ '>' ∉ key' ∧
      t = before ++ (anyTag (openHead kind) key ++
        (body ++ (anyTag (closeHead kind) key' ++ rest))) := by
  obtain ⟨t₁, key, t₂, body, t₃, key', h₁, h₂, h₃, h₄⟩ := around?_eq_some_iff.mp h
  refine ⟨key, body, key', notMem_of_cut?_singleton h₂, notMem_of_cut?_singleton h₄, ?_⟩
  rw [eq_of_cut? h₁, eq_of_cut? h₂, eq_of_cut? h₃, eq_of_cut? h₄]
  simp [anyTag]

theorem around?_ne_none_of_holdsBlock {kind : BlockKind} {t : Text} (h : HoldsBlock kind t) :
    around? kind t ≠ none := by
  obtain ⟨before, key, body, key', rest, -, -, rfl⟩ := h
  simp only [anyTag, List.append_assoc]
  obtain ⟨before₁, t₁, h₁, s₁, rfl⟩ := exists_cut?_append (openHead kind) before
    (key ++ (['>'] ++ (body ++ (closeHead kind ++ (key' ++ (['>'] ++ rest))))))
  obtain ⟨key₂, t₂, h₂, s₂, rfl⟩ := exists_cut?_append ['>'] (s₁ ++ key)
    (body ++ (closeHead kind ++ (key' ++ (['>'] ++ rest))))
  obtain ⟨body₃, t₃, h₃, s₃, rfl⟩ := exists_cut?_append (closeHead kind) (s₂ ++ body)
    (key' ++ (['>'] ++ rest))
  obtain ⟨key₄, t₄, h₄, -⟩ := exists_cut?_append ['>'] (s₃ ++ key') rest
  simp only [List.append_assoc] at h₂ h₃ h₄
  rw [around?_eq_some_iff.mpr ⟨_, key₂, _, body₃, _, key₄, h₁, h₂, h₃, h₄⟩]
  simp

theorem around?_eq_none_iff {kind : BlockKind} {t : Text} :
    around? kind t = none ↔ ¬ HoldsBlock kind t := by
  constructor
  · exact fun hnone hblock => around?_ne_none_of_holdsBlock hblock hnone
  · intro hblock
    rw [Option.eq_none_iff_forall_ne_some]
    rintro ⟨before, rest⟩ h
    obtain ⟨key, body, key', hkey, hkey', rfl⟩ := exists_block_of_around? h
    exact hblock ⟨before, key, body, key', rest, hkey, hkey', rfl⟩

theorem sweep_sublist (kind : BlockKind) (t : Text) : (sweep kind t).Sublist t := by
  fun_induction sweep kind t with
  | case1 => exact List.Sublist.refl _
  | case2 t before rest h ih =>
      obtain ⟨key, body, key', -, -, ht⟩ := exists_block_of_around? h
      rw [ht]
      refine (List.Sublist.refl before).append (ih.trans ?_)
      simp only [← List.append_assoc]
      exact List.sublist_append_right _ _

theorem sweep_eq_self_iff {kind : BlockKind} {t : Text} :
    sweep kind t = t ↔ ¬ HoldsBlock kind t := by
  constructor
  · intro hsweep hblock
    obtain ⟨⟨before, rest⟩, h⟩ :=
      Option.ne_none_iff_exists'.mp (around?_ne_none_of_holdsBlock hblock)
    rw [sweep_eq, h] at hsweep
    obtain ⟨key, body, key', -, -, ht⟩ := exists_block_of_around? h
    have hlen := congrArg List.length (hsweep.trans ht)
    have hrest := (sweep_sublist kind rest).length_le
    simp only [anyTag, openHead, List.length_append, List.length_cons] at hlen
    omega
  · intro hblock
    rw [sweep_eq, around?_eq_none_iff.mpr hblock]

end Stencil.Block
