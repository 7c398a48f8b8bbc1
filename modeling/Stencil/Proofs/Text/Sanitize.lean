import Mathlib.Data.List.Chain
import Mathlib.Data.List.Infix
import Stencil.Marker

namespace Stencil

namespace Marker

theorem toNat_toLower (c : Char) :
    c.toLower.toNat = if 65 ≤ c.toNat ∧ c.toNat ≤ 90 then c.toNat + 32 else c.toNat := by
  have hrange : ('A'.val ≤ c.val ∧ c.val ≤ 'Z'.val) ↔ (65 ≤ c.toNat ∧ c.toNat ≤ 90) := Iff.rfl
  unfold Char.toLower
  split
  next h =>
    rw [if_pos (hrange.mp h)]
    have hbound := (hrange.mp h).2
    have hsum : (c.val + ('a'.val - 'A'.val)).toNat = (c.toNat + 32) % 2 ^ 32 :=
      UInt32.toNat_add c.val ('a'.val - 'A'.val)
    rw [Char.toNat, hsum]
    omega
  next h => rw [if_neg fun hletter => h (hrange.mpr hletter)]

theorem toLower_eq_iff {c m : Char} (hm : m.isAlpha = false) : c.toLower = m ↔ c = m := by
  obtain ⟨hupper, hlower⟩ := Bool.or_eq_false_iff.mp hm
  have hnotUpper : ¬ (65 ≤ m.toNat ∧ m.toNat ≤ 90) := by
    have hrange : decide (65 ≤ m.val ∧ m.val ≤ 90) = false := hupper
    simpa [UInt32.le_iff_toNat_le] using hrange
  have hnotLower : ¬ (97 ≤ m.toNat ∧ m.toNat ≤ 122) := by
    have hrange : (decide (97 ≤ m.val) && decide (m.val ≤ 122)) = false := hlower
    simpa [UInt32.le_iff_toNat_le] using hrange
  rw [← Char.toNat_inj, ← Char.toNat_inj, toNat_toLower]
  split <;> omega

theorem mem_of_standsAt {marker t : Text} (h : standsAt marker t) {m : Char} (hm : m ∈ marker) :
    ∃ c ∈ t, c.toLower = m := by
  fun_induction standsAt marker t with
  | case1 => simp at hm
  | case2 => simp at h
  | case3 m' marker c t ih =>
      simp only [Bool.and_eq_true, beq_iff_eq] at h
      rcases List.mem_cons.mp hm with rfl | hm
      · exact ⟨c, by simp, h.1⟩
      · obtain ⟨d, hd, hlower⟩ := ih h.2 hm
        exact ⟨d, List.mem_cons_of_mem _ hd, hlower⟩

theorem delete_of_notMem {marker : Text} {m : Char} (hm : m ∈ marker)
    (hlower : m.isAlpha = false) {t : Text} (h : m ∉ t) : delete marker t = t := by
  induction t with
  | nil => exact delete_nil marker
  | cons c t ih =>
      have hnot : ¬ standsAt marker (c :: t) := by
        intro hstands
        obtain ⟨d, hd, hdm⟩ := mem_of_standsAt hstands hm
        rw [(toLower_eq_iff hlower).mp hdm] at hd
        exact h hd
      rw [delete, if_neg hnot, ih fun hmem => h (List.mem_cons_of_mem _ hmem)]

/-- The marker stands somewhere in the text, whatever the case of its letters. -/
def Occurs (marker t : Text) : Prop :=
  ∃ back, back <:+ t ∧ standsAt marker back

/-- No marker stands in the text. -/
def Free (t : Text) : Prop :=
  ∀ marker ∈ all, ¬ Occurs marker t

theorem not_occurs_of_delete {marker t : Text} (hne : marker ≠ []) (h : delete marker t = t) :
    ¬ Occurs marker t := by
  rintro ⟨back, hback, hstands⟩
  obtain ⟨m, marker, rfl⟩ := List.exists_cons_of_ne_nil hne
  induction t with
  | nil =>
      rw [List.suffix_nil.mp hback] at hstands
      exact Bool.false_ne_true hstands
  | cons c t ih =>
      rw [delete] at h
      split at h
      next =>
        have hshort := (delete_sublist (m :: marker) (t.drop ((m :: marker).length - 1))).length_le
        rw [h] at hshort
        simp only [List.length_cons, List.length_drop] at hshort
        omega
      next hnot =>
        rcases List.suffix_cons_iff.mp hback with rfl | hback
        · exact hnot hstands
        · exact ih hback (List.cons.inj h).2

theorem foldl_delete_sublist (markers : List Text) (t : Text) :
    (markers.foldl (fun t marker => delete marker t) t).Sublist t := by
  induction markers generalizing t with
  | nil => exact List.Sublist.refl t
  | cons marker markers ih => exact (ih _).trans (delete_sublist marker t)

theorem delete_of_foldl_delete {markers : List Text} {t : Text}
    (h : markers.foldl (fun t marker => delete marker t) t = t) :
    ∀ marker ∈ markers, delete marker t = t := by
  induction markers with
  | nil => simp
  | cons marker markers ih =>
      have hmarker : delete marker t = t := by
        apply (delete_sublist marker t).eq_of_length_le
        have hlen := (foldl_delete_sublist markers (delete marker t)).length_le
        rwa [← List.foldl_cons, h] at hlen
      rw [List.foldl_cons, hmarker] at h
      rw [List.forall_mem_cons]
      exact ⟨hmarker, ih h⟩

theorem free_sanitize (t : Text) : Free (sanitize t) := by
  intro marker hmarker
  apply not_occurs_of_delete
  · rintro rfl
    exact absurd hmarker (by decide)
  · exact delete_of_foldl_delete (round_sanitize t) marker hmarker

theorem standsAt_iff_of_not_alpha {marker t : Text} (h : ∀ m ∈ marker, m.isAlpha = false) :
    standsAt marker t ↔ marker <+: t := by
  fun_induction standsAt marker t with
  | case1 => simp
  | case2 => simp
  | case3 m marker c t ih =>
      rw [List.forall_mem_cons] at h
      rw [Bool.and_eq_true, beq_iff_eq, toLower_eq_iff h.1, ih h.2, List.cons_prefix_cons, eq_comm]

theorem standsAt_of_append {front back t : Text} (h : standsAt (front ++ back) t) :
    standsAt front t := by
  fun_induction standsAt front t with
  | case1 => rfl
  | case2 m front => simp [standsAt] at h
  | case3 m front c t ih =>
      rw [List.cons_append, standsAt, Bool.and_eq_true] at h
      rw [h.1, ih h.2]
      rfl

theorem occurs_iff_of_not_alpha {marker t : Text} (h : ∀ m ∈ marker, m.isAlpha = false) :
    Occurs marker t ↔ marker <:+: t := by
  simp only [Occurs, standsAt_iff_of_not_alpha h, List.infix_iff_prefix_suffix, and_comm]

/-- A character and the next one that are a marker together. -/
def Pair (a b : Char) : Prop :=
  (a = '<' ∧ b = '?') ∨ (a = '?' ∧ b = '>')

instance (a b : Char) : Decidable (Pair a b) :=
  inferInstanceAs (Decidable (_ ∨ _))

theorem free_iff {t : Text} :
    Free t ↔ '\x60' ∉ t ∧ t.IsChain fun a b => ¬ Pair a b := by
  have hpairs : (t.IsChain fun a b => ¬ Pair a b) ↔
      ¬ ['<', '?'] <:+: t ∧ ¬ ['?', '>'] <:+: t := by
    rw [List.isChain_iff_forall_rel_of_append_cons_cons]
    constructor
    · intro h
      constructor
      · rintro ⟨front, back, rfl⟩
        exact h (show _ = front ++ '<' :: '?' :: back by simp) (Or.inl ⟨rfl, rfl⟩)
      · rintro ⟨front, back, rfl⟩
        exact h (show _ = front ++ '?' :: '>' :: back by simp) (Or.inr ⟨rfl, rfl⟩)
    · rintro ⟨hopens, hcloses⟩ a b front back rfl (⟨rfl, rfl⟩ | ⟨rfl, rfl⟩)
      · exact hopens ⟨front, back, by simp⟩
      · exact hcloses ⟨front, back, by simp⟩
  have hlong : Occurs ['<', '?', 'p', 'h', 'p'] t → ['<', '?'] <:+: t := by
    rintro ⟨back, hback, hstands⟩
    exact (occurs_iff_of_not_alpha (by simp)).mp
      ⟨back, hback, standsAt_of_append (show standsAt (['<', '?'] ++ ['p', 'h', 'p']) back from
        hstands)⟩
  have hbacktick : Occurs ['\x60'] t ↔ '\x60' ∈ t := by
    rw [occurs_iff_of_not_alpha (by simp), List.singleton_infix_iff]
  have hshort : Occurs ['<', '?'] t ↔ ['<', '?'] <:+: t := occurs_iff_of_not_alpha (by simp)
  have hend : Occurs ['?', '>'] t ↔ ['?', '>'] <:+: t := occurs_iff_of_not_alpha (by simp)
  rw [hpairs, Free, all, List.forall_mem_cons, List.forall_mem_cons, List.forall_mem_cons,
    List.forall_mem_singleton, hbacktick, hshort, hend]
  constructor
  · rintro ⟨htick, -, hopens, hcloses⟩
    exact ⟨htick, hopens, hcloses⟩
  · rintro ⟨htick, hopens, hcloses⟩
    exact ⟨htick, fun h => hopens (hlong h), hopens, hcloses⟩

end Marker

theorem sanitize_of_notMem {t : Text} (hbacktick : '\x60' ∉ t) (hmark : '?' ∉ t) :
    sanitize t = t := by
  apply sanitize_eq_self_of_round
  rw [Marker.round, Marker.all]
  simp only [List.foldl_cons, List.foldl_nil]
  rw [Marker.delete_of_notMem (by simp) (by decide) hbacktick,
    Marker.delete_of_notMem (m := '?') (by simp) (by decide) hmark,
    Marker.delete_of_notMem (m := '?') (by simp) (by decide) hmark,
    Marker.delete_of_notMem (m := '?') (by simp) (by decide) hmark]

theorem sanitize_sanitize (t : Text) : sanitize (sanitize t) = sanitize t :=
  sanitize_eq_self_of_round (round_sanitize t)

theorem sanitize_sublist (t : Text) : (sanitize t).Sublist t := by
  fun_induction sanitize t with
  | case1 t => exact List.Sublist.refl t
  | case2 t _ ih => exact ih.trans (Marker.round_sublist t)

end Stencil
