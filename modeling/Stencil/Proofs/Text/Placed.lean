import Mathlib.Data.List.Nodup
import Stencil.Text.Position

namespace Stencil.Text

/-- The characters of a text, each with the number of bytes before it. -/
def placed (offset : Nat) : Text → List (Char × Nat)
  | [] => []
  | c :: t => (c, offset) :: placed (offset + c.utf8Size) t

/-- The characters at the places that are asked for, in the order of the text. -/
def pick (wanted : Nat → Bool) (t : Text) : Text :=
  ((placed 0 t).filter fun p => wanted p.2).map Prod.fst

@[simp] theorem map_fst_placed (offset : Nat) (t : Text) : (placed offset t).map Prod.fst = t := by
  induction t generalizing offset with
  | nil => rfl
  | cons c t ih => rw [placed, List.map_cons, ih]

theorem placed_append (offset : Nat) (s t : Text) :
    placed offset (s ++ t) = placed offset s ++ placed (offset + s.utf8Size) t := by
  induction s generalizing offset with
  | nil => rfl
  | cons c s ih =>
      rw [List.cons_append, placed, placed, ih, utf8Size_cons, Nat.add_assoc, List.cons_append]

theorem bounds_of_mem_placed {offset : Nat} {t : Text} {p : Char × Nat} (h : p ∈ placed offset t) :
    offset ≤ p.2 ∧ p.2 < offset + t.utf8Size := by
  induction t generalizing offset with
  | nil => simp [placed] at h
  | cons c t ih =>
      have hpos := c.utf8Size_pos
      rw [utf8Size_cons]
      rcases List.mem_cons.mp h with rfl | h
      · exact ⟨Nat.le_refl _, by omega⟩
      · have hbounds := ih h
        omega

theorem nodup_map_snd_placed (offset : Nat) (t : Text) :
    ((placed offset t).map Prod.snd).Nodup := by
  induction t generalizing offset with
  | nil => exact List.nodup_nil
  | cons c t ih =>
      have hpos := c.utf8Size_pos
      refine List.nodup_cons.mpr ⟨?_, ih _⟩
      intro hmem
      obtain ⟨p, hp, hplace⟩ := List.mem_map.mp hmem
      have hbounds := bounds_of_mem_placed hp
      omega

theorem filter_mem_map_snd_of_sublist {part whole : List (Char × Nat)} (h : part.Sublist whole)
    (hnodup : (whole.map Prod.snd).Nodup) :
    (whole.filter fun p => p.2 ∈ part.map Prod.snd) = part := by
  induction h with
  | slnil => rfl
  | @cons part whole p h ih =>
      obtain ⟨hfirst, hnodup⟩ := List.nodup_cons.mp hnodup
      have hnot : p.2 ∉ part.map Prod.snd := fun hmem => hfirst ((h.map Prod.snd).mem hmem)
      rw [List.filter_cons_of_neg (by simpa using hnot), ih hnodup]
  | @cons_cons part whole p h ih =>
      obtain ⟨hfirst, hnodup⟩ := List.nodup_cons.mp hnodup
      rw [List.filter_cons_of_pos (by simp)]
      refine congrArg (p :: ·) (Eq.trans (List.filter_congr ?_) (ih hnodup))
      intro q hq
      have hne : q.2 ≠ p.2 := fun heq => hfirst (heq ▸ List.mem_map_of_mem hq)
      simp [hne]

theorem pick_of_sublist {part : List (Char × Nat)} {t : Text} (h : part.Sublist (placed 0 t)) :
    pick (· ∈ part.map Prod.snd) t = part.map Prod.fst := by
  rw [pick, filter_mem_map_snd_of_sublist h (nodup_map_snd_placed 0 t)]

end Stencil.Text
