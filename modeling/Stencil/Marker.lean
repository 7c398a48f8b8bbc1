import Stencil.Text.Basic

/-!
Removal of code markers from untrusted text.  A round deletes the occurrences of each marker in
turn, in any ASCII case; rounds are repeated until one changes nothing, so that deleting a marker
cannot leave a new one behind.
-/

namespace Stencil.Marker

/-- The texts that are taken out, the long opening marker before the short one. -/
def all : List Text :=
  [['\x60'], ['<', '?', 'p', 'h', 'p'], ['<', '?'], ['?', '>']]

/-- The text begins with the marker, whatever the case of its ASCII letters. -/
def standsAt : Text → Text → Bool
  | [], _ => true
  | _ :: _, [] => false
  | m :: marker, c :: t => c.toLower == m && standsAt marker t

/-- Deletes every occurrence of one marker, leftmost first and without overlap. -/
def delete (marker : Text) : Text → Text
  | [] => []
  | c :: t =>
      if standsAt marker (c :: t) then
        delete marker (t.drop (marker.length - 1))
      else
        c :: delete marker t
termination_by t => t.length
decreasing_by
  · simp only [List.length_drop, List.length_cons]
    omega
  · simp

@[simp] theorem delete_nil (marker : Text) : delete marker [] = [] := by
  rw [delete]

theorem delete_sublist (marker t : Text) : (delete marker t).Sublist t := by
  fun_induction delete marker t with
  | case1 => exact List.Sublist.slnil
  | case2 c t _ ih => exact (ih.trans (List.drop_sublist _ _)).cons c
  | case3 c t _ ih => exact ih.cons_cons c

/-- The text without the occurrences of each marker, taken out in turn. -/
def round (t : Text) : Text :=
  all.foldl (fun t marker => delete marker t) t

theorem round_sublist (t : Text) : (round t).Sublist t := by
  simp only [round, all, List.foldl_cons, List.foldl_nil]
  exact (delete_sublist _ _).trans ((delete_sublist _ _).trans
    ((delete_sublist _ _).trans (delete_sublist _ _)))

theorem length_round_lt {t : Text} (h : round t ≠ t) : (round t).length < t.length :=
  Nat.lt_of_le_of_ne (round_sublist t).length_le fun hl => h ((round_sublist t).eq_of_length hl)

end Stencil.Marker

namespace Stencil

/-- The text after rounds of deletion up to the first that changes nothing. -/
def sanitize (t : Text) : Text :=
  if _h : Marker.round t = t then t else sanitize (Marker.round t)
termination_by t.length
decreasing_by exact Marker.length_round_lt _h

theorem sanitize_eq_self_of_round {t : Text} (h : Marker.round t = t) : sanitize t = t := by
  rw [sanitize, dif_pos h]

theorem round_sanitize (t : Text) : Marker.round (sanitize t) = sanitize t := by
  fun_induction sanitize t with
  | case1 t h => exact h
  | case2 t _ ih => exact ih

end Stencil
