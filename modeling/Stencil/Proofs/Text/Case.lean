import Stencil.Proofs.Text.Deletion
import Stencil.Proofs.Text.Placed

/-!
Sanitizing and the case of letters.  The passes only ask which markers stand where in any case, so
they can be run on things that merely have a character each.  Run on the characters of a text with
their places they tell which places are deleted, and a change of case that goes through one test of
a marker goes through the passes, the rounds and their repetition.
-/

namespace Stencil

namespace Marker

variable {α β : Type}

/-- Deletion of a marker from a list of things with a character each. -/
def deleteBy (char : α → Char) (marker : Text) : List α → List α
  | [] => []
  | a :: as =>
      if standsAt marker ((a :: as).map char) then
        deleteBy char marker (as.drop (marker.length - 1))
      else
        a :: deleteBy char marker as
termination_by as => as.length
decreasing_by
  · simp only [List.length_drop, List.length_cons]
    omega
  · simp

/-- A deletion of each marker in turn. -/
def roundBy (char : α → Char) (as : List α) : List α :=
  all.foldl (fun as marker => deleteBy char marker as) as

theorem deleteBy_sublist (char : α → Char) (marker : Text) (as : List α) :
    (deleteBy char marker as).Sublist as := by
  fun_induction deleteBy char marker as with
  | case1 => exact List.Sublist.slnil
  | case2 a as _ ih => exact (ih.trans (List.drop_sublist _ _)).cons a
  | case3 a as _ ih => exact ih.cons_cons a

theorem foldl_deleteBy_sublist (char : α → Char) (markers : List Text) (as : List α) :
    (markers.foldl (fun as marker => deleteBy char marker as) as).Sublist as := by
  induction markers generalizing as with
  | nil => exact List.Sublist.refl as
  | cons marker markers ih => exact (ih _).trans (deleteBy_sublist char marker as)

theorem roundBy_sublist (char : α → Char) (as : List α) : (roundBy char as).Sublist as :=
  foldl_deleteBy_sublist char all as

/-- Rounds of deletion up to the first that deletes nothing. -/
def sanitizeBy (char : α → Char) (as : List α) : List α :=
  if _h : (roundBy char as).length = as.length then as else sanitizeBy char (roundBy char as)
termination_by as.length
decreasing_by exact Nat.lt_of_le_of_ne (roundBy_sublist char as).length_le _h

theorem sanitizeBy_sublist (char : α → Char) (as : List α) : (sanitizeBy char as).Sublist as := by
  fun_induction sanitizeBy char as with
  | case1 as _ => exact List.Sublist.refl as
  | case2 as _ ih => exact ih.trans (roundBy_sublist char as)

theorem standsAt_eq_of_map_toLower {t t' : Text} (h : t.map Char.toLower = t'.map Char.toLower)
    (marker : Text) : standsAt marker t = standsAt marker t' := by
  induction marker generalizing t t' with
  | nil => rfl
  | cons m marker ih =>
      cases t with
      | nil =>
          obtain rfl := List.map_eq_nil_iff.mp h.symm
          rfl
      | cons c t =>
          obtain ⟨c', t', rfl, hc, ht⟩ := List.map_eq_cons_iff.mp h.symm
          rw [standsAt, standsAt, hc, ih ht.symm]

section

variable {char : α → Char} {char' : β → Char} {f : α → β}
  (hf : ∀ a, (char' (f a)).toLower = (char a).toLower)

include hf

theorem standsAt_map (marker : Text) (as : List α) :
    standsAt marker ((as.map f).map char') = standsAt marker (as.map char) := by
  apply standsAt_eq_of_map_toLower
  simp only [List.map_map]
  exact List.map_congr_left fun a _ => hf a

theorem deleteBy_map (marker : Text) (as : List α) :
    deleteBy char' marker (as.map f) = (deleteBy char marker as).map f := by
  fun_induction deleteBy char marker as with
  | case1 => simp [deleteBy]
  | case2 a as hstands ih =>
      rw [List.map_cons, deleteBy, ← List.map_cons, standsAt_map hf, if_pos hstands,
        ← List.map_drop, ih]
  | case3 a as hstands ih =>
      rw [List.map_cons, deleteBy, ← List.map_cons, standsAt_map hf, if_neg hstands, ih,
        List.map_cons]

theorem foldl_deleteBy_map (markers : List Text) (as : List α) :
    markers.foldl (fun bs marker => deleteBy char' marker bs) (as.map f) =
      (markers.foldl (fun as marker => deleteBy char marker as) as).map f := by
  induction markers generalizing as with
  | nil => rfl
  | cons marker markers ih => rw [List.foldl_cons, List.foldl_cons, deleteBy_map hf, ih]

theorem roundBy_map (as : List α) : roundBy char' (as.map f) = (roundBy char as).map f :=
  foldl_deleteBy_map hf all as

theorem sanitizeBy_map (as : List α) :
    sanitizeBy char' (as.map f) = (sanitizeBy char as).map f := by
  -- a round shortens the list and its image by as much, so the rounds stop together
  fun_induction sanitizeBy char as with
  | case1 as hround =>
      rw [sanitizeBy, dif_pos]
      rw [roundBy_map hf, List.length_map, List.length_map, hround]
  | case2 as hround ih =>
      rw [sanitizeBy, dif_neg, roundBy_map hf, ih]
      rwa [roundBy_map hf, List.length_map, List.length_map]

end

theorem deleteBy_id (marker t : Text) : deleteBy id marker t = delete marker t := by
  fun_induction delete marker t with
  | case1 => rw [deleteBy]
  | case2 c t hstands ih => rw [deleteBy, List.map_id, if_pos hstands, ih]
  | case3 c t hstands ih => rw [deleteBy, List.map_id, if_neg hstands, ih]

theorem roundBy_id (t : Text) : roundBy id t = round t := by
  simp only [roundBy, round, deleteBy_id]

theorem sanitizeBy_id (t : Text) : sanitizeBy id t = sanitize t := by
  fun_induction sanitize t with
  | case1 t hround =>
      rw [sanitizeBy, roundBy_id, hround, dif_pos rfl]
  | case2 t hround ih =>
      rw [sanitizeBy, roundBy_id, dif_neg (Nat.ne_of_lt (length_round_lt hround)), ih]

/-- Whatever the characters are carried by, what is kept of them is the sanitized text. -/
theorem map_sanitizeBy (char : α → Char) (as : List α) :
    (sanitizeBy char as).map char = sanitize (as.map char) := by
  have hchar : ∀ a, (id (char a)).toLower = (char a).toLower := fun _ => rfl
  rw [← sanitizeBy_id, sanitizeBy_map hchar]

theorem toLower_toLower (c : Char) : c.toLower.toLower = c.toLower := by
  rw [← Char.toNat_inj, toNat_toLower, if_neg]
  rw [toNat_toLower]
  split <;> omega

theorem sanitize_map_toLower (t : Text) :
    sanitize (t.map Char.toLower) = (sanitize t).map Char.toLower := by
  rw [← sanitizeBy_id, ← sanitizeBy_id]
  have hlower : ∀ c : Char, (id c.toLower).toLower = (id c).toLower := toLower_toLower
  exact sanitizeBy_map hlower t

/-- The bytes at which the characters stand that sanitizing keeps. -/
def keptPlaces (t : Text) : List Nat :=
  (sanitizeBy Prod.fst (t.placed 0)).map Prod.snd

/-- The bytes at which the characters stand that sanitizing deletes. -/
def deletedPlaces (t : Text) : List Nat :=
  ((t.placed 0).map Prod.snd).filter (· ∉ keptPlaces t)

theorem utf8Size_toLower (c : Char) : c.toLower.utf8Size = c.utf8Size := by
  by_cases hupper : 65 ≤ c.toNat ∧ c.toNat ≤ 90
  · have hone : c.utf8Size = 1 := Char.utf8Size_eq_one_iff.mpr (show c.toNat ≤ 127 by omega)
    rw [hone, Char.utf8Size_eq_one_iff]
    show c.toLower.toNat ≤ 127
    rw [toNat_toLower, if_pos hupper]
    omega
  · have hsame : c.toLower = c := by rw [← Char.toNat_inj, toNat_toLower, if_neg hupper]
    rw [hsame]

theorem placed_map_toLower (offset : Nat) (t : Text) :
    Text.placed offset (t.map Char.toLower) = (t.placed offset).map (Prod.map Char.toLower id) := by
  induction t generalizing offset with
  | nil => rfl
  | cons c t ih =>
      rw [List.map_cons, Text.placed, utf8Size_toLower, ih]
      rfl

theorem map_snd_placed_map_toLower (t : Text) :
    (Text.placed 0 (t.map Char.toLower)).map Prod.snd = (t.placed 0).map Prod.snd := by
  rw [placed_map_toLower, List.map_map]
  rfl

theorem keptPlaces_map_toLower (t : Text) : keptPlaces (t.map Char.toLower) = keptPlaces t := by
  have hcase : ∀ p : Char × Nat, (Prod.map Char.toLower id p).1.toLower = p.1.toLower :=
    fun p => toLower_toLower p.1
  rw [keptPlaces, placed_map_toLower, sanitizeBy_map hcase, List.map_map]
  rfl

theorem deletedPlaces_map_toLower (t : Text) :
    deletedPlaces (t.map Char.toLower) = deletedPlaces t := by
  rw [deletedPlaces, map_snd_placed_map_toLower, keptPlaces_map_toLower, deletedPlaces]

theorem pick_notMem_deletedPlaces (t : Text) : t.pick (· ∉ deletedPlaces t) = sanitize t := by
  have hkept : t.pick (· ∈ keptPlaces t) = sanitize t := by
    rw [keptPlaces, Text.pick_of_sublist (sanitizeBy_sublist Prod.fst (t.placed 0)),
      map_sanitizeBy, Text.map_fst_placed]
  rw [← hkept, Text.pick, Text.pick]
  refine congrArg (List.map Prod.fst) (List.filter_congr ?_)
  intro p hp
  have hplace : p.2 ∈ (t.placed 0).map Prod.snd := List.mem_map_of_mem hp
  simp [deletedPlaces, hplace]

theorem IsMarker.toNat_lt {s : Text} (h : IsMarker s) {c : Char} (hc : c ∈ s) : c.toNat < 128 := by
  have hall : ∀ m ∈ all.flatten, m.toNat < 128 := by simp [all]
  have hlower := hall c.toLower (List.mem_flatten_of_mem h (List.mem_map_of_mem hc))
  rw [toNat_toLower] at hlower
  split at hlower <;> omega

theorem Deletes.filter_eq {t t' : Text} (h : Deletes t t') :
    t'.filter (128 ≤ ·.toNat) = t.filter (128 ≤ ·.toNat) := by
  cases h with
  | @intro front s hs back =>
      have hnone : s.filter (128 ≤ ·.toNat) = [] :=
        List.filter_eq_nil_iff.mpr fun c hc => by simpa using hs.toNat_lt hc
      simp only [List.filter_append, hnone, List.nil_append]

theorem Reduces.filter_eq {t t' : Text} (h : Reduces t t') :
    t'.filter (128 ≤ ·.toNat) = t.filter (128 ≤ ·.toNat) := by
  induction h with
  | refl => rfl
  | tail _ hstep ih => rw [hstep.filter_eq, ih]

/-- Texts that are equal up to the case of ASCII letters lose the characters at the same bytes, and
nothing else.  So sanitizing goes through lowering the case, and characters outside ASCII stay as
they are and in order. -/
theorem sanitize_ignores_case {t t' : Text} (h : t.map Char.toLower = t'.map Char.toLower) :
    deletedPlaces t = deletedPlaces t' ∧
      sanitize t = t.pick (· ∉ deletedPlaces t) ∧
      sanitize t' = t'.pick (· ∉ deletedPlaces t) ∧
      (sanitize t).map Char.toLower = (sanitize t').map Char.toLower ∧
      sanitize (t.map Char.toLower) = (sanitize t).map Char.toLower ∧
      (sanitize t).filter (128 ≤ ·.toNat) = t.filter (128 ≤ ·.toNat) := by
  have hplaces : deletedPlaces t = deletedPlaces t' := by
    rw [← deletedPlaces_map_toLower, h, deletedPlaces_map_toLower]
  refine ⟨hplaces, (pick_notMem_deletedPlaces t).symm, ?_, ?_, sanitize_map_toLower t,
    (reduces_sanitize t).filter_eq⟩
  · rw [hplaces, pick_notMem_deletedPlaces]
  · rw [← sanitize_map_toLower, h, sanitize_map_toLower]

theorem nested_markers_deleted_in_any_case :
    "É<<??pHpé`ß".toList.map Char.toLower = "É<<??PhPé`ß".toList.map Char.toLower ∧
      deletedPlaces "É<<??pHpé`ß".toList = deletedPlaces "É<<??PhPé`ß".toList ∧
      deletedPlaces "É<<??pHpé`ß".toList = [2, 3, 4, 5, 6, 7, 8, 11] ∧
      sanitize "É<<??PhPé`ß".toList = "Ééß".toList := by
  have hcase : "É<<??pHpé`ß".toList.map Char.toLower = "É<<??PhPé`ß".toList.map Char.toLower := by
    decide
  have hkept : keptPlaces "É<<??pHpé`ß".toList = [0, 9, 12] := by decide +kernel
  have hdeleted : deletedPlaces "É<<??pHpé`ß".toList = [2, 3, 4, 5, 6, 7, 8, 11] := by
    rw [deletedPlaces, hkept]
    decide
  exact ⟨hcase, (sanitize_ignores_case hcase).1, hdeleted, by decide +kernel⟩

end Marker

end Stencil
