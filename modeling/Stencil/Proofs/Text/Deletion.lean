import Mathlib.Logic.Relation
import Stencil.Proofs.Text.Sanitize

/-!
Sanitizing as a reduction.  One step deletes one occurrence of a marker, in some case of its
letters, from the text as it then is; a text is in normal form when it holds none.  Deleting a
marker throughout, a round, and the repetition of rounds are all runs of such steps, and the last of
them ends in a normal form.
-/

namespace Stencil

namespace Marker

/-- The text is one of the markers in some case of its ASCII letters. -/
def IsMarker (s : Text) : Prop :=
  s.map Char.toLower ∈ all

/-- A marker stands somewhere in the text, in some case of its letters. -/
def HoldsMarker (t : Text) : Prop :=
  ∃ s, IsMarker s ∧ s <:+: t

/-- The second text is the first one without one occurrence of a marker. -/
inductive Deletes : Text → Text → Prop
  | intro (front : Text) {s : Text} (h : IsMarker s) (back : Text) :
      Deletes (front ++ (s ++ back)) (front ++ back)

/-- A text from which deletions of markers lead to another one. -/
abbrev Reduces : Text → Text → Prop :=
  Relation.ReflTransGen Deletes

theorem standsAt_iff {marker t : Text} :
    standsAt marker t ↔ ∃ s back, t = s ++ back ∧ s.map Char.toLower = marker := by
  fun_induction standsAt marker t with
  | case1 t => exact ⟨fun _ => ⟨[], t, rfl, rfl⟩, fun _ => rfl⟩
  | case2 m marker =>
      refine ⟨fun h => absurd h Bool.false_ne_true, ?_⟩
      rintro ⟨s, back, hparts, hs⟩
      obtain ⟨rfl, -⟩ := List.append_eq_nil_iff.mp hparts.symm
      exact absurd hs.symm (List.cons_ne_nil m marker)
  | case3 m marker c t ih =>
      rw [Bool.and_eq_true, beq_iff_eq, ih]
      constructor
      · rintro ⟨rfl, s, back, rfl, rfl⟩
        exact ⟨c :: s, back, rfl, rfl⟩
      · rintro ⟨s, back, hparts, hs⟩
        obtain ⟨d, s, rfl, rfl, rfl⟩ := List.map_eq_cons_iff.mp hs
        obtain ⟨rfl, rfl⟩ := List.cons.inj hparts
        exact ⟨rfl, s, back, rfl, rfl⟩

theorem free_iff_not_holdsMarker {t : Text} : Free t ↔ ¬ HoldsMarker t := by
  constructor
  · rintro hfree ⟨s, hs, front, back, rfl⟩
    have hback : s ++ back <:+ front ++ s ++ back := ⟨front, (List.append_assoc _ _ _).symm⟩
    exact hfree _ hs ⟨s ++ back, hback, standsAt_iff.mpr ⟨s, back, rfl, rfl⟩⟩
  · rintro hholds marker hmarker ⟨back, hback, hstands⟩
    obtain ⟨s, rest, rfl, rfl⟩ := standsAt_iff.mp hstands
    exact hholds ⟨s, hmarker, (List.prefix_append s rest).isInfix.trans hback.isInfix⟩

theorem Deletes.holdsMarker {t t' : Text} (h : Deletes t t') : HoldsMarker t := by
  cases h with
  | @intro front s hs back => exact ⟨s, hs, front, back, List.append_assoc _ _ _⟩

theorem Deletes.cons {t t' : Text} (c : Char) (h : Deletes t t') : Deletes (c :: t) (c :: t') := by
  cases h with
  | intro front hs back => exact .intro (c :: front) hs back

theorem Reduces.cons {t t' : Text} (c : Char) (h : Reduces t t') : Reduces (c :: t) (c :: t') :=
  h.lift (c :: ·) fun _ _ => Deletes.cons c

theorem reduces_delete {marker : Text} (hmarker : marker ∈ all) (t : Text) :
    Reduces t (delete marker t) := by
  have hne : marker ≠ [] := by
    rintro rfl
    exact absurd hmarker (by decide)
  fun_induction delete marker t with
  | case1 => exact .refl
  | case2 c t hstands ih =>
      obtain ⟨s, back, hparts, hs⟩ := standsAt_iff.mp hstands
      have hlength : s.length = marker.length := by rw [← hs, List.length_map]
      obtain ⟨d, s, rfl⟩ : ∃ d s', s = d :: s' := by
        refine List.exists_cons_of_ne_nil ?_
        rintro rfl
        exact hne hs.symm
      rw [List.cons_append, List.cons.injEq] at hparts
      obtain ⟨rfl, rfl⟩ := hparts
      have hdrop : (s ++ back).drop (marker.length - 1) = back := by
        rw [← hlength, List.length_cons, Nat.add_sub_cancel, List.drop_left]
      rw [hdrop] at ih ⊢
      -- what is deleted further on does not depend on this occurrence, which goes first
      have hfirst : Deletes (c :: (s ++ back)) back := .intro [] (hs ▸ hmarker) back
      exact .head hfirst ih
  | case3 c t _ ih => exact ih.cons c

theorem reduces_foldl_delete {markers : List Text} (h : ∀ marker ∈ markers, marker ∈ all)
    (t : Text) : Reduces t (markers.foldl (fun t marker => delete marker t) t) := by
  induction markers generalizing t with
  | nil => exact .refl
  | cons marker markers ih =>
      rw [List.forall_mem_cons] at h
      exact (reduces_delete h.1 t).trans (ih h.2 _)

theorem reduces_round (t : Text) : Reduces t (round t) :=
  reduces_foldl_delete (fun _ h => h) t

theorem reduces_sanitize (t : Text) : Reduces t (sanitize t) := by
  fun_induction sanitize t with
  | case1 t _ => exact .refl
  | case2 t _ ih => exact (reduces_round t).trans ih

theorem Reduces.eq_of_not_holdsMarker {t t' : Text} (h : Reduces t t') (ht : ¬ HoldsMarker t) :
    t' = t := by
  rcases h.cases_head with heq | ⟨_, hstep, -⟩
  · exact heq.symm
  · exact absurd hstep.holdsMarker ht

theorem not_holdsMarker_sanitize (t : Text) : ¬ HoldsMarker (sanitize t) :=
  free_iff_not_holdsMarker.mp (free_sanitize t)

theorem sanitize_eq_self_iff {t : Text} : sanitize t = t ↔ ¬ HoldsMarker t := by
  constructor
  · intro h
    rw [← h]
    exact not_holdsMarker_sanitize t
  · exact (reduces_sanitize t).eq_of_not_holdsMarker

theorem exists_iterate_round_eq_sanitize (t : Text) :
    ∃ n, round^[n] t = sanitize t ∧
      ∀ k < n, (round^[k + 1] t).length < (round^[k] t).length := by
  fun_induction sanitize t with
  | case1 t _ => exact ⟨0, rfl, fun k hk => absurd hk (Nat.not_lt_zero k)⟩
  | case2 t hround ih =>
      obtain ⟨n, hlast, hshorter⟩ := ih
      refine ⟨n + 1, hlast, ?_⟩
      intro k hk
      cases k with
      | zero => exact length_round_lt hround
      | succ k => exact hshorter k (Nat.lt_of_succ_lt_succ hk)

/-- Finitely many rounds, each shorter than the one before, lead to a text that a further round
leaves alone.  It is a normal form of the text: deletions of one marker at a time lead to it and
none is left in it.  Nothing is deleted exactly where there was no marker. -/
theorem sanitize_is_normal_form (t : Text) :
    (∃ n, round^[n] t = sanitize t ∧ round^[n + 1] t = round^[n] t ∧
        ∀ k < n, (round^[k + 1] t).length < (round^[k] t).length) ∧
      ¬ HoldsMarker (sanitize t) ∧
      Reduces t (sanitize t) ∧
      (sanitize t = t ↔ ¬ HoldsMarker t) ∧
      sanitize (sanitize t) = sanitize t := by
  obtain ⟨n, hlast, hshorter⟩ := exists_iterate_round_eq_sanitize t
  have hfixed : round^[n + 1] t = round^[n] t := by
    rw [Function.iterate_succ_apply', hlast, round_sanitize]
  exact ⟨⟨n, hlast, hfixed, hshorter⟩, not_holdsMarker_sanitize t, reduces_sanitize t,
    sanitize_eq_self_iff, sanitize_sanitize t⟩

end Marker

end Stencil
