import Stencil.Proofs.Text.Search

namespace Stencil.Text

/-- At how many places of the text the pattern stands. -/
def occurrences (pattern : Text) : Text → Nat
  | [] => 0
  | c :: t => (if pattern <+: c :: t then 1 else 0) + occurrences pattern t

/-- Whatever occurrence of the pattern begins in front of the seam ends there too. -/
def Parted (pattern : Text) : Text → Text → Prop
  | [], _ => True
  | c :: front, back =>
      (pattern <+: c :: (front ++ back) → pattern <+: c :: front) ∧ Parted pattern front back

theorem occurrences_le_append (pattern front back : Text) :
    occurrences pattern back ≤ occurrences pattern (front ++ back) := by
  induction front with
  | nil => exact Nat.le_refl _
  | cons c front ih => exact Nat.le_add_left_of_le ih

theorem occurrences_append_of_passes {pattern front back : Text} (h : Passes pattern front back) :
    occurrences pattern (front ++ back) = occurrences pattern back := by
  induction front with
  | nil => rfl
  | cons c front ih => rw [List.cons_append, occurrences, if_neg h.1, ih h.2, Nat.zero_add]

theorem passes_of_occurrences_append_le {pattern front back : Text}
    (h : occurrences pattern (front ++ back) ≤ occurrences pattern back) :
    Passes pattern front back := by
  induction front with
  | nil => trivial
  | cons c front ih =>
      have hle := occurrences_le_append pattern front back
      rw [List.cons_append, occurrences] at h
      split at h
      next => omega
      next hstarts => exact ⟨hstarts, ih (by omega)⟩

theorem occurrences_eq_zero_iff {p : Char} {pattern t : Text} :
    occurrences (p :: pattern) t = 0 ↔ ¬ p :: pattern <:+: t := by
  induction t with
  | nil => simp [occurrences]
  | cons c t ih =>
      rw [occurrences, Nat.add_eq_zero_iff, ih, List.infix_cons_iff, not_or]
      simp

theorem exists_first_of_occurrences_pos {pattern t : Text} (hne : pattern ≠ [])
    (h : 0 < occurrences pattern t) :
    ∃ front back, t = front ++ (pattern ++ back) ∧ occurrences pattern front = 0 := by
  obtain ⟨p, pattern, rfl⟩ := List.exists_cons_of_ne_nil hne
  have hfound : cut? (p :: pattern) t ≠ none := fun hnone =>
    Nat.ne_of_gt h (occurrences_eq_zero_iff.mpr (cut?_eq_none_iff.mp hnone))
  obtain ⟨⟨front, back⟩, hcut⟩ := Option.ne_none_iff_exists'.mp hfound
  obtain ⟨rfl, hpasses⟩ := cut?_eq_some_iff.mp hcut
  exact ⟨front, back, rfl, occurrences_eq_zero_iff.mpr hpasses.not_isInfix⟩

theorem occurrences_self {p : Char} {pattern : Text} (h : p ∉ pattern) :
    occurrences (p :: pattern) (p :: pattern) = 1 := by
  have hnone : ¬ p :: pattern <:+: pattern := (skips_of_notMem pattern h).not_isInfix
  rw [occurrences, if_pos List.prefix_rfl, occurrences_eq_zero_iff.mpr hnone]

namespace Parted

variable {pattern front back : Text}

theorem drop (h : Parted pattern front back) (n : Nat) : Parted pattern (front.drop n) back := by
  induction n generalizing front with
  | zero => exact h
  | succ n ih =>
      cases front with
      | nil => trivial
      | cons c front => exact ih h.2

theorem prefix_iff {c : Char} (h : Parted pattern (c :: front) back) :
    pattern <+: c :: (front ++ back) ↔ pattern <+: c :: front :=
  ⟨h.1, fun hstarts => hstarts.trans (List.prefix_append (c :: front) back)⟩

theorem occurrences_append (h : Parted pattern front back) :
    occurrences pattern (front ++ back) = occurrences pattern front + occurrences pattern back := by
  induction front with
  | nil => exact (Nat.zero_add _).symm
  | cons c front ih =>
      rw [List.cons_append, occurrences, occurrences, ih h.2, Nat.add_assoc]
      simp only [h.prefix_iff]

theorem passes (h : Parted pattern front back) (hnone : occurrences pattern front = 0) :
    Passes pattern front back := by
  apply passes_of_occurrences_append_le
  rw [h.occurrences_append, hnone]
  exact Nat.le_of_eq (Nat.zero_add _)

theorem replaceAll_append (h : Parted pattern front back) (replacement : Text) :
    replaceAll pattern replacement (front ++ back) =
      replaceAll pattern replacement front ++ replaceAll pattern replacement back := by
  fun_induction replaceAll pattern replacement front with
  | case1 => rfl
  | case2 c front hstarts ih =>
      have hlength := hstarts.length_le
      rw [List.length_cons] at hlength
      have hdrop : (front ++ back).drop (pattern.length - 1) =
          front.drop (pattern.length - 1) ++ back :=
        List.drop_append_of_le_length (by omega)
      rw [List.cons_append, replaceAll, if_pos (h.prefix_iff.mpr hstarts), hdrop,
        ih (h.2.drop _), List.append_assoc]
  | case3 c front hstarts ih =>
      rw [List.cons_append, replaceAll_cons_of_not_isPrefix (mt h.prefix_iff.mp hstarts), ih h.2,
        List.cons_append]

end Parted

theorem isPrefix_of_isPrefix_append_cons {p : Char} {pattern front back : Text} (h : p ∉ pattern)
    (hstarts : pattern <+: front ++ p :: back) : pattern <+: front := by
  rcases List.prefix_or_prefix_of_prefix hstarts (List.prefix_append front (p :: back)) with
    hshort | ⟨rest, rfl⟩
  · exact hshort
  · rw [List.prefix_append_right_inj] at hstarts
    cases rest with
    | nil => simp
    | cons c rest =>
        obtain ⟨rfl, -⟩ := List.cons_prefix_cons.mp hstarts
        simp at h

theorem parted_cons {p : Char} {pattern : Text} (h : p ∉ pattern) (front back : Text) :
    Parted (p :: pattern) front (p :: back) := by
  induction front with
  | nil => trivial
  | cons c front ih =>
      refine ⟨?_, ih⟩
      intro hstarts
      obtain ⟨rfl, hrest⟩ := List.cons_prefix_cons.mp hstarts
      exact List.cons_prefix_cons.mpr ⟨rfl, isPrefix_of_isPrefix_append_cons h hrest⟩

theorem passes_of_not_isInfix {p : Char} {pattern front : Text} (hp : p ∉ pattern)
    (h : ¬ p :: pattern <:+: front) (back : Text) :
    Passes (p :: pattern) front (p :: pattern ++ back) :=
  (parted_cons hp front _).passes (occurrences_eq_zero_iff.mpr h)

theorem parted_concat {q : Char} {pattern : Text} (h : q ∉ pattern) (front back : Text) :
    Parted (pattern ++ [q]) (front ++ [q]) back := by
  have hends (front : Text) (hstarts : pattern ++ [q] <+: front ++ [q] ++ back) :
      pattern ++ [q] <+: front ++ [q] := by
    induction pattern generalizing front with
    | nil =>
        cases front with
        | nil => exact List.prefix_rfl
        | cons c front => exact (List.cons_prefix_cons.mp hstarts).1 ▸ List.prefix_append [q] _
    | cons p pattern ih =>
        simp only [List.mem_cons, not_or] at h
        cases front with
        | nil => exact absurd (List.cons_prefix_cons.mp hstarts).1.symm h.1
        | cons c front =>
            obtain ⟨rfl, hrest⟩ := List.cons_prefix_cons.mp hstarts
            exact List.cons_prefix_cons.mpr ⟨rfl, ih h.2 front hrest⟩
  induction front with
  | nil => exact ⟨hends [], trivial⟩
  | cons c front ih => exact ⟨hends (c :: front), ih⟩

end Stencil.Text
