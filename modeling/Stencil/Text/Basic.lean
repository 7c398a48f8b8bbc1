namespace Stencil

/-- A text is the list of its code points. -/
abbrev Text := List Char

namespace Text

/-- The text behind a pattern that it begins with. -/
def after? : Text → Text → Option Text
  | [], t => some t
  | _ :: _, [] => none
  | p :: pattern, c :: t => if p = c then after? pattern t else none

theorem after?_eq_some_iff {pattern t rest : Text} :
    after? pattern t = some rest ↔ t = pattern ++ rest := by
  fun_induction after? pattern t with
  | case1 t => simp
  | case2 => simp
  | case3 pattern c t ih => simp [ih]
  | case4 p pattern c t h => simp [Ne.symm h]

/-- The text before and the text after the first place where the pattern stands. -/
def cut? (pattern : Text) : Text → Option (Text × Text)
  | [] => (after? pattern []).map ([], ·)
  | c :: t =>
      match after? pattern (c :: t) with
      | some rest => some ([], rest)
      | none => (cut? pattern t).map fun (before, rest) => (c :: before, rest)

theorem eq_of_cut? {pattern t before rest : Text} (h : cut? pattern t = some (before, rest)) :
    t = before ++ pattern ++ rest := by
  induction t generalizing before with
  | nil =>
      simp only [cut?, Option.map_eq_some_iff, Prod.mk.injEq] at h
      obtain ⟨r, hr, rfl, rfl⟩ := h
      simpa using after?_eq_some_iff.mp hr
  | cons c t ih =>
      rw [cut?] at h
      split at h
      next r hr =>
        simp only [Option.some.injEq, Prod.mk.injEq] at h
        obtain ⟨rfl, rfl⟩ := h
        simpa using after?_eq_some_iff.mp hr
      next =>
        simp only [Option.map_eq_some_iff, Prod.mk.injEq, Prod.exists] at h
        obtain ⟨b, r, hcut, rfl, rfl⟩ := h
        simp [ih hcut]

theorem length_of_cut? {pattern t before rest : Text} (h : cut? pattern t = some (before, rest)) :
    t.length = before.length + pattern.length + rest.length := by
  simp [eq_of_cut? h, Nat.add_assoc]

/-- Every occurrence of the pattern, leftmost first and without overlap, becomes the replacement. -/
def replaceAll (pattern replacement : Text) : Text → Text
  | [] => []
  | c :: t =>
      if pattern <+: c :: t then
        replacement ++ replaceAll pattern replacement (t.drop (pattern.length - 1))
      else
        c :: replaceAll pattern replacement t
termination_by t => t.length
decreasing_by
  · simp only [List.length_drop, List.length_cons]
    omega
  · simp

@[simp] theorem replaceAll_nil (pattern replacement : Text) :
    replaceAll pattern replacement [] = [] := by
  rw [replaceAll]

theorem replaceAll_of_not_infix {pattern t : Text} (replacement : Text) (h : ¬ pattern <:+: t) :
    replaceAll pattern replacement t = t := by
  induction t with
  | nil => simp
  | cons c t ih =>
      rw [replaceAll, if_neg fun hp => h hp.isInfix,
        ih fun ht => h (ht.trans (List.suffix_cons c t).isInfix)]

/-- The character lies in one of the runs, each given by its first and last code point. -/
def inRuns (runs : List (Nat × Nat)) (c : Char) : Bool :=
  runs.any fun (first, last) => first ≤ c.toNat && c.toNat ≤ last

end Text

end Stencil
