import Stencil.Proofs.Text.Occurrence

/-!
Replacing several patterns at once.  The text is read once, and what is put in is not read again.
Replacing the patterns one after the other comes to the same when they do not overlap and no pattern
stands in the filled text more often than before.
-/

namespace Stencil.Text

/-- The text with every pattern of the table replaced, in one scan from the left.  Of patterns that
begin at one place the first in the table counts. -/
def replaceEach (table : List (Text × Text)) : Text → Text
  | [] => []
  | c :: t =>
      match table.find? fun e => e.1 <+: c :: t with
      | some (pattern, value) => value ++ replaceEach table (t.drop (pattern.length - 1))
      | none => c :: replaceEach table t
termination_by t => t.length
decreasing_by
  · simp only [List.length_drop, List.length_cons]
    omega
  · simp

/-- No pattern of the table begins inside one of them, be it another or the same. -/
structure NoOverlap (table : List (Text × Text)) : Prop where
  ne_nil : ∀ e ∈ table, e.1 ≠ []
  tail : ∀ e ∈ table, Skips e.1 e.1.tail
  pairwise : table.Pairwise fun e e' => Skips e.1 e'.1 ∧ Skips e'.1 e.1

variable {table : List (Text × Text)} {pattern value front t : Text} {c : Char}

theorem replaceEach_cons_of_none (h : ∀ e ∈ table, ¬ e.1 <+: c :: t) :
    replaceEach table (c :: t) = c :: replaceEach table t := by
  have hfind : table.find? (fun e => e.1 <+: c :: t) = none := by simpa using h
  rw [replaceEach, hfind]

theorem replaceEach_append_of_find? (hne : pattern ≠ [])
    (h : table.find? (fun e => e.1 <+: pattern ++ t) = some (pattern, value)) :
    replaceEach table (pattern ++ t) = value ++ replaceEach table t := by
  obtain ⟨p, pattern, rfl⟩ := List.exists_cons_of_ne_nil hne
  rw [List.cons_append] at h ⊢
  rw [replaceEach, h]
  simp

theorem replaceEach_nil_table (t : Text) : replaceEach [] t = t := by
  induction t with
  | nil => rw [replaceEach]
  | cons c t ih => rw [replaceEach_cons_of_none (by simp), ih]

theorem replaceEach_append_of_skips (h : ∀ e ∈ table, Skips e.1 front) (t : Text) :
    replaceEach table (front ++ t) = front ++ replaceEach table t := by
  induction front with
  | nil => rfl
  | cons c front ih =>
      rw [List.cons_append, replaceEach_cons_of_none fun e he => (h e he).1 t,
        ih fun e he => (h e he).2, List.cons_append]

/-- Induction along the scan: over the patterns that are replaced and the characters that stay. -/
theorem fillInduction {motive : Text → Prop} (hne : ∀ e ∈ table, e.1 ≠ []) (nil : motive [])
    (fill : ∀ e ∈ table, ∀ t, table.find? (fun e' => e'.1 <+: e.1 ++ t) = some e → motive t →
      motive (e.1 ++ t))
    (keep : ∀ c t, (∀ e ∈ table, ¬ e.1 <+: c :: t) → motive t → motive (c :: t)) (t : Text) :
    motive t := by
  fun_induction replaceEach table t with
  | case1 => exact nil
  | case2 c t pattern value hfind ih =>
      have hmem := List.mem_of_find?_eq_some hfind
      have hstarts : pattern <+: c :: t := by simpa using List.find?_some hfind
      obtain ⟨p, pattern, rfl⟩ := List.exists_cons_of_ne_nil (hne _ hmem)
      obtain ⟨rest, rfl, rfl, hdrop⟩ := exists_drop_of_isPrefix hstarts
      rw [hdrop] at ih
      exact fill _ hmem rest hfind ih
  | case3 c t hfind ih => exact keep c t (by simpa using hfind) ih

theorem occurrences_le_replaceEach (hne : ∀ e ∈ table, e.1 ≠ [])
    (h : ∀ e ∈ table, Skips e.1 pattern ∧ Skips pattern e.1) (t : Text) :
    occurrences pattern t ≤ occurrences pattern (replaceEach table t) := by
  induction t using fillInduction hne with
  | nil => exact Nat.zero_le _
  | fill e he t hfind ih =>
      rw [replaceEach_append_of_find? (hne e he) hfind,
        occurrences_append_of_passes ((h e he).2.passes t)]
      exact Nat.le_trans ih (occurrences_le_append pattern _ _)
  | keep c t hnot ih =>
      have hfill := replaceEach_cons_of_none hnot
      have hkeeps : pattern <+: c :: t → pattern <+: c :: replaceEach table t := by
        rintro ⟨rest, hrest⟩
        rw [← hfill, ← hrest, replaceEach_append_of_skips fun e he => (h e he).1]
        exact List.prefix_append _ _
      rw [hfill, occurrences, occurrences]
      split
      next hstarts => rw [if_pos (hkeeps hstarts)]; omega
      next => omega

theorem occurrences_pattern_append {p : Char} (h : Skips (p :: pattern) pattern) (t : Text) :
    occurrences (p :: pattern) (p :: pattern ++ t) = occurrences (p :: pattern) t + 1 := by
  rw [List.cons_append, occurrences, if_pos ⟨t, rfl⟩,
    occurrences_append_of_passes (h.passes t), Nat.add_comm]

/-- Where there are no more occurrences to spare, a value that is put in adds none, and behind it
there are none to spare either. -/
theorem passes_value_of_find? (hne : ∀ e ∈ table, e.1 ≠ [])
    (h : ∀ e ∈ table, Skips e.1 pattern ∧ Skips pattern e.1) {e : Text × Text} (he : e ∈ table)
    (hfind : table.find? (fun e' => e'.1 <+: e.1 ++ t) = some e)
    (hcount : occurrences pattern (replaceEach table (e.1 ++ t)) ≤
      occurrences pattern (e.1 ++ t)) :
    Passes pattern e.2 (replaceEach table t) ∧
      occurrences pattern (replaceEach table t) ≤ occurrences pattern t := by
  rw [replaceEach_append_of_find? (hne e he) hfind,
    occurrences_append_of_passes ((h e he).2.passes t)] at hcount
  have hvalue : Passes pattern e.2 (replaceEach table t) :=
    passes_of_occurrences_append_le (Nat.le_trans hcount (occurrences_le_replaceEach hne h t))
  rw [occurrences_append_of_passes hvalue] at hcount
  exact ⟨hvalue, hcount⟩

/-- Where a further pattern stands in the filled text no more often than before, replacing it there
is filling it along with the others. -/
theorem replaceAll_replaceEach {p : Char} (hne : ∀ e ∈ table, e.1 ≠ [])
    (h : ∀ e ∈ table, Skips e.1 (p :: pattern) ∧ Skips (p :: pattern) e.1)
    (hself : Skips (p :: pattern) pattern) (value : Text)
    (hcount : occurrences (p :: pattern) (replaceEach table t) ≤ occurrences (p :: pattern) t) :
    replaceAll (p :: pattern) value (replaceEach table t) =
      replaceEach (table ++ [(p :: pattern, value)]) t := by
  have hne' : ∀ e ∈ table ++ [(p :: pattern, value)], e.1 ≠ [] := by
    intro e he
    rcases List.mem_append.mp he with he | he
    · exact hne e he
    · exact List.mem_singleton.mp he ▸ List.cons_ne_nil p pattern
  induction t using fillInduction hne' with
  | nil => rw [replaceEach, replaceEach, replaceAll_nil]
  | fill e he t hfind ih =>
      rw [replaceEach_append_of_find? (hne' e he) hfind]
      rw [List.find?_append] at hfind
      cases htable : table.find? fun e' => e'.1 <+: e.1 ++ t with
      | some e' =>
          obtain rfl : e' = e := by simpa [htable] using hfind
          have he := List.mem_of_find?_eq_some htable
          obtain ⟨hvalue, hrest⟩ := passes_value_of_find? hne h he htable hcount
          rw [replaceEach_append_of_find? (hne e' he) htable, replaceAll_append_of_passes hvalue,
            ih hrest]
      | none =>
          have hnot : ∀ e' ∈ table, ¬ e'.1 <+: e.1 ++ t := by simpa using htable
          obtain rfl : e = (p :: pattern, value) := by
            rcases List.mem_append.mp he with he | he
            · exact absurd (List.prefix_append _ _) (hnot e he)
            · exact List.mem_singleton.mp he
          have hkept := replaceEach_append_of_skips (fun e he => (h e he).1) t
          rw [hkept, occurrences_pattern_append hself, occurrences_pattern_append hself] at hcount
          rw [hkept, replaceAll_pattern_append, ih (Nat.le_of_add_le_add_right hcount)]
  | keep c t hnot ih =>
      have hle := occurrences_le_replaceEach hne h t
      have hkept : replaceEach table (c :: t) = c :: replaceEach table t :=
        replaceEach_cons_of_none fun e he => hnot e (List.mem_append_left _ he)
      have hnone : ¬ p :: pattern <+: c :: t := hnot (p :: pattern, value) (by simp)
      rw [hkept, occurrences, occurrences, if_neg hnone] at hcount
      split at hcount
      next => omega
      next hstarts =>
        rw [hkept, replaceAll_cons_of_not_isPrefix hstarts, ih (by omega),
          replaceEach_cons_of_none hnot]

theorem NoOverlap.sublist {table' : List (Text × Text)} (h : NoOverlap table)
    (hsub : table'.Sublist table) : NoOverlap table' :=
  ⟨fun e he => h.ne_nil e (hsub.subset he), fun e he => h.tail e (hsub.subset he),
    h.pairwise.sublist hsub⟩

/-- Filling never brings in a later pattern of the table: no pattern stands in the text more often
when those before it are filled. -/
def Undisturbed (table : List (Text × Text)) (t : Text) : Prop :=
  ∀ n (h : n < table.length),
    occurrences table[n].1 (replaceEach (table.take n) t) ≤ occurrences table[n].1 t

instance (table : List (Text × Text)) (t : Text) : Decidable (Undisturbed table t) :=
  inferInstanceAs (Decidable (∀ n (h : n < table.length),
    occurrences table[n].1 (replaceEach (table.take n) t) ≤ occurrences table[n].1 t))

theorem Undisturbed.foldl_replaceAll {done todo : List (Text × Text)}
    (h : Undisturbed (done ++ todo) t) (hoverlap : NoOverlap (done ++ todo)) :
    todo.foldl (fun t e => replaceAll e.1 e.2 t) (replaceEach done t) =
      replaceEach (done ++ todo) t := by
  induction todo generalizing done with
  | nil => simp
  | cons e todo ih =>
      obtain ⟨pattern, value⟩ := e
      have hparts : done ++ (pattern, value) :: todo = done ++ [(pattern, value)] ++ todo := by simp
      have hdone : NoOverlap done := hoverlap.sublist (List.sublist_append_left _ _)
      have hapart : ∀ e ∈ done, Skips e.1 pattern ∧ Skips pattern e.1 := by
        intro e he
        exact (List.pairwise_append.mp hoverlap.pairwise).2.2 e he (pattern, value) (by simp)
      have hself : Skips pattern pattern.tail := hoverlap.tail (pattern, value) (by simp)
      have hcount : occurrences pattern (replaceEach done t) ≤ occurrences pattern t := by
        simpa using h done.length (by simp)
      obtain ⟨p, pattern, rfl⟩ :=
        List.exists_cons_of_ne_nil (hoverlap.ne_nil (pattern, value) (by simp))
      rw [List.foldl_cons, replaceAll_replaceEach hdone.ne_nil hapart hself value hcount, hparts]
      rw [hparts] at h hoverlap
      exact ih h hoverlap

end Stencil.Text
