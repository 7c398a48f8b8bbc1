import Stencil.Expression.Parser
import Stencil.Key
import Stencil.Text.Blank

namespace Stencil

theorem isName_of_isKey {k : Text} (h : isKey k) : isName k := by
  cases k with
  | nil => simp [isKey] at h
  | cons c k =>
      simp only [isKey, isName, isKeyStart, isKeyPart, isNameStart, isNamePart,
        Bool.and_eq_true, Bool.or_eq_true, List.all_eq_true] at h ⊢
      exact ⟨Or.inl h.1, fun d hd => Or.inl (h.2 d hd)⟩

theorem notMem_of_isKey {k : Text} (h : isKey k) {c : Char} (hc : isKeyPart c = false) :
    c ∉ k := by
  intro hmem
  have hpart := isKeyPart_of_mem h hmem
  rw [hc] at hpart
  exact Bool.false_ne_true hpart

theorem isKeyPart_bounds {c : Char} (h : isKeyPart c) : 48 ≤ c.toNat ∧ c.toNat ≤ 122 := by
  -- The letters and digits as code points.
  change (decide (65 ≤ c.toNat ∧ c.toNat ≤ 90) ||
    (decide (97 ≤ c.toNat) && decide (c.toNat ≤ 122)) ||
    (decide (48 ≤ c.toNat) && decide (c.toNat ≤ 57)) || c == '_') = true at h
  simp only [Bool.or_eq_true, Bool.and_eq_true, decide_eq_true_eq, beq_iff_eq] at h
  rcases h with ((h | h) | h) | rfl
  · omega
  · omega
  · omega
  · decide

theorem isKey_iff_of_isName {k : Text} (h : isName k) : isKey k ↔ ∀ c ∈ k, c.toNat < 128 := by
  constructor
  · intro hkey c hc
    have hbounds := isKeyPart_bounds (isKeyPart_of_mem hkey hc)
    omega
  · intro hascii
    cases k with
    | nil => simp [isName] at h
    | cons c k =>
        obtain ⟨hc, hk⟩ := List.forall_mem_cons.mp hascii
        simp only [isName, isKey, isNameStart, isKeyStart, isNamePart, isKeyPart,
          Bool.and_eq_true, Bool.or_eq_true, List.all_eq_true, decide_eq_true_eq] at h ⊢
        refine ⟨h.1.resolve_right (by omega), fun d hd => (h.2 d hd).resolve_right ?_⟩
        have := hk d hd
        omega

theorem isBlank_eq_false_of_isKeyPart {c : Char} (h : isKeyPart c) : Text.isBlank c = false := by
  have hbounds := isKeyPart_bounds h
  have hblank : ∀ run ∈ Text.blankRuns, ¬ (run.1 ≤ c.toNat ∧ c.toNat ≤ run.2) := by
    intro run hrun
    have hapart : ∀ run ∈ Text.blankRuns, run.2 < 48 ∨ 122 < run.1 := by decide
    have hrun' := hapart run hrun
    omega
  simpa [Text.isBlank, Text.inRuns] using hblank

end Stencil
