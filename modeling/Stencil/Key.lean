import Stencil.Text.Basic

namespace Stencil

def isKeyStart (c : Char) : Bool :=
  c.isAlpha || c == '_'

def isKeyPart (c : Char) : Bool :=
  c.isAlphanum || c == '_'

/-- A key is an ASCII letter or underscore followed by ASCII letters, digits and underscores. -/
def isKey : Text → Bool
  | [] => false
  | c :: t => isKeyStart c && t.all isKeyPart

theorem isKeyPart_of_isKeyStart {c : Char} (h : isKeyStart c) : isKeyPart c := by
  simp only [isKeyStart, isKeyPart, Char.isAlphanum, Bool.or_eq_true] at h ⊢
  exact h.imp_left Or.inl

theorem isKeyPart_of_mem {k : Text} {c : Char} (hk : isKey k) (hc : c ∈ k) : isKeyPart c := by
  cases k with
  | nil => simp at hc
  | cons d t =>
      simp only [isKey, Bool.and_eq_true, List.all_eq_true] at hk
      rcases List.mem_cons.mp hc with rfl | hc
      · exact isKeyPart_of_isKeyStart hk.1
      · exact hk.2 c hc

end Stencil
