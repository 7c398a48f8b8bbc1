import Stencil.Placeholder.Basic

namespace Stencil

/-- The blanks that may be taken away inside delimiters. -/
def isInlineSpace (c : Char) : Bool :=
  c == ' ' || c == '\t'

theorem length_dropWhile_le (p : Char → Bool) (t : Text) :
    (t.dropWhile p).length ≤ t.length :=
  (List.dropWhile_sublist p).length_le

/-- Takes out the spaces and tabs behind the opening and before the closing delimiters of the text
as it stands, whether or not they enclose a placeholder.  Newlines stay. -/
def tighten : Text → Text
  | [] => []
  | c :: t =>
      match _h : Text.after? opening (c :: t) with
      | some rest => opening ++ tighten (rest.dropWhile isInlineSpace)
      | none =>
          if isInlineSpace c && (closing.isPrefixOf (t.dropWhile isInlineSpace)) then
            tighten t
          else
            c :: tighten t
termination_by t => t.length
decreasing_by
  · have hl := congrArg List.length (Text.after?_eq_some_iff.mp _h)
    have hd := length_dropWhile_le isInlineSpace rest
    simp only [opening, List.length_append, List.length_cons, List.length_nil] at hl ⊢
    omega
  all_goals simp

theorem tighten_sublist (t : Text) : (tighten t).Sublist t := by
  fun_induction tighten t with
  | case1 => exact List.Sublist.slnil
  | case2 c t rest h ih =>
      rw [Text.after?_eq_some_iff.mp h]
      exact (List.Sublist.refl _).append (ih.trans (List.dropWhile_sublist _))
  | case3 c t _ _ ih => exact ih.cons c
  | case4 c t _ _ ih => exact ih.cons_cons c

end Stencil
