import Mathlib.Data.List.Induction
import Stencil.Text.Position

namespace Stencil

namespace Text

/-- The text behind the last newline. -/
def lastLine (t : Text) : Text :=
  (t.reverse.takeWhile (· != '\n')).reverse

/-- The place behind the text, by its newlines and the bytes of its last line. -/
def endPosition (t : Text) : Position :=
  ⟨t.count '\n' + 1, t.lastLine.utf8Size + 1⟩

theorem lastLine_concat_newline (t : Text) : lastLine (t ++ ['\n']) = [] := by
  simp [lastLine]

theorem lastLine_concat_of_ne {c : Char} (hc : c ≠ '\n') (t : Text) :
    lastLine (t ++ [c]) = lastLine t ++ [c] := by
  simp [lastLine, hc]

end Text

namespace Position

theorem behind_eq_endPosition (t : Text) : behind t = t.endPosition := by
  induction t using List.reverseRecOn with
  | nil => rfl
  | append_singleton t c ih =>
      rw [behind_append_singleton, ih, advance, Text.endPosition, Text.endPosition]
      split
      next hc => simp [hc, Text.lastLine_concat_newline]
      next hc =>
        have hcount : (t ++ [c]).count '\n' = t.count '\n' := by
          rw [List.count_append, List.count_cons_of_ne hc, List.count_nil, Nat.add_zero]
        simp only [hcount, Text.lastLine_concat_of_ne hc, Text.utf8Size_append,
          Text.utf8Size_cons, Text.utf8Size_nil, Nat.add_zero, Nat.add_right_comm]

example : behind "é\nßx".toList = ⟨2, 4⟩ := by decide

end Position

end Stencil
