import Stencil.Expression.Parser
import Stencil.Placeholder.Basic

/-!
Programs: what a staged text is read as.  Any text is a program: a call of an output function on an
expression is taken wherever one begins, and all else is literal.
-/

namespace Stencil

/-- A part of a program: text to copy, or a call of an output function. -/
inductive Segment where
  | literal (text : Text)
  | call (function : Text) (expression : Expression)
deriving DecidableEq, Repr

/-- A text cut into what is copied and what is called. -/
abbrev Program := List Segment

namespace Segment

/-- The call at the head of a text and the rest; nothing in it is padded. -/
def call? (t : Text) : Option (Segment × Text) := do
  let t ← Text.after? opening t
  let (function, t) ← name? t
  let t ← Text.after? ['('] t
  let (expression, t) ← Expression.head? t
  let rest ← Text.after? (')' :: closing) t
  some (.call function expression, rest)

theorem length_lt_of_call? {t rest : Text} {s : Segment} (h : call? t = some (s, rest)) :
    rest.length < t.length := by
  simp only [call?, Option.bind_eq_bind, Option.bind_eq_some_iff, Prod.exists, Option.some.injEq,
    Prod.mk.injEq] at h
  obtain ⟨t₁, h₁, f, t₂, h₂, t₃, h₃, e, t₄, h₄, r, h₅, _, rfl⟩ := h
  have hle := (Expression.suffix_of_head? h₄).length_le
  rw [Text.after?_eq_some_iff] at h₁ h₃ h₅
  rw [h₁, eq_of_name? h₂, h₃]
  simp only [h₅, opening, closing, List.length_append, List.length_cons, List.length_nil] at hle ⊢
  omega

end Segment

namespace Program

/-- The program with one more character to copy in front. -/
def consPlain (c : Char) : Program → Program
  | .literal text :: p => .literal (c :: text) :: p
  | p => .literal [c] :: p

/-- The program that a text is; adjacent characters outside calls share one literal. -/
def parse : Text → Program
  | [] => []
  | c :: t =>
      match _h : Segment.call? (c :: t) with
      | some (call, rest) => call :: parse rest
      | none => consPlain c (parse t)
termination_by t => t.length
decreasing_by
  · exact Segment.length_lt_of_call? _h
  · simp

end Program

end Stencil
