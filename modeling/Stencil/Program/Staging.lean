import Stencil.Program.Basic
import Stencil.Text.Blank
import Stencil.Warning

namespace Stencil

/-- The call of a function on an expression, as a placeholder. -/
def callText (function : Text) (e : Expression) : Text :=
  delimited (function ++ ['('] ++ e.render ++ [')'])

/-- The expression that the inner text of a placeholder is, blanks around it aside. -/
def staged? (inner : Text) : Option Expression :=
  (Expression.parse (Text.trim inner)).toOption

/-- What stands for a placeholder after staging. -/
def stageInner (function : Text) (inner : Text) : Text :=
  match staged? inner with
  | some e => callText function e
  | none => []

/-- The text with the placeholders that are expressions made calls, and the others taken out. -/
def stage (function : Text) (t : Text) : Text :=
  replacePlaceholders (stageInner function) t

/-- The warnings about the placeholders that staging takes out, one for each of them. -/
def rejections (t : Text) : List Warning :=
  (inners t).filterMap fun inner =>
    if (staged? inner).isSome then none else some (.rejectedPlaceholder (delimited inner))

end Stencil
