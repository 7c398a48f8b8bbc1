import Stencil.Number.Integer

namespace Stencil

/-- One step from a value to a value inside it. -/
inductive Accessor where
  | index (position : Int64)
  | key (name : Text)
  | property (name : Text)
deriving DecidableEq, Repr

/-- A reference to a variable and the accessors that lead on from its value, left to right. -/
structure Expression where
  name : Text
  accessors : List Accessor
deriving DecidableEq, Repr

/-- Quotes a key; the double quote is used only for a key that holds a single one. -/
def quoteKey (k : Text) : Text :=
  if '\'' ∈ k then ['"'] ++ k ++ ['"'] else ['\''] ++ k ++ ['\'']

/-- The canonical text of an accessor: a key that holds a single quote stands in double ones. -/
def Accessor.render : Accessor → Text
  | .index n => ['['] ++ integerText n.toInt ++ [']']
  | .key k => ['['] ++ quoteKey k ++ [']']
  | .property name => ['-', '>'] ++ name

/-- The canonical text of an expression. -/
def Expression.render (e : Expression) : Text :=
  '$' :: e.name ++ e.accessors.flatMap Accessor.render

end Stencil
