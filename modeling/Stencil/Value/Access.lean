import Stencil.Value.Basic
import Stencil.Expression.Basic

namespace Stencil.Value

/-- What stands at a position of a list, or which character at a position of a string; no negative
position fits. -/
def at? : Value → Int → Option Value
  | .list items, .ofNat i => items[i]?
  | .string t, .ofNat i => t[i]?.map fun c => .string [c]
  | _, _ => none

/-- What a position leads to: an element, or the entry of a map whose key is its decimal text. -/
def index? (v : Value) (position : Int64) : Option Value :=
  match v with
  | .map entries => entries.lookup (integerText position.toInt)
  | v => v.at? position.toInt

/-- What a key leads to: an entry of a map, or the element whose position the key spells. -/
def member? (v : Value) (key : Text) : Option Value :=
  match v with
  | .map entries => entries.lookup key
  | v => (readInteger? key).bind fun position => v.at? position.toInt

/-- What one accessor leads to. -/
def access? (v : Value) : Accessor → Option Value
  | .index position => v.index? position
  | .key key | .property key => v.member? key

/-- What accessors lead to, one after the other. -/
def follow? (v : Value) : List Accessor → Option Value
  | [] => some v
  | a :: accessors => (v.access? a).bind (follow? · accessors)

end Stencil.Value
