import Stencil.Bindings
import Stencil.Value.Document

namespace Stencil

/-- The variables that expressions refer to, by name. -/
abbrev Scope := Bindings Value

/-- Why a text is no document of variables. -/
inductive DocumentError where
  | malformed
  /-- the text begins a document of another shape -/
  | shape
deriving DecidableEq, Repr

namespace Scope

/-- The variables of the scope that are named; others of the names are left out. -/
def restrict (scope : Scope) (names : List Text) : Scope :=
  Bindings.ofList (names.filterMap fun name => (scope.get? name).map (name, ·))

/-- Equality of scopes, whatever the order of their variables. -/
def same (scope scope' : Scope) : Bool :=
  scope.size == scope'.size && scope.entries.all fun (name, v) =>
    match scope'.get? name with
    | some v' => v.same v'
    | none => false

def ofMembers (members : List (Text × Json)) : Scope :=
  Bindings.ofList (members.map fun (name, j) => (name, Value.ofJson j))

/-- The scope that a JSON text spells.  Whatever begins a document other than an object is of the
wrong shape, whether or not the rest is good. -/
def parse (t : Text) : Except DocumentError Scope :=
  let tokens := Token.ofText t
  match tokens.head?.bind (Json.State.begin? []) with
  | none => .error .malformed
  | some (.member _) =>
      match Json.ofTokens? tokens with
      | some (.object members) => .ok (ofMembers members)
      | _ => .error .malformed
  | some _ => .error .shape

end Scope

end Stencil
