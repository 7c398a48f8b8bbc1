import Stencil.Value.Basic
import Stencil.Json.Reader
import Stencil.Json.Writer

namespace Stencil.Value

mutual
/-- The document of a value. -/
def toJson : Value → Json
  | .null => .null
  | .bool b => .bool b
  | .int n => .int n
  | .float x => .float x
  | .string t => .string t
  | .list items => .list (itemsToJson items)
  | .map entries => .object (entriesToJson entries)

def itemsToJson : List Value → List Json
  | [] => []
  | v :: items => v.toJson :: itemsToJson items

def entriesToJson : List (Text × Value) → List (Text × Json)
  | [] => []
  | (key, v) :: entries => (key, v.toJson) :: entriesToJson entries
end

mutual
/-- The value of a document; of the members under one key the last counts. -/
def ofJson : Json → Value
  | .null => .null
  | .bool b => .bool b
  | .int n => .int n
  | .float x => .float x
  | .string t => .string t
  | .list items => .list (itemsOfJson items)
  | .object members => .map (entriesOfJson members)

def itemsOfJson : List Json → List Value
  | [] => []
  | j :: items => ofJson j :: itemsOfJson items

def entriesOfJson : List (Text × Json) → List (Text × Value)
  | [] => []
  | (key, j) :: members => insertIfNew key (ofJson j) (entriesOfJson members)
end

def parse? (t : Text) : Option Value :=
  (Json.parse? t).map ofJson

/-- The JSON text of a value. -/
def json (v : Value) : Text :=
  v.toJson.compact

/-- The text of a value in a template: null and false are empty, true is a one, a string stands for
itself, and lists and maps show their JSON text. -/
def text : Value → Text
  | .null | .bool false => []
  | .bool true => ['1']
  | .int n => integerText n.toInt
  | .float x => x.shown
  | .string t => t
  | .list items => json (.list items)
  | .map entries => json (.map entries)

end Stencil.Value
