import Stencil.Json.Basic
import Stencil.Json.Token

namespace Stencil.Json

/-- How many lists and objects may be nested in each other. -/
def maxDepth : Nat := 127

/-- A list or object that is still open, with what has been read of it, the latest first. -/
inductive Frame where
  | list (items : List Json)
  | object (members : List (Text × Json)) (key : Text)

/-- What the reader expects next, under the lists and objects that enclose it. -/
inductive State where
  | value (frames : List Frame)
  /-- a value or the end of the list that has just been opened -/
  | item (frames : List Frame)
  /-- a key or the end of the object that has just been opened -/
  | member (frames : List Frame)
  | key (members : List (Text × Json)) (frames : List Frame)
  | colon (members : List (Text × Json)) (key : Text) (frames : List Frame)
  /-- what may follow a complete value -/
  | rest (j : Json) (frames : List Frame)

/-- A whole number, as a binary number when it does not fit 64 bits. -/
def ofInt (n : Int) : Json :=
  match toInt64? n with
  | some n => .int n
  | none => .float (Binary64.ofDecimal (n < 0) n.natAbs 0)

def ofToken? : Token → Option Json
  | .null => some .null
  | .bool b => some (.bool b)
  | .int n => some (ofInt n)
  | .float x => some (.float x)
  | .string t => some (.string t)
  | _ => none

/-- The state behind the first token of a value. -/
def State.begin? (frames : List Frame) : Token → Option State
  | .openList => if frames.length < maxDepth then some (.item frames) else none
  | .openObject => if frames.length < maxDepth then some (.member frames) else none
  | token => (ofToken? token).map (.rest · frames)

/-- The state behind one more token, if the token may stand there. -/
def State.step? : State → Token → Option State
  | .value frames, token => begin? frames token
  | .item frames, .closeList => some (.rest (.list []) frames)
  | .item frames, token => begin? (.list [] :: frames) token
  | .member frames, .closeObject => some (.rest (.object []) frames)
  | .member frames, .string k => some (.colon [] k frames)
  | .key members frames, .string k => some (.colon members k frames)
  | .colon members k frames, .colon => some (.value (.object members k :: frames))
  | .rest j (.list items :: frames), .comma => some (.value (.list (j :: items) :: frames))
  | .rest j (.list items :: frames), .closeList =>
      some (.rest (.list (j :: items).reverse) frames)
  | .rest j (.object members k :: frames), .comma => some (.key ((k, j) :: members) frames)
  | .rest j (.object members k :: frames), .closeObject =>
      some (.rest (.object ((k, j) :: members).reverse) frames)
  | _, _ => none

def State.run? : State → List Token → Option State
  | s, [] => some s
  | s, token :: tokens => (s.step? token).bind (run? · tokens)

/-- The document that was read, when no list and no object is open. -/
def State.document? : State → Option Json
  | .rest j [] => some j
  | _ => none

/-- The document of a list of tokens. -/
def ofTokens? (tokens : List Token) : Option Json :=
  ((State.value []).run? tokens).bind State.document?

def parse? (t : Text) : Option Json :=
  ofTokens? (Token.ofText t)

end Stencil.Json
