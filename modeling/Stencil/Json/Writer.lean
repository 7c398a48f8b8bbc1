import Stencil.Json.Basic
import Stencil.Json.Token

namespace Stencil

def hexDigit (n : Nat) : Char :=
  if n < 10 then Char.ofNat ('0'.toNat + n) else Char.ofNat ('a'.toNat + (n - 10))

/-- A character inside quotes: quotes, backslashes and control characters are escaped. -/
def escapeChar (c : Char) : Text :=
  match c with
  | '"' => ['\\', '"']
  | '\\' => ['\\', '\\']
  | '\x08' => ['\\', 'b']
  | '\t' => ['\\', 't']
  | '\n' => ['\\', 'n']
  | '\x0C' => ['\\', 'f']
  | '\r' => ['\\', 'r']
  | c =>
      if c.toNat < 0x20 then
        ['\\', 'u', '0', '0', hexDigit (c.toNat / 16), hexDigit (c.toNat % 16)]
      else
        [c]

/-- A text between quotes. -/
def quote (t : Text) : Text :=
  '"' :: t.flatMap escapeChar ++ ['"']

namespace Token

/-- The text of a token; `invalid` has none. -/
def text : Token → Text
  | .openList => ['[']
  | .closeList => [']']
  | .openObject => ['\x7b']
  | .closeObject => ['\x7d']
  | .comma => [',']
  | .colon => [':']
  | .null => "null".toList
  | .bool true => "true".toList
  | .bool false => "false".toList
  | .int n => integerText n
  | .float x => x.json
  | .string t => quote t
  | .invalid => []

end Token

namespace Json

mutual
/-- The tokens of a document; a number that is not finite is written as null. -/
def tokens : Json → List Token
  | .null => [.null]
  | .bool b => [.bool b]
  | .int n => [.int n.toInt]
  | .float x => [if x.isFinite then .float x else .null]
  | .string t => [.string t]
  | .list [] => [.openList, .closeList]
  | .list (j :: items) => .openList :: j.tokens ++ laterItems items ++ [.closeList]
  | .object [] => [.openObject, .closeObject]
  | .object ((key, j) :: members) =>
      .openObject :: .string key :: .colon :: j.tokens ++ laterMembers members ++ [.closeObject]

/-- The tokens of the items of a list behind the first one. -/
def laterItems : List Json → List Token
  | [] => []
  | j :: items => .comma :: j.tokens ++ laterItems items

/-- The tokens of the members of an object behind the first one. -/
def laterMembers : List (Text × Json) → List Token
  | [] => []
  | (key, j) :: members => .comma :: .string key :: .colon :: j.tokens ++ laterMembers members
end

theorem tokens_list_cons (j : Json) (items : List Json) :
    (list (j :: items)).tokens = .openList :: j.tokens ++ laterItems items ++ [.closeList] := rfl

theorem tokens_object_cons (key : Text) (j : Json) (members : List (Text × Json)) :
    (object ((key, j) :: members)).tokens =
      .openObject :: .string key :: .colon :: j.tokens ++ laterMembers members ++
        [.closeObject] := rfl

theorem laterItems_cons (j : Json) (items : List Json) :
    laterItems (j :: items) = .comma :: j.tokens ++ laterItems items := rfl

theorem laterMembers_cons (key : Text) (j : Json) (members : List (Text × Json)) :
    laterMembers ((key, j) :: members) =
      .comma :: .string key :: .colon :: j.tokens ++ laterMembers members := rfl

/-- The text of a document without any space. -/
def compact (j : Json) : Text :=
  j.tokens.flatMap Token.text

def lineBreak (level : Nat) : Text :=
  '\n' :: List.replicate (2 * level) ' '

mutual
/-- The document with each item and member on a line of its own, indented below the given level. -/
def prettyAt (level : Nat) : Json → Text
  | .list (j :: items) =>
      '[' :: lineBreak (level + 1) ++ j.prettyAt (level + 1) ++
        prettyItems (level + 1) items ++ lineBreak level ++ [']']
  | .object ((key, j) :: members) =>
      '\x7b' :: lineBreak (level + 1) ++ quote key ++ [':', ' '] ++ j.prettyAt (level + 1) ++
        prettyMembers (level + 1) members ++ lineBreak level ++ ['\x7d']
  | .null => compact .null
  | .bool b => compact (.bool b)
  | .int n => compact (.int n)
  | .float x => compact (.float x)
  | .string t => compact (.string t)
  | .list [] => compact (.list [])
  | .object [] => compact (.object [])

def prettyItems (level : Nat) : List Json → Text
  | [] => []
  | j :: items => ',' :: lineBreak level ++ j.prettyAt level ++ prettyItems level items

def prettyMembers (level : Nat) : List (Text × Json) → Text
  | [] => []
  | (key, j) :: members =>
      ',' :: lineBreak level ++ quote key ++ [':', ' '] ++ j.prettyAt level ++
        prettyMembers level members
end

/-- The text of a document, indented by two spaces a level. -/
def pretty (j : Json) : Text :=
  j.prettyAt 0

end Json

end Stencil
