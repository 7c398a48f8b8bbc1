import Stencil.Text.Combining
import Stencil.Text.Invisible

namespace Stencil.Text

/-- A character that is not written as itself. -/
def isUnseen (c : Char) : Bool :=
  isInvisible c || isCombining c

def quotedChar : Char → Text
  | '\x00' => ['\\', '0']
  | '\t' => ['\\', 't']
  | '\n' => ['\\', 'n']
  | '\r' => ['\\', 'r']
  | '"' => ['\\', '"']
  | '\\' => ['\\', '\\']
  | c =>
      if isUnseen c then
        ['\\', 'u', '\x7b'] ++ Nat.toDigits 16 c.toNat ++ ['\x7d']
      else
        [c]

/-- The text in double quotes, with escapes for what cannot be seen on its own. -/
def quoted (t : Text) : Text :=
  '"' :: t.flatMap quotedChar ++ ['"']

end Stencil.Text
