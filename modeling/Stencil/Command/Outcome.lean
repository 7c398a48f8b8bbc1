import Stencil.Command.Arguments

namespace Stencil.Command

/-- What a command leaves: an exit code, its output and, apart from it, what it complains about. -/
structure Outcome where
  code : Nat
  output : Text := []
  compileError : Option Text := none
  failure : Option Text := none
deriving DecidableEq, Repr

namespace Outcome

/-- The exit code of arguments that are refused. -/
def usageCode : Nat := 2

/-- The exit code of templates in which something is wrong. -/
def dataCode : Nat := 65

/-- The exit code of files that cannot be read or hold no such document. -/
def failureCode : Nat := 70

def success (output : Text) : Outcome :=
  { code := 0, output := output ++ ['\n'] }

def misused (e : UsageError) : Outcome :=
  { code := usageCode, failure := some e.message }

def failed (message : Text) : Outcome :=
  { code := failureCode, failure := some message }

end Outcome

end Stencil.Command
