import Stencil.OutputFunction
import Stencil.Program.Basic
import Stencil.Scope
import Stencil.Value.Access
import Stencil.Warning

namespace Stencil

namespace Expression

/-- The text of the value that an expression refers to, or why it has none. -/
def text (scope : Scope) (e : Expression) : Except Warning Text :=
  match scope.get? e.name with
  | none => .error (.unboundVariable e.name)
  | some root =>
      match root.follow? e.accessors with
      | none => .error (.missingMember e.render)
      | some v => if v.isComposite then .error (.nonScalarValue e.render) else .ok v.text

end Expression

/-- Why an evaluation ends before its program does. -/
inductive EvaluationError where
  | unknownFunction (name : Text)
deriving DecidableEq, Repr

namespace EvaluationError

def warning : EvaluationError → Warning
  | .unknownFunction name => .unknownFunction name

def message (e : EvaluationError) : Text :=
  e.warning.message

end EvaluationError

namespace Program

/-- The output of a program and the warnings recorded up to its end, or up to the call at which the
evaluation ended. -/
def evaluate (registry : Registry) (scope : Scope) :
    Program → Warnings → Except EvaluationError Text × Warnings
  | [], ws => (.ok [], ws)
  | .literal t :: p, ws =>
      let (output, ws) := evaluate registry scope p ws
      (output.map (t ++ ·), ws)
  | .call function e :: p, ws =>
      match registry.get? function with
      | none => (.error (.unknownFunction function), ws)
      | some write =>
          let (text, ws) := match e.text scope with
            | .ok t => (t, ws)
            | .error w => ([], ws.record w)
          let (output, ws) := evaluate registry scope p ws
          (output.map (write text ++ ·), ws)

/-- The output of a program, empty when the evaluation ends early, and the warnings recorded, the
one about its end among them. -/
def run (registry : Registry) (scope : Scope) (p : Program) (ws : Warnings) : Text × Warnings :=
  match p.evaluate registry scope ws with
  | (.ok output, ws) => (output, ws)
  | (.error e, ws) => ([], ws.record e.warning)

end Program

end Stencil
