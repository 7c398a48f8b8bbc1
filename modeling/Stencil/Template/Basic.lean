import Stencil.Block
import Stencil.Config.Basic
import Stencil.OutputFunction
import Stencil.Scratch

namespace Stencil

/-- How far a template has come.  The two phases between loading and evaluation are those of a
compilation that is under way. -/
inductive Phase where
  | empty
  | loaded
  /-- conditions and loops are resolved -/
  | blocksResolved
  /-- static variables are substituted -/
  | staticsSubstituted
  | evaluated
deriving DecidableEq, Repr

/-- A template and its rules.  Conditions, loops and variables hold for one compilation; the names
of injected variables, the settings and the output functions stay. -/
structure Template where
  name : Text := []
  filePath : Option Text := none
  content : Text := []
  /-- the staged text of the last compilation -/
  result : Text := []
  compiled : Text := []
  config : Config := {}
  statics : Bindings Text := .empty
  conditions : Bindings Bool := .empty
  loops : Bindings (List Row) := .empty
  /-- the names of the variables that expressions may refer to -/
  injects : List Text := []
  outputs : Registry := builtins
  scratch : Option ScratchCache := none
  warnings : Warnings := []
  phase : Phase := .empty

namespace Template

/-- A new template with settings, of which empty ones fall back to their defaults. -/
def withConfig (config : Config) : Template :=
  { config := config.normalize }

def setName (t : Template) (name : Text) : Template :=
  { t with name }

/-- Static variables in place of all those before. -/
def setStatics (t : Template) (statics : List (Text × Text)) : Template :=
  { t with statics := .ofList statics }

/-- One more static variable, or another value for one. -/
def setStatic (t : Template) (key value : Text) : Template :=
  { t with statics := t.statics.insert key value }

def setConditions (t : Template) (conditions : List (Text × Bool)) : Template :=
  { t with conditions := .ofList conditions }

def setCondition (t : Template) (key : Text) (holds : Bool) : Template :=
  { t with conditions := t.conditions.insert key holds }

def setLoops (t : Template) (loops : List (Text × List Row)) : Template :=
  { t with loops := .ofList loops }

def setLoop (t : Template) (key : Text) (rows : List Row) : Template :=
  { t with loops := t.loops.insert key rows }

/-- The names of injected variables, each of them once. -/
def setInjects (t : Template) (names : List Text) : Template :=
  { t with injects := names.eraseDups }

/-- Gives the content, which is sanitized. -/
def setContent (t : Template) (content : Text) : Template :=
  let content := sanitize content
  { t with content, phase := if content = [] then t.phase else .loaded }

def setFilePath (t : Template) (path : Text) : Template :=
  { t with filePath := some path }

def setConfig (t : Template) (config : Config) : Template :=
  { t with config := config.normalize }

def setScratchCache (t : Template) (cache : ScratchCache) : Template :=
  { t with scratch := some cache }

def register (t : Template) (name : Text) (function : OutputFunction) : Template :=
  { t with outputs := t.outputs.insert name function }

end Template

end Stencil
