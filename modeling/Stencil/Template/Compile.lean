import Stencil.Placeholder.Tightening
import Stencil.Program.Evaluation
import Stencil.Program.Staging
import Stencil.Template.Basic

/-!
Compilation of templates.  Content that is missing is loaded; the rules turn it into a text whose
remaining placeholders are staged; the staged text is evaluated, in memory or by way of a scratch
file; and placeholders that are left in the output are taken out.  A compilation always ends with an
output and its warnings; what the sweeps of blocks and of placeholders take out is not among them.
-/

namespace Stencil.Template

/-- The text that conditions and loops leave of the content, whose delimiters are made tight first,
and the template with these rules used up. -/
def resolveBlocks (t : Template) : Text × Template :=
  let (text, ws) := t.conditions.entries.foldl
    (fun (text, ws) (key, holds) => Block.resolveCondition key holds text ws)
    (tighten t.content, t.warnings)
  let (text, ws) := t.loops.entries.foldl
    (fun (text, ws) (key, rows) => Block.resolveLoop key rows text ws) (text, ws)
  (text, { t with
    warnings := ws, conditions := .empty, loops := .empty, phase := .blocksResolved })

/-- The text with its static variables, and the template with these used up. -/
def substituteStatics (t : Template) (text : Text) : Text × Template :=
  (t.statics.entries.foldl (fun text (key, value) => Block.substitute key value text) text,
    { t with statics := .empty, phase := .staticsSubstituted })

/-- The text that all rules leave of the content, and the template with the rules used up. -/
def applyRules (t : Template) : Text × Template :=
  let (text, t) := t.resolveBlocks
  t.substituteStatics text

/-- The text after a sweep of the conditions and then one of the loops that the rules left. -/
def sweepBlocks (text : Text) : Text :=
  Block.sweep .loop (Block.sweep .condition text)

/-- The template with its rules applied, and used up, and its result staged. -/
def stageResult (t : Template) : Template :=
  let (text, t) := t.applyRules
  let text := sweepBlocks text
  { t with
    result := stage t.config.evaluationFunction text
    warnings := t.warnings.recordAll (rejections text) }

/-- The template with an output from which left placeholders are taken out. -/
def finish (t : Template) (output : Text × Warnings) : Template :=
  { t with
    compiled := stripPlaceholders output.1
    warnings := output.2
    phase := .evaluated }

/-- The output of staged text over the global variables that are injected. -/
def run (t : Template) (globals : Scope) (staged : Text) : Text × Warnings :=
  Program.run t.outputs (globals.restrict t.injects) (Program.parse staged) t.warnings

variable {m : Type → Type} [Monad m] [MonadFiles m]

/-- The content of the template file, if there is more than blanks in it. -/
def readContent? (path : Text) : m (Option Text) := do
  let text ← MonadFiles.readText? path
  return (text.map Text.trim).filter (· ≠ [])

/-- The template with its warnings forgotten and, when it has no content, that of its file.  A path
that was not given is derived from the name and kept. -/
def load (t : Template) : m Template := do
  let t := { t with warnings := [], phase := .loaded }
  if t.content = [] then
    let path := t.filePath.getD (t.config.templatePath t.name)
    let t := { t with filePath := some path }
    match ← readContent? path with
    | some text => return { t with content := sanitize text }
    | none => return { t with warnings := t.warnings.record (.missingTemplateFile path) }
  else
    return t

/-- The staged text as it comes back from a scratch file, or the path that was not free for it.
Where no file can be written or read the text is taken as it is. -/
def throughScratch (t : Template) (fresh : Text) : m (Except Text Text) := do
  let cache ← match t.scratch with
    | some cache => pure cache
    | none => ScratchCache.inDirectory t.config.cacheDirectory
  match ← cache.stage fresh t.result with
  | .error (.stale path) => return .error path
  | .error _ => return .ok t.result
  | .ok path => do
      let staged ← ScratchCache.read path
      ScratchCache.drop path
      match staged with
      | .ok text => return .ok text
      | .error _ => return .ok t.result

/-- The output of the staged result.  A function whose name is no key is refused, and a scratch file
that cannot be replaced ends the evaluation. -/
def evaluate (t : Template) (globals : Scope) (fresh : Text) : m (Text × Warnings) := do
  let function := t.config.evaluationFunction
  if !isKey function then
    return ([], t.warnings.record (.unknownFunction function))
  else
    match t.config.cacheMode with
    | .direct => return t.run globals t.result
    | .scratch => do
        match ← t.throughScratch fresh with
        | .ok staged => return t.run globals staged
        | .error path => return ([], t.warnings.record (.staleScratchFile path))

/-- Compiles a template over global variables; `fresh` names its scratch file. -/
def compile (t : Template) (globals : Scope) (fresh : Text) : m Template := do
  let t := (← t.load).stageResult
  return t.finish (← t.evaluate globals fresh)

/-- Why a strict compilation fails. -/
inductive StrictError where
  | diagnostics (warnings : Warnings)
deriving DecidableEq, Repr

namespace StrictError

def count : StrictError → Nat
  | diagnostics warnings => warnings.length

def message : StrictError → Text
  | diagnostics warnings =>
      "template compiled with ".toList ++ integerText warnings.length ++
        " diagnostic(s): ".toList ++ "; ".toList.intercalate (warnings.map Warning.message)

end StrictError

/-- The output of the last compilation, unless it left warnings. -/
def strictly (t : Template) : Except StrictError Text :=
  if t.warnings = [] then .ok t.compiled else .error (.diagnostics t.warnings)

/-- Compiles a template and gives its output, unless warnings were left. -/
def compileStrict (t : Template) (globals : Scope) (fresh : Text) :
    m (Except StrictError Text × Template) := do
  let t ← t.compile globals fresh
  return (t.strictly, t)

end Stencil.Template
