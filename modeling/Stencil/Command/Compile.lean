import Stencil.Command.Outcome
import Stencil.Config.Reader
import Stencil.Template.Compile

namespace Stencil.Command

/-- A text of a compiled template that can be shown. -/
inductive Snapshot where
  | content
  | result
  | compiled
deriving DecidableEq, Repr

namespace Snapshot

def ofName? (name : Text) : Option Snapshot :=
  [("original".toList, content), ("result".toList, result),
    ("compiled".toList, compiled)].lookup name

def text (s : Snapshot) (t : Template) : Text :=
  match s with
  | content => t.content
  | result => t.result
  | compiled => t.compiled

end Snapshot

/-- The variable in `key=value`. -/
def assignment? (t : Text) : Option (Text × Text) :=
  Text.cut? ['='] t

/-- The truth value of a word, in any ASCII case. -/
def truth? (t : Text) : Option Bool :=
  let word := t.map Char.toLower
  if word ∈ ["true".toList, "1".toList, "yes".toList, "on".toList] then
    some true
  else if word ∈ ["false".toList, "0".toList, "no".toList, "off".toList, []] then
    some false
  else
    none

/-- The condition in `key=truth`; a key alone holds. -/
def condition? (t : Text) : Option (Text × Bool) :=
  match Text.cut? ['='] t with
  | none => some (t, true)
  | some (key, word) => (truth? word).map (key, ·)

def anyValue (_ : Text) : Bool :=
  true

def isPath (t : Text) : Bool :=
  !t.isEmpty

def commonOptions : List Known :=
  [⟨"color".toList, none, .once (· ∈ ["auto".toList, "always".toList, "never".toList])⟩,
    ⟨"verbose".toList, some 'v', .flag⟩, ⟨"help".toList, some 'h', .final⟩]

def compileOptions : List Known :=
  [⟨"name".toList, none, .once anyValue⟩, ⟨"file".toList, none, .once isPath⟩,
    ⟨"content".toList, none, .once anyValue⟩,
    ⟨"var".toList, some 's', .often fun t => (assignment? t).isSome⟩,
    ⟨"if".toList, none, .often fun t => (condition? t).isSome⟩,
    ⟨"loops".toList, none, .once isPath⟩, ⟨"globals".toList, none, .once isPath⟩,
    ⟨"inject".toList, none, .often anyValue⟩, ⟨"config".toList, none, .once isPath⟩,
    ⟨"template-dir".toList, none, .once anyValue⟩, ⟨"cache-dir".toList, none, .once anyValue⟩,
    ⟨"extension".toList, none, .once anyValue⟩, ⟨"eval-fn".toList, none, .once anyValue⟩,
    ⟨"scratch".toList, none, .flag⟩,
    ⟨"stage".toList, none, .once fun t => (Snapshot.ofName? t).isSome⟩,
    ⟨"strict".toList, none, .flag⟩, ⟨"json".toList, none, .flag⟩] ++ commonOptions

def templateDirectoryVariable : Text :=
  "TPL_TEMPLATE_DIR".toList

def cacheDirectoryVariable : Text :=
  "TPL_CACHE_DIR".toList

/-- The settings that options give on top of a configuration; two directories may come from the
environment instead. -/
def overrides (environment : Text → Option Text) (given : Given) : Config.Overrides :=
  { evaluationFunction := given.value? "eval-fn".toList
    templateDirectory :=
      (given.value? "template-dir".toList).or (environment templateDirectoryVariable)
    cacheDirectory := (given.value? "cache-dir".toList).or (environment cacheDirectoryVariable)
    fileExtension := given.value? "extension".toList
    cacheMode := if given.has "scratch".toList then some .scratch else none }

/-- The template that the options describe, before its loops are read. -/
def describe (config : Config) (given : Given) : Template :=
  let t := Template.withConfig config
  let t := t.setName ((given.value? "name".toList).getD [])
  let t := match given.value? "file".toList with
    | some path => t.setFilePath path
    | none => t
  let t := match given.value? "content".toList with
    | some content => t.setContent content
    | none => t
  let t := t.setStatics ((given.values "var".toList).filterMap assignment?)
  let t := t.setConditions ((given.values "if".toList).filterMap condition?)
  t.setInjects (given.values "inject".toList)

/-- The row of an object: its fields are the texts of the values of its members. -/
def row? : Json → Option Row
  | .object members => some (.ofList (members.map fun (field, j) => (field, (Value.ofJson j).text)))
  | _ => none

def rows? : Json → Option (List Row)
  | .list items => items.mapM row?
  | _ => none

def loops? : Json → Option (List (Text × List Row))
  | .object members => members.mapM fun (key, j) => (rows? j).map (key, ·)
  | _ => none

variable {m : Type → Type} [Monad m] [MonadFiles m]

/-- What is read from the text of a file, or a complaint that says what the file is for. -/
def readFile {α : Type} (what path : Text) (read : Text → Option α) : m (Except Text α) := do
  match ← MonadFiles.readText? path with
  | none => return .error ("Cannot read ".toList ++ what ++ " file ".toList ++ path)
  | some t =>
      match read t with
      | none => return .error ("Invalid ".toList ++ what ++ " file ".toList ++ path)
      | some a => return .ok a

/-- The settings of a file, on top of the defaults, or the defaults. -/
def readConfig (given : Given) : m (Except Text Config) := do
  match given.value? "config".toList with
  | none => return .ok {}
  | some path =>
      match ← Config.load path with
      | .ok config => return .ok config
      | .error e => return .error (e.message "not usable".toList)

/-- The template with the rows of its loops, if a file of them was given. -/
def readLoops (given : Given) (t : Template) : m (Except Text Template) := do
  match given.value? "loops".toList with
  | none => return .ok t
  | some path =>
      let loops ← readFile "loops".toList path fun text => (Json.parse? text).bind loops?
      return loops.map t.setLoops

/-- The global variables of a file; without one there are none. -/
def readGlobals (given : Given) : m (Except Text Scope) := do
  match given.value? "globals".toList with
  | none => return .ok .empty
  | some path => readFile "globals".toList path fun text => (Scope.parse text).toOption

/-- The texts and the warnings of a compiled template as a document. -/
def report (t : Template) : Json :=
  .object
    [("original".toList, .string t.content), ("result".toList, .string t.result),
      ("compiled".toList, .string t.compiled),
      ("warnings".toList, .list (t.warnings.map fun w => .string w.message))]

/-- What is shown of a compiled template, and the objection to it if the compilation is strict. -/
def showCompiled (given : Given) (t : Template) : Outcome :=
  let snapshot := ((given.value? "stage".toList).bind Snapshot.ofName?).getD .compiled
  let output := if given.has "json".toList then (report t).pretty else snapshot.text t
  let shown := Outcome.success output
  match t.strictly with
  | .error e =>
      if given.has "strict".toList then
        { shown with code := Outcome.dataCode, compileError := some e.message }
      else
        shown
  | .ok _ => shown

/-- Reads what the options name, in a fixed order, and compiles; the first complaint ends it. -/
def compileTemplate (environment : Text → Option Text) (fresh : Text) (given : Given) :
    m Outcome := do
  match ← readConfig given with
  | .error e => return .failed e
  | .ok config =>
      match ← readLoops given (describe (config.apply (overrides environment given)) given) with
      | .error e => return .failed e
      | .ok t =>
          match ← readGlobals given with
          | .error e => return .failed e
          | .ok globals => return showCompiled given (← t.compile globals fresh)

end Stencil.Command
