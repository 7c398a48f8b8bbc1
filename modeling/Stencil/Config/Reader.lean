import Stencil.Config.Basic
import Stencil.FileSystem.Access
import Stencil.Json.Writer
import Stencil.Text.Quoted

namespace Stencil

namespace Config

/-- The settings that a document can give, in the order in which a list gives them. -/
inductive Field where
  | evaluationFunction
  | templateDirectory
  | cacheDirectory
  | fileExtension
  | cacheMode
deriving DecidableEq, Repr

namespace Field

def all : List Field :=
  [evaluationFunction, templateDirectory, cacheDirectory, fileExtension, cacheMode]

def name : Field → Text
  | evaluationFunction => "evaluation_function".toList
  | templateDirectory => "template_directory".toList
  | cacheDirectory => "cache_directory".toList
  | fileExtension => "file_extension".toList
  | cacheMode => "cache_mode".toList

def ofName? (t : Text) : Option Field :=
  all.find? (·.name == t)

theorem ofName?_name (f : Field) : ofName? f.name = some f := by
  cases f <;> rfl

end Field

end Config

namespace CacheMode

def name : CacheMode → Text
  | direct => "direct".toList
  | scratch => "scratch".toList

def ofName? (t : Text) : Option CacheMode :=
  [direct, scratch].find? (·.name == t)

theorem ofName?_name (m : CacheMode) : ofName? m.name = some m := by
  cases m <;> rfl

end CacheMode

namespace Config

/-- What is wrong with a document of settings. -/
inductive DocumentError where
  | malformed
  | unknownField (name : Text)
  | duplicateField (name : Text)
  /-- a value of one kind stands where another is expected -/
  | wrongKind (found expected : Text)
  | unknownVariant (name : Text)
deriving DecidableEq, Repr

namespace DocumentError

def inTicks (t : Text) : Text :=
  ['\x60'] ++ t ++ ['\x60']

/-- The error in words; `reason` says what is wrong with a malformed text. -/
def message (reason : Text) : DocumentError → Text
  | malformed => reason
  | unknownField name =>
      "unknown field ".toList ++ inTicks name ++ ", expected one of ".toList ++
        ", ".toList.intercalate (Field.all.map fun f => inTicks f.name)
  | duplicateField name => "duplicate field ".toList ++ inTicks name
  | wrongKind found expected =>
      "invalid type: ".toList ++ found ++ ", expected ".toList ++ expected
  | unknownVariant name =>
      "unknown variant ".toList ++ inTicks name ++ ", expected ".toList ++
        inTicks CacheMode.direct.name ++ " or ".toList ++ inTicks CacheMode.scratch.name

end DocumentError

/-- What a token begins, in words; punctuation begins nothing. -/
def kind? : Token → Option Text
  | .null => some "null".toList
  | .bool b => some ("boolean ".toList ++ DocumentError.inTicks (Token.bool b).text)
  | .int n => some ("integer ".toList ++ DocumentError.inTicks (integerText n))
  | .float x => some ("floating point ".toList ++ DocumentError.inTicks x.json)
  | .string t => some ("string ".toList ++ Text.quoted t)
  | .openList => some "sequence".toList
  | .openObject => some "map".toList
  | _ => none

/-- The error about a value of another kind than expected; no value at all is malformed. -/
def expected (what : Text) : List Token → DocumentError
  | [] => .malformed
  | token :: _ =>
      match kind? token with
      | some found => .wrongKind found what
      | none => .malformed

/-- What is read from the head of a token list, together with the tokens behind it. -/
abbrev Reading := Except DocumentError

/-- A text, or null for a setting that is not given. -/
def text? : List Token → Reading (Option Text × List Token)
  | .null :: tokens => .ok (none, tokens)
  | .string t :: tokens => .ok (some t, tokens)
  | tokens => .error (expected "a string".toList tokens)

/-- The mode that a word names. -/
def mode (name : Text) : Except DocumentError CacheMode :=
  match CacheMode.ofName? name with
  | some m => .ok m
  | none => .error (.unknownVariant name)

/-- The rest of a mode given as the key of an object with the value null. -/
def modeMember? : List Token → Reading (Option CacheMode × List Token)
  | .string name :: tokens => do
      let m ← mode name
      match tokens with
      | .colon :: .null :: .closeObject :: tokens => .ok (some m, tokens)
      | .colon :: .null :: _ => .error .malformed
      | .colon :: tokens => .error (expected "unit".toList tokens)
      | _ => .error .malformed
  | tokens => .error (expected "variant identifier".toList tokens)

/-- A mode by its name or as an object with one member, or null. -/
def mode? : List Token → Reading (Option CacheMode × List Token)
  | .null :: tokens => .ok (none, tokens)
  | .string name :: tokens => (mode name).map fun m => (some m, tokens)
  | .openObject :: tokens => modeMember? tokens
  | _ => .error .malformed

/-- Reads the value of a setting. -/
def setting (o : Overrides) (f : Field) (tokens : List Token) : Reading (Overrides × List Token) :=
  match f with
  | .evaluationFunction =>
      (text? tokens).map fun (t, rest) => ({ o with evaluationFunction := t }, rest)
  | .templateDirectory =>
      (text? tokens).map fun (t, rest) => ({ o with templateDirectory := t }, rest)
  | .cacheDirectory =>
      (text? tokens).map fun (t, rest) => ({ o with cacheDirectory := t }, rest)
  | .fileExtension =>
      (text? tokens).map fun (t, rest) => ({ o with fileExtension := t }, rest)
  | .cacheMode =>
      (mode? tokens).map fun (m, rest) => ({ o with cacheMode := m }, rest)

/-- The settings of the members of an object, from a key on.  A name that is unknown or was given
before is an error even before the colon, so no more keys are read than the budget of one more than
there are settings. -/
def members (budget : Nat) (o : Overrides) (given : List Field) (tokens : List Token) :
    Except DocumentError Overrides :=
  match budget, tokens with
  | budget + 1, .string name :: tokens =>
      match Field.ofName? name with
      | none => .error (.unknownField name)
      | some f =>
          if f ∈ given then
            .error (.duplicateField name)
          else
            match tokens with
            | .colon :: tokens => do
                let (o, tokens) ← setting o f tokens
                match tokens with
                | [.closeObject] => .ok o
                | .comma :: tokens => members budget o (f :: given) tokens
                | _ => .error .malformed
            | _ => .error .malformed
  | _, _ => .error .malformed

/-- The settings of the items of a list, from a value on; there are no more items than settings. -/
def items (o : Overrides) : List Field → List Token → Except DocumentError Overrides
  | [], _ => .error .malformed
  | f :: fields, tokens => do
      let (o, tokens) ← setting o f tokens
      match tokens with
      | [.closeList] => .ok o
      | .comma :: tokens => items o fields tokens
      | _ => .error .malformed

/-- The settings of a document: an object of settings by name, or a list of them.  Tokens are taken
one by one, so the first thing that is wrong decides the error, whatever follows it. -/
def overridesOfTokens : List Token → Except DocumentError Overrides
  | [.openObject, .closeObject] => .ok {}
  | .openObject :: .closeObject :: _ => .error .malformed
  | .openObject :: tokens => members (Field.all.length + 1) {} [] tokens
  | [.openList, .closeList] => .ok {}
  | .openList :: .closeList :: _ => .error .malformed
  | .openList :: tokens => items {} Field.all tokens
  | tokens => .error (expected "struct ConfigOverrides".toList tokens)

def parseOverrides (t : Text) : Except DocumentError Overrides :=
  overridesOfTokens (Token.ofText t)

def parse (t : Text) : Except DocumentError Config :=
  (parseOverrides t).map (Config.apply {})

/-- Why no settings come of a file. -/
inductive LoadError where
  | unreadable (path : Text)
  | invalid (path : Option Text) (cause : DocumentError)
deriving DecidableEq, Repr

/-- The error in words; `reason` says why a file cannot be read or what is wrong with a malformed
text. -/
def LoadError.message (reason : Text) : LoadError → Text
  | unreadable path => "failed to read '".toList ++ path ++ "': ".toList ++ reason
  | invalid path cause =>
      let place := match path with
        | some path => " in '".toList ++ path ++ ['\'']
        | none => []
      "invalid configuration".toList ++ place ++ ": ".toList ++ cause.message reason

def ofText (path : Option Text) (t : Text) : Except LoadError Config :=
  match parse t with
  | .ok c => .ok c
  | .error e => .error (.invalid path e)

/-- The settings of a file. -/
def load {m : Type → Type} [Monad m] [MonadFiles m] (path : Text) :
    m (Except LoadError Config) := do
  match ← MonadFiles.readText? path with
  | none => return .error (.unreadable path)
  | some t => return ofText (some path) t

end Config

end Stencil
