import Stencil.Command.Compile
import Stencil.Command.Table

namespace Stencil.Command

/-- What a placeholder is by its inner text. -/
inductive PlaceholderKind where
  /-- a key, or a loop's key and a field -/
  | fillable
  | expression
  | rejected
deriving DecidableEq, Repr

/-- A key, or a key and a field, separated by the first dot. -/
def isFillable (t : Text) : Bool :=
  match Text.cut? ['.'] t with
  | some (key, field) => isKey key && isKey field
  | none => isKey t

/-- The kind of a placeholder, blanks around its inner text aside. -/
def PlaceholderKind.ofInner (inner : Text) : PlaceholderKind :=
  let t := Text.trim inner
  if isFillable t then .fillable else if Expression.accepts t then .expression else .rejected

/-- What was found in one file. -/
structure FileReport where
  file : Text
  fillable : Nat
  expressions : Nat
  /-- the sources of the placeholders that are neither fillable nor expressions -/
  rejected : List Text
deriving DecidableEq, Repr

namespace FileReport

def ofText (file t : Text) : FileReport :=
  let kinds := (inners t).map PlaceholderKind.ofInner
  { file
    fillable := kinds.count .fillable
    expressions := kinds.count .expression
    rejected :=
      ((inners t).filter fun inner => PlaceholderKind.ofInner inner == .rejected).map delimited }

def toJson (r : FileReport) : Json :=
  .object
    [("file".toList, .string r.file), ("statics".toList, .int (Int64.ofNat r.fillable)),
      ("expressions".toList, .int (Int64.ofNat r.expressions)),
      ("rejected".toList, .list (r.rejected.map .string))]

def toRow (r : FileReport) : List Text :=
  [r.file, integerText r.fillable, integerText r.expressions, integerText r.rejected.length]

end FileReport

def reportHeadings : List Text :=
  ["File".toList, "Static".toList, "Expressions".toList, "Rejected".toList]

def checkOptions : List Known :=
  ⟨"json".toList, none, .flag⟩ :: commonOptions

variable {m : Type → Type} [Monad m] [MonadFiles m]

/-- The reports on files, or the first file that holds no text. -/
def readReports : List Text → m (Except Text (List FileReport))
  | [] => return .ok []
  | file :: files => do
      match ← readFile "template".toList file fun t => some (FileReport.ofText file t) with
      | .error e => return .error e
      | .ok r => return (← readReports files).map (r :: ·)

/-- What is shown of reports; rejected placeholders are something wrong with the files. -/
def showReports (given : Given) (reports : List FileReport) : Outcome :=
  let output :=
    if given.has "json".toList then
      (Json.list (reports.map FileReport.toJson)).pretty
    else
      Table.render reportHeadings (reports.map FileReport.toRow)
  let shown := Outcome.success output
  if reports.any fun r => !r.rejected.isEmpty then
    { shown with code := Outcome.dataCode }
  else
    shown

/-- Reports on the files as they are: no marker is taken out and no rule applied. -/
def checkFiles (given : Given) (files : List Text) : m Outcome := do
  match ← readReports files with
  | .error e => return .failed e
  | .ok reports => return showReports given reports

end Stencil.Command
