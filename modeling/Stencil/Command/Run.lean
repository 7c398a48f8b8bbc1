import Stencil.Command.Check

namespace Stencil.Command

def versionText : Text :=
  "tpl 0.1.0".toList

def usageText : Text :=
  ['\n'].intercalate
    ["Template compiler tools".toList, [],
      "tpl compile [OPTIONS]         compile a template".toList,
      "tpl check [OPTIONS] FILES     find placeholders that would be dropped".toList,
      "tpl --version                 show the version".toList]

def programOptions : List Known :=
  ⟨"version".toList, some 'V', .final⟩ :: commonOptions

variable {m : Type → Type} [Monad m] [MonadFiles m]

/-- Compiles one template, or tells how that is done. -/
def runCompile (environment : Text → Option Text) (fresh : Text) (args : List Text) :
    m Outcome := do
  match readArguments compileOptions .absent {} args with
  | .error e => return .misused e
  | .ok read =>
      if read.given.has "help".toList then
        return .success usageText
      else
        compileTemplate environment fresh read.given

/-- Checks the files that are named; there has to be one. -/
def runCheck (args : List Text) : m Outcome := do
  match readArguments checkOptions (.listed isPath) {} args with
  | .error e => return .misused e
  | .ok read =>
      if read.given.has "help".toList then
        return .success usageText
      else if read.operands = [] then
        return .misused (.missingOperand "FILES".toList)
      else
        checkFiles read.given read.operands

def commandNames : List Text :=
  ["compile".toList, "check".toList, "help".toList]

/-- Tells how the program, or the command that an argument names, is used. -/
def showHelp : List Text → Outcome
  | [] => .success usageText
  | name :: _ =>
      if commandNames.contains name then .success usageText else .misused (.unknownCommand name)

/-- Finds the command among the arguments and runs it on the arguments behind. -/
def run (environment : Text → Option Text) (fresh : Text) (args : List Text) : m Outcome := do
  match readArguments programOptions .command {} args with
  | .error e => return .misused e
  | .ok read =>
      if read.given.has "version".toList then
        return .success versionText
      else if read.given.has "help".toList then
        return .success usageText
      else
        match read.command with
        | none => return .misused .missingCommand
        | some (command, args) =>
            if command = "compile".toList then
              runCompile environment fresh args
            else if command = "check".toList then
              runCheck args
            else if command = "help".toList then
              return showHelp args
            else
              return .misused (.unknownCommand command)

end Stencil.Command
