import Stencil.Command.Run

namespace Stencil

/-- The files of the process; whatever goes wrong with one is a refusal. -/
instance : MonadFiles IO where
  readText? path := do
    try
      let bytes ← IO.FS.readBinFile (String.ofList path)
      return (String.fromUTF8? bytes).map String.toList
    catch _ => return none
  occupied path := do
    try
      let _ ← IO.FS.realPath (String.ofList path)
      return true
    catch _ => return false
  remove path := do
    try
      IO.FS.removeFile (String.ofList path)
      return true
    catch _ => return false
  write path text := do
    try
      IO.FS.writeFile (String.ofList path) (String.ofList text)
      return true
    catch _ => return false
  temporaryDirectory :=
    return ((← IO.getEnv "TMPDIR").getD "/tmp").toList

def byteDigits (byte : UInt8) : Text :=
  [hexDigit (byte.toNat / 16), hexDigit (byte.toNat % 16)]

/-- A random part for the name of a scratch file. -/
def freshDigits : IO Text :=
  return (← IO.getRandomBytes 16).toList.flatMap byteDigits

/-- The variables of the environment that the program looks at. -/
def readEnvironment : IO (Text → Option Text) := do
  let given ← [Command.templateDirectoryVariable, Command.cacheDirectoryVariable].mapM
    fun name => return (name, (← IO.getEnv (String.ofList name)).map String.toList)
  return fun name => (given.lookup name).join

/-- Prints what a command leaves, and gives its exit code. -/
def showOutcome (outcome : Command.Outcome) : IO UInt32 := do
  IO.print (String.ofList outcome.output)
  if let some e := outcome.compileError then
    IO.eprintln (String.ofList ("Compile error: ".toList ++ e))
  if let some e := outcome.failure then
    IO.eprintln (String.ofList e)
  return UInt32.ofNat outcome.code

def runProcess (args : List String) : IO UInt32 := do
  showOutcome (← Command.run (← readEnvironment) (← freshDigits) (args.map String.toList))

end Stencil

def main (args : List String) : IO UInt32 :=
  Stencil.runProcess args
