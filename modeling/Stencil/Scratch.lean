import Stencil.FileSystem.Access

namespace Stencil

/-- Where scratch files are put: in a directory or, when that one refuses a file, in another. -/
structure ScratchCache where
  directory : Text
  fallback : Text
  /-- the name of every file, when it is not to be fresh each time -/
  fileName : Option Text := none
deriving DecidableEq, Repr

/-- Why a text is not in a scratch file, or does not come back from one. -/
inductive ScratchError where
  | stale (path : Text)
  | unwritable (path fallback : Text)
  | unreadable (path : Text)
deriving DecidableEq, Repr

/-- The error in words; `reason` is what the file system says about it. -/
def ScratchError.message (reason : Text) : ScratchError → Text
  | stale path => "cannot remove stale scratch file '".toList ++ path ++ "': ".toList ++ reason
  | unwritable path fallback =>
      "cannot write scratch file to '".toList ++ path ++ "' or '".toList ++ fallback ++
        "': ".toList ++ reason
  | unreadable path => "cannot read scratch file '".toList ++ path ++ "': ".toList ++ reason

namespace ScratchCache

/-- The name of the next file; `fresh` makes it differ from all others. -/
def nextName (cache : ScratchCache) (fresh : Text) : Text :=
  cache.fileName.getD ("tpl_".toList ++ fresh ++ ".compiled".toList)

variable {m : Type → Type} [Monad m] [MonadFiles m]

/-- The cache in a directory with the one for temporary files behind it. -/
def inDirectory (directory : Text) : m ScratchCache :=
  return { directory, fallback := ← MonadFiles.temporaryDirectory }

/-- Puts a text into a scratch file and gives its path.  What stands at the path in the first
directory is removed before. -/
def stage (cache : ScratchCache) (fresh text : Text) : m (Except ScratchError Text) := do
  let name := cache.nextName fresh
  let path := joinPath cache.directory name
  let fallback := joinPath cache.fallback name
  let occupied ← MonadFiles.occupied path
  let free ← if occupied then MonadFiles.remove path else pure true
  if !free then
    return .error (.stale path)
  else if ← MonadFiles.write path text then
    return .ok path
  else if ← MonadFiles.write fallback text then
    return .ok fallback
  else
    return .error (.unwritable path fallback)

def read (path : Text) : m (Except ScratchError Text) := do
  match ← MonadFiles.readText? path with
  | some text => return .ok text
  | none => return .error (.unreadable path)

/-- Deletes a scratch file; whether it was there does not matter. -/
def drop (path : Text) : m Unit := do
  let _ ← MonadFiles.remove path

end ScratchCache

end Stencil
