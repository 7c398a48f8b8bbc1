import Stencil.Text.Basic

namespace Stencil

/-- What a compilation asks of a file system.  Files are addressed by their path. -/
class MonadFiles (m : Type → Type) where
  /-- the text in a file, if there is such a file and it holds a text -/
  readText? : Text → m (Option Text)
  occupied : Text → m Bool
  /-- deletes a file, and says whether it is gone -/
  remove : Text → m Bool
  /-- makes a text the content of a file, and says whether it is -/
  write : Text → Text → m Bool
  temporaryDirectory : m Text

/-- The path of a name in a directory; an absolute name stands for itself. -/
def joinPath (directory name : Text) : Text :=
  if name.head? = some '/' ∨ directory = [] then
    name
  else if directory.getLast? = some '/' then
    directory ++ name
  else
    directory ++ ['/'] ++ name

end Stencil
