import Stencil.FileSystem.Access
import Stencil.Text.Position

namespace Stencil

/-- Where the names of a location begin. -/
inductive Anchor where
  | root
  /-- the working directory, or the directory so many levels above it -/
  | working (levels : Nat)
deriving DecidableEq, Repr

/-- A place in a file system: the names that lead to it from a directory, the last name first. -/
structure Location where
  anchor : Anchor
  names : List Text
deriving DecidableEq, Repr

namespace Location

def child (l : Location) (name : Text) : Location :=
  { l with names := name :: l.names }

/-- The location of the directory that holds what is at a location; the root holds itself. -/
def parent (l : Location) : Location :=
  match l.names, l.anchor with
  | _ :: names, anchor => ⟨anchor, names⟩
  | [], .root => l
  | [], .working levels => ⟨.working (levels + 1), []⟩

/-- The path of a location from its anchor. -/
def path (l : Location) : Text :=
  ['/'].intercalate l.names.reverse

end Location

/-- What may stand at a location; a file whose bytes are no text has no content here. -/
inductive Node where
  | directory
  | file (content : Option Text)
deriving DecidableEq, Repr

/-- The files and directories, by location, and the path of the directory for temporary files. -/
structure FileSystem where
  nodes : List (Location × Node) := []
  temporary : Text
deriving Repr

namespace FileSystem

/-- What stands at a location; at an anchor there is a directory. -/
def node? (fs : FileSystem) (l : Location) : Option Node :=
  if l.names = [] then some .directory else fs.nodes.lookup l

def erase (fs : FileSystem) (l : Location) : FileSystem :=
  { fs with nodes := fs.nodes.filter fun (l', _) => l' != l }

def set (fs : FileSystem) (l : Location) (n : Node) : FileSystem :=
  { fs with nodes := (l, n) :: (fs.erase l).nodes }

/-- The parts of a path between slashes. -/
def components (path : Text) : List Text :=
  path.foldr
    (fun c parts =>
      if c = '/' then
        [] :: parts
      else
        match parts with
        | [] => [[c]]
        | part :: parts => (c :: part) :: parts)
    [[]]

/-- The longest name that a file can have, in bytes. -/
def maxNameSize : Nat := 255

/-- The longest path that can be followed, in bytes. -/
def maxPathSize : Nat := 4095

/-- Where a step of a path leads; empty parts and single dots stay. -/
def step (l : Location) (part : Text) : Location :=
  if part = [] ∨ part = ['.'] then l else if part = ['.', '.'] then l.parent else l.child part

/-- The location that parts lead to: every name but the last has to lead to a directory. -/
def follow? (fs : FileSystem) : Location → List Text → Option Location
  | l, [] => some l
  | l, part :: parts =>
      if fs.node? l = some .directory ∧ part.utf8Size ≤ maxNameSize then
        fs.follow? (step l part) parts
      else
        none

def start (path : Text) : Location :=
  if path.head? = some '/' then ⟨.root, []⟩ else ⟨.working 0, []⟩

/-- The location that a path leads to, whether or not something stands there. -/
def locate? (fs : FileSystem) (path : Text) : Option Location :=
  if path = [] ∨ '\x00' ∈ path ∨ maxPathSize < path.utf8Size then
    none
  else
    fs.follow? (start path) (components path)

def readText? (fs : FileSystem) (path : Text) : Option Text :=
  match (fs.locate? path).bind fs.node? with
  | some (.file content) => content
  | _ => none

def occupied (fs : FileSystem) (path : Text) : Bool :=
  ((fs.locate? path).bind fs.node?).isSome

/-- Deletes a file; a directory is not deleted. -/
def remove (fs : FileSystem) (path : Text) : Bool × FileSystem :=
  match fs.locate? path with
  | none => (false, fs)
  | some l =>
      match fs.node? l with
      | some (.file _) => (true, fs.erase l)
      | _ => (false, fs)

/-- Makes a content that of a file, which need not have been there. -/
def writeFile (fs : FileSystem) (path : Text) (content : Option Text) : Bool × FileSystem :=
  match fs.locate? path with
  | none => (false, fs)
  | some l =>
      match fs.node? l with
      | some .directory => (false, fs)
      | _ => (true, fs.set l (.file content))

instance : MonadFiles (StateM FileSystem) where
  readText? path := return (← get).readText? path
  occupied path := return (← get).occupied path
  remove path := modifyGet (·.remove path)
  write path text := modifyGet (·.writeFile path (some text))
  temporaryDirectory := return (← get).temporary

theorem lookup_filter_ne (nodes : List (Location × Node)) (l l' : Location) :
    (nodes.filter fun (k, _) => k != l).lookup l' = if l' = l then none else nodes.lookup l' := by
  induction nodes with
  | nil => simp
  | cons e nodes ih =>
      obtain ⟨k, n⟩ := e
      by_cases hk : k = l
      · subst hk
        rw [List.filter_cons_of_neg (by simp), ih]
        by_cases h : l' = k
        · simp [h]
        · have hb : (l' == k) = false := by simpa using h
          simp [List.lookup_cons, h, hb]
      · by_cases h : l' = k
        · subst h
          simp [hk]
        · have hb : (l' == k) = false := by simpa using h
          simp [List.lookup_cons, hk, hb, ih]

theorem node?_erase (fs : FileSystem) (l l' : Location) :
    (fs.erase l).node? l' = if l' = l ∧ l.names ≠ [] then none else fs.node? l' := by
  simp only [node?, erase, lookup_filter_ne]
  by_cases h : l' = l
  · subst h
    by_cases hn : l'.names = [] <;> simp [hn]
  · simp [h]

theorem node?_set (fs : FileSystem) (l l' : Location) (n : Node) :
    (fs.set l n).node? l' = if l' = l ∧ l.names ≠ [] then some n else fs.node? l' := by
  simp only [node?, set, erase]
  by_cases h : l' = l
  · subst h
    by_cases hn : l'.names = [] <;> simp [hn]
  · have hb : (l' == l) = false := by simpa using h
    simp [List.lookup_cons, hb, lookup_filter_ne, h]

/-- Makes the directories that parts of a path lead through, up to one that cannot be made. -/
def makeDirectories (fs : FileSystem) : Location → List Text → FileSystem
  | _, [] => fs
  | l, part :: parts =>
      let l := step l part
      match fs.node? l with
      | some .directory => fs.makeDirectories l parts
      | some (.file _) => fs
      | none => (fs.set l .directory).makeDirectories l parts

/-- The file system with a directory, and those that lead to it. -/
def makeDirectory (fs : FileSystem) (path : Text) : FileSystem :=
  fs.makeDirectories (start path) (components path)

/-- The file system with a file, and the directories that lead to it. -/
def put (fs : FileSystem) (path : Text) (content : Option Text) : FileSystem :=
  ((fs.makeDirectories (start path) (components path).dropLast).writeFile path content).2

/-- The file system without what stands at a path and below. -/
def removeTree (fs : FileSystem) (path : Text) : FileSystem :=
  match fs.locate? path with
  | none => fs
  | some l =>
      { fs with
        nodes := fs.nodes.filter fun (l', _) =>
          !(l'.anchor == l.anchor && l.names.isSuffixOf l'.names && l.names != []) }

/-- The path of every file and directory below the working directory in ascending order, with a
slash behind those of directories. -/
def listing (fs : FileSystem) : List Text :=
  let below := fs.nodes.filter fun (l, _) => l.anchor == .working 0
  let paths := below.map fun (l, n) =>
    match n with
    | .directory => l.path ++ ['/']
    | .file _ => l.path
  paths.mergeSort fun p q => !decide (q < p)

end FileSystem

end Stencil
