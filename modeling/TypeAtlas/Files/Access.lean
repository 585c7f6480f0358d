import TypeAtlas.Files.Tree
import TypeAtlas.Text.Utf8

namespace TypeAtlas

-- The operations on files that a monad offers.
class FileAccess (m : Type → Type) where
  kind? : String → m (Option FileKind)
  read : String → m (Except FileFault (List UInt8))
  write : String → List UInt8 → m (Except FileFault Unit)
  makeDirectory : String → m (Except FileFault Unit)

-- Applies a change to a tree, which stays as it is if the change fails.
def FileTree.change (step : FileTree → Except FileFault FileTree) :
    StateM FileTree (Except FileFault Unit) := fun tree =>
  match step tree with
  | .ok tree => (.ok (), tree)
  | .error fault => (.error fault, tree)

instance : FileAccess (StateM FileTree) where
  kind? path := fun tree => (tree.kind? path, tree)
  read path := fun tree => (tree.read path, tree)
  write path bytes := FileTree.change fun tree => tree.write path bytes
  makeDirectory path := FileTree.change fun tree => tree.makeDirectory path

namespace FileAccess

variable {m : Type → Type} [Monad m] [FileAccess m]

def exists? (path : String) : m Bool := do
  return (← kind? path).isSome

def readText (path : String) : m (Except FileFault (List Char)) := do
  match ← read path with
  | .error fault => return .error fault
  | .ok bytes =>
    match Text.decode? bytes with
    | some text => return .ok text
    | none => return .error .notText

-- Makes a directory; one that is there already is as good.
def ensureDirectory (path : String) : m (Except FileFault Unit) := do
  match ← makeDirectory path with
  | .ok () => return .ok ()
  | .error fault => if (← kind? path) == some .directory then return .ok () else return .error fault

-- Makes the first of some directories, each of which stands in the next.
def makeNested : List String → m (Except FileFault Unit)
  | [] => return .ok ()
  | path :: parents => do
    match ← ensureDirectory path with
    | .error .notFound =>
      match ← makeNested parents with
      | .ok () => ensureDirectory path
      | .error fault => return .error fault
    | result => return result

-- Makes a directory and those it stands in.
def makeDirectories (path : String) : m (Except FileFault Unit) :=
  makeNested (path :: Path.parents path)

-- Writes a file, making the directories it stands in first.
def saveBytes (path : String) (bytes : List UInt8) : m (Except FileFault Unit) := do
  match ← makeNested (Path.parents path) with
  | .error fault => return .error fault
  | .ok () => write path bytes

def save (path text : String) : m (Except FileFault Unit) :=
  saveBytes path (Text.encode text.toList)

end FileAccess

end TypeAtlas
