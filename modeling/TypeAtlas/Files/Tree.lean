import TypeAtlas.Files.Path

namespace TypeAtlas

-- Why a path cannot be read or written.
inductive FileFault
  | notFound
  | alreadyThere
  | notADirectory
  | isADirectory
  | nameTooLong
  -- The path holds the character that ends texts on the system.
  | nulInPath
  | notText
  deriving DecidableEq, Repr

def FileFault.message : FileFault → String
  | notFound => "No such file or directory (os error 2)"
  | alreadyThere => "File exists (os error 17)"
  | notADirectory => "Not a directory (os error 20)"
  | isADirectory => "Is a directory (os error 21)"
  | nameTooLong => "File name too long (os error 36)"
  | nulInPath => "file name contained an unexpected NUL byte"
  | notText => "stream did not contain valid UTF-8"

-- What is wrong with a path wherever it leads.
def FileFault.ofPath? (path : String) : Option FileFault :=
  if path = "" then some notFound
  else if path.toList.contains '\x00' then some nulInPath
  else if Path.limit < path.utf8ByteSize then some nameTooLong
  else none

inductive FileKind
  | file
  | directory
  deriving DecidableEq, Repr

inductive FileEntry
  | file (bytes : List UInt8)
  | directory
  deriving DecidableEq

def FileEntry.kind : FileEntry → FileKind
  | file _ => .file
  | directory => .directory

-- Each entry stands at the names that lead to it: what is below the working directory at those that
-- lead down from there, what is above it at as many double dots, and what an absolute path leads to
-- behind the root.
structure FileTree where
  entries : List (List String × FileEntry)

namespace FileTree

def empty : FileTree :=
  ⟨[]⟩

def root : List String :=
  ["/"]

-- The working directory and those above it.
def isAround (place : List String) : Bool :=
  place.all (· == "..")

-- The root, the working directory and those between them are always there.
def entry? (tree : FileTree) (place : List String) : Option FileEntry :=
  if place = root || isAround place then some .directory
  else (tree.entries.find? fun entry => entry.1 == place).map Prod.snd

def put (tree : FileTree) (place : List String) (entry : FileEntry) : FileTree :=
  ⟨(place, entry) :: tree.entries.filter fun other => other.1 != place⟩

-- The directory that a place stands in. The root stands in itself.
def above (place : List String) : List String :=
  if place = root then root else if isAround place then place ++ [".."] else place.dropLast

-- The place that pieces of a path lead to from a place. All but the last have to be directories.
def walk (tree : FileTree) (place : List String) : List String → Except FileFault (List String)
  | [] => .ok place
  | piece :: rest =>
    match tree.entry? place with
    | none => .error .notFound
    | some (.file _) => .error .notADirectory
    | some .directory =>
      if Path.isIdle piece then tree.walk place rest
      else if piece = ".." then tree.walk (above place) rest
      else if Path.nameLimit < piece.utf8ByteSize then .error .nameTooLong
      else tree.walk (place ++ [piece]) rest

-- Where the walk along a path begins.
def origin (path : String) : List String :=
  if Path.isAbsolute path then root else []

-- The place a path leads to.
def locate (tree : FileTree) (path : String) : Except FileFault (List String) :=
  match FileFault.ofPath? path with
  | some fault => .error fault
  | none => tree.walk (origin path) (Path.pieces path)

def kind? (tree : FileTree) (path : String) : Option FileKind :=
  match tree.locate path with
  | .ok place => (tree.entry? place).map FileEntry.kind
  | .error _ => none

def read (tree : FileTree) (path : String) : Except FileFault (List UInt8) := do
  match tree.entry? (← tree.locate path) with
  | some (.file bytes) => .ok bytes
  | some .directory => .error .isADirectory
  | none => .error .notFound

-- The directory that a new name is to stand in, the name, and whether a slash follows it. Slashes alone
-- name the root.
def locateNew (tree : FileTree) (path : String) :
    Except FileFault (List String × String × Bool) := do
  if let some fault := FileFault.ofPath? path then .error fault
  let reversed := (Path.pieces path).reverse
  let names := reversed.dropWhile (· == "")
  match names with
  | [] => .ok (root, ".", true)
  | name :: parents =>
    let place ← tree.walk (origin path) parents.reverse
    match tree.entry? place with
    | some .directory => .ok (place, name, names.length < reversed.length)
    | some (.file _) => .error .notADirectory
    | none => .error .notFound

-- What stands under a name in a directory.
def find? (tree : FileTree) (place : List String) (name : String) :
    Except FileFault (Option FileEntry) :=
  if Path.nameLimit < name.utf8ByteSize then .error .nameTooLong
  else .ok (tree.entry? (place ++ [name]))

def write (tree : FileTree) (path : String) (bytes : List UInt8) : Except FileFault FileTree := do
  let (place, name, slash) ← tree.locateNew path
  if slash || name = "." || name = ".." then .error .isADirectory
  match ← tree.find? place name with
  | some .directory => .error .isADirectory
  | _ => .ok (tree.put (place ++ [name]) (.file bytes))

def makeDirectory (tree : FileTree) (path : String) : Except FileFault FileTree := do
  let (place, name, _) ← tree.locateNew path
  if name = "." || name = ".." then .error .alreadyThere
  match ← tree.find? place name with
  | some _ => .error .alreadyThere
  | none => .ok (tree.put (place ++ [name]) .directory)

end FileTree

end TypeAtlas
