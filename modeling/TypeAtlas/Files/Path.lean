namespace TypeAtlas.Path

-- How many bytes a path and each name in it may have.
def limit : Nat :=
  4095

def nameLimit : Nat :=
  255

-- The parts of a text between slashes, the first of which begins with `part` in reverse.
def piecesFrom (part : List Char) : List Char → List String
  | [] => [String.ofList part.reverse]
  | c :: rest =>
    if c = '/' then String.ofList part.reverse :: piecesFrom [] rest
    else piecesFrom (c :: part) rest

def pieces (path : String) : List String :=
  piecesFrom [] path.toList

-- Parts that lead nowhere: those between repeated slashes and behind a trailing one, and lone dots.
def isIdle (piece : String) : Bool :=
  piece == "" || piece == "."

-- The parts that count. The first one always does.
def components (path : String) : List String :=
  match pieces path with
  | [] => []
  | first :: rest => first :: rest.filter fun piece => !isIdle piece

def ofPieces (pieces : List String) : String :=
  if pieces = [""] then "/" else "/".intercalate pieces

-- The paths that parts in reverse lead through, the longest first.
def pathsThrough : List String → List String
  | [] => []
  | piece :: rest =>
    if isIdle piece && !rest.isEmpty then pathsThrough rest
    else ofPieces (piece :: rest).reverse :: pathsThrough rest

-- The paths of the directories that a path names in front of its last name, the innermost first.
def parents (path : String) : List String :=
  pathsThrough (((pieces path).reverse.dropWhile isIdle).drop 1)

-- What stands behind the last dot of a name, unless the dot begins it.
def nameExtension (name : String) : String :=
  let reversed := name.toList.reverse
  let ending := reversed.takeWhile (· != '.')
  match reversed.drop (ending.length + 1) with
  | [] => ""
  | _ => String.ofList ending.reverse

-- The extension of the file a path names, in lower case.
def extension (path : String) : String :=
  match (components path).getLast? with
  | some name => if name = ".." then "" else (nameExtension name).toLower
  | none => ""

def isAbsolute (path : String) : Bool :=
  path.toList.head? == some '/'

-- A path inside a directory; an absolute one stands for itself.
def join (directory path : String) : String :=
  if isAbsolute path || directory = "" then path
  else if directory.toList.getLast? == some '/' then directory ++ path
  else directory ++ "/" ++ path

end TypeAtlas.Path
