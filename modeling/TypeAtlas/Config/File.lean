import TypeAtlas.Config.Json
import TypeAtlas.Files.Access
import TypeAtlas.Json.Sentence

namespace TypeAtlas.Config

-- What a library for YAML reads a text as: a configuration, or what it says is wrong with the text.
class YamlReader where
  read : List Char → Except String Config

-- A file that the library does not read, with what it says.
structure YamlError where
  path : String
  message : String

inductive FileError
  | unsupported (path : String)
  | read (path : String) (fault : FileFault)
  | json (path : String) (problem : Json.Problem) (text : List Char)
  | yaml (error : YamlError)

namespace FileError

-- What lies behind the error, if anything does.
def source? : FileError → Option String
  | unsupported _ => none
  | read _ fault => some fault.message
  | json _ problem text => some (problem.sentence text)
  | yaml error => some error.message

def message (error : FileError) : String :=
  let source := error.source?.getD ""
  match error with
  | unsupported path =>
    "Unsupported config extension for " ++ path ++ " (expected .json, .yaml or .yml)"
  | read path _ => "Failed to read config file " ++ path ++ ": " ++ source
  | json path _ _ => "Failed to parse JSON config " ++ path ++ ": " ++ source
  | yaml error => "Failed to parse YAML config " ++ error.path ++ ": " ++ source

end FileError

inductive Format
  | json
  | yaml
  deriving DecidableEq, Repr

def Format.ofPath? (path : String) : Option Format :=
  let extension := Path.extension path
  if extension = "json" then some json
  else if extension = "yaml" || extension = "yml" then some yaml
  else none

variable [YamlReader]

def ofText (path : String) (text : List Char) : Format → Except FileError Config
  | .json =>
    match readText text with
    | .ok config => .ok config
    | .error problem => .error (.json path problem text)
  | .yaml =>
    match YamlReader.read text with
    | .ok config => .ok config
    | .error message => .error (.yaml ⟨path, message⟩)

variable {m : Type → Type} [Monad m] [FileAccess m]

def loadFile (path : String) : m (Except FileError Config) := do
  match Format.ofPath? path with
  | none => return .error (.unsupported path)
  | some format =>
    match ← FileAccess.readText path with
    | .error fault => return .error (.read path fault)
    | .ok text => return ofText path text format

-- The standard configuration where no file is given.
def load (path : Option String) : m (Except FileError Config) :=
  match path with
  | some path => loadFile path
  | none => return .ok .standard

end TypeAtlas.Config
