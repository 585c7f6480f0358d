import TypeAtlas.Files.Access
import TypeAtlas.Json.Sentence
import TypeAtlas.Schema.Json

namespace TypeAtlas.Schema

inductive FileError
  | read (path : String) (fault : FileFault)
  | parse (path : String) (problem : Json.Problem) (text : List Char)
  | write (path : String) (fault : FileFault)

namespace FileError

-- What lies behind the error.
def source : FileError → String
  | read _ fault | write _ fault => fault.message
  | parse _ problem text => problem.sentence text

def message (error : FileError) : String :=
  match error with
  | read path _ => "Failed to read schema " ++ path ++ ": " ++ error.source
  | parse path _ _ => "Invalid schema JSON in " ++ path ++ ": " ++ error.source
  | write path _ => "Failed to write schema " ++ path ++ ": " ++ error.source

end FileError

variable {m : Type → Type} [Monad m] [FileAccess m]

def loadFile (path : String) : m (Except FileError Schema) := do
  match ← FileAccess.readText path with
  | .error fault => return .error (.read path fault)
  | .ok text =>
    match readText text with
    | .ok schema => return .ok schema
    | .error problem => return .error (.parse path problem text)

def saveFile (schema : Schema) (path : String) : m (Except FileError Unit) := do
  match ← FileAccess.save path schema.fileText with
  | .ok () => return .ok ()
  | .error fault => return .error (.write path fault)

end TypeAtlas.Schema
