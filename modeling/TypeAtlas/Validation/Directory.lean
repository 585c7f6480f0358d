import TypeAtlas.Files.Access
import TypeAtlas.Validation.Report

namespace TypeAtlas.Validation

inductive SourceError
  | missing (path : String)
  | notADirectory (path : String)
  deriving DecidableEq, Repr

def SourceError.message : SourceError → String
  | missing path => "Data directory not found: " ++ path
  | notADirectory path => "Data path is not a directory: " ++ path

-- A path at which a directory stands.
structure Directory where
  root : String

-- The file of a template.
def Directory.fileFor (directory : Directory) (template : String) : String :=
  Path.join directory.root (template ++ ".json")

variable {m : Type → Type} [Monad m] [FileAccess m]

def Directory.open (path : String) : m (Except SourceError Directory) := do
  match ← FileAccess.kind? path with
  | none => return .error (.missing path)
  | some .file => return .error (.notADirectory path)
  | some .directory => return .ok ⟨path⟩

namespace Directory

-- The file of a template, if there is one.
def load (directory : Directory) (template : String) : m (Option InstanceFile) := do
  let path := directory.fileFor template
  match ← FileAccess.kind? path with
  | some .file =>
    match ← FileAccess.readText path with
    | .ok text => return some (.parse (String.ofList text))
    | .error _ => return some .unreadable
  | _ => return none

-- The files of some templates.
def loadAll (directory : Directory) : List String → m Files
  | [] => return .empty
  | template :: rest => do
    let file ← directory.load template
    let files ← directory.loadAll rest
    match file with
    | some file => return files.insert template file
    | none => return files

-- Runs all checks on the data of a directory.
def validate (directory : Directory) (schema : Schema) (thresholds : Thresholds) :
    m Validation := do
  let files ← directory.loadAll schema.concrete.names
  return Validation.run schema files.get? thresholds

end Directory

end TypeAtlas.Validation
