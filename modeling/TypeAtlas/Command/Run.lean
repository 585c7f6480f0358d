import TypeAtlas.Command.Arguments
import TypeAtlas.Config.Yaml
import TypeAtlas.Diff.Report
import TypeAtlas.Schema.File
import TypeAtlas.Schema.Report
import TypeAtlas.Schema.Survey
import TypeAtlas.Validation.Directory

namespace TypeAtlas

-- What a run leaves behind besides files.
structure Outcome where
  code : Nat
  output : String
  errors : String
  deriving DecidableEq, Repr

namespace Command

-- Why a command fails.
inductive Failure
  | absent (what path : String)
  | config (error : Config.FileError)
  | schema (path : String) (error : Schema.FileError)
  | dump (path : String) (fault : FileFault)
  | output (path : String) (error : Schema.FileError)
  | data (path : String) (error : Validation.SourceError)

namespace Failure

def schemaChain (error : Schema.FileError) : String :=
  error.message ++ ": " ++ error.source

def configChain (error : Config.FileError) : String :=
  match error.source? with
  | some source => error.message ++ ": " ++ source
  | none => error.message

-- The failure and what lies behind it, step by step.
def message : Failure → String
  | absent what path => what ++ " not found: " ++ path
  | config error => "Failed to load config: " ++ configChain error
  | schema path error => "Failed to load schema: " ++ path ++ ": " ++ schemaChain error
  | dump path fault => "Failed to read dump file: " ++ path ++ ": " ++ fault.message
  | output path error => "Failed to write schema: " ++ path ++ ": " ++ schemaChain error
  | data path error => "Failed to open data directory: " ++ path ++ ": " ++ error.message

def outcome (failure : Failure) : Outcome :=
  ⟨1, "", "Error: " ++ failure.message ++ "\n"⟩

end Failure

variable {m : Type → Type} [Monad m] [FileAccess m]

-- A command in the making: it prints a text and ends with an exit code, unless it fails.
abbrev Action (m : Type → Type) (α : Type) := ExceptT Failure m α

def require (what path : String) : Action m Unit := do
  unless ← (FileAccess.exists? path : m Bool) do throw (.absent what path)

-- Goes on with a result or fails with what its error means.
def orFail {ε α : Type} (failure : ε → Failure) (result : m (Except ε α)) : Action m α := do
  match ← result with
  | .ok value => return value
  | .error error => throw (failure error)

def loadSchema (path : String) : Action m Schema := do
  require "Schema file" path
  orFail (.schema path) (Schema.loadFile path)

def loadConfig [Config.YamlReader] (path : Option String) : Action m Config := do
  match path with
  | some path => require "Config file" path
  | none => pure ()
  orFail .config (Config.load path)

def readDump (path : String) : Action m (List UInt8) := do
  require "Dump file" path
  orFail (.dump path) (FileAccess.read path)

def buildSchema (rules : Rules) (dump output : String) : Action m Outcome := do
  let bytes ← readDump dump
  let schema := Schema.ofDumpBytes rules bytes
  orFail (.output output) (schema.saveFile output)
  return ⟨0, "Schema written to " ++ output ++ "\n" ++ schema.summaryText, ""⟩

def diffSchemas (old new : String) (json : Bool) : Action m Outcome := do
  let oldSchema ← loadSchema old
  let newSchema ← loadSchema new
  let diff := Diff.between oldSchema newSchema
  let output := if json then diff.value.pretty ++ "\n" else diff.text old new
  return ⟨if diff.hasCritical then 2 else 0, output, ""⟩

def validateData (thresholds : Thresholds) (schema data : String) (json : Bool) :
    Action m Outcome := do
  let loaded ← loadSchema schema
  require "Data directory" data
  let directory ← orFail (.data data) (Validation.Directory.open data)
  let report ← (directory.validate loaded thresholds : m Validation)
  let output := if json then report.value.pretty ++ "\n" else report.text schema data
  return ⟨report.verdict.exitCode, output, ""⟩

def inspectSchema (schema : String) (json : Bool) : Action m Outcome := do
  let loaded ← loadSchema schema
  let output :=
    if json then loaded.summaryValue.pretty ++ "\n"
    else "Schema: " ++ schema ++ "\n" ++ loaded.summaryText
  return ⟨0, output, ""⟩

def act (command : Command) (config : Config) : Action m Outcome :=
  match command with
  | build dump output => buildSchema config.rules dump output
  | diff old new json => diffSchemas old new json
  | validate schema data json => validateData config.validation schema data json
  | inspect schema json => inspectSchema schema json

-- A command under the configuration that the path of a file gives.
def start [Config.YamlReader] (config : Option String) (command : Command) : Action m Outcome := do
  let config ← loadConfig config
  command.act config

end Command

namespace Request

variable {m : Type → Type} [Monad m] [FileAccess m]

def versionText : String := "dumpscope 0.1.0\n"

-- The outcome of a request. A command line that cannot be read is answered by its usage.
def perform [Config.YamlReader] (usageText : String) : Request → m Outcome
  | version => return ⟨0, versionText, ""⟩
  | usage => return ⟨2, "", usageText⟩
  | run config command => do
    match ← (command.start config).run with
    | .ok outcome => return outcome
    | .error failure => return failure.outcome

end Request

end TypeAtlas
