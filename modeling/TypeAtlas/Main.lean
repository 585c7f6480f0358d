import TypeAtlas.Command.Run

namespace TypeAtlas

-- What an error of the operating system means for a path.
def faultOf (error : IO.Error) : FileFault :=
  match error with
  | .alreadyExists .. => .alreadyThere
  | .inappropriateType _ code _ => if code = 21 then .isADirectory else .notADirectory
  | .invalidArgument _ code _ => if code = 36 then .nameTooLong else .notFound
  | _ => .notFound

-- Does something at a path unless the path itself is at fault.
def attempt {α : Type} (path : String) (action : IO α) : IO (Except FileFault α) := do
  if let some fault := FileFault.ofPath? path then return .error fault
  try
    return .ok (← action)
  catch error =>
    return .error (faultOf error)

instance : FileAccess IO where
  kind? path := do
    match ← attempt path (IO.FS.realPath path) with
    | .ok place => return some (if ← place.isDir then .directory else .file)
    | .error _ => return none
  read path := do
    match ← attempt path (IO.FS.readBinFile path) with
    | .ok bytes => return .ok bytes.toList
    | .error fault => return .error fault
  write path bytes := attempt path (IO.FS.writeBinFile path ⟨bytes.toArray⟩)
  makeDirectory path := attempt path (IO.FS.createDir path)

def usageText : String :=
  "Usage: dumpscope [--config PATH] [--verbose] COMMAND\n\n" ++
    "Commands:\n" ++
    "  build [DUMP] [OUTPUT]\n" ++
    "  diff OLD NEW [--json]\n" ++
    "  validate --schema SCHEMA --data DIRECTORY [--json]\n" ++
    "  inspect SCHEMA [--json]\n"

end TypeAtlas

def main (arguments : List String) : IO UInt32 := do
  let outcome ← (TypeAtlas.Request.read arguments).perform TypeAtlas.usageText
  IO.print outcome.output
  IO.eprint outcome.errors
  return outcome.code.toUInt32
