import TypeAtlas.Schema.Basic

namespace TypeAtlas

inductive Command
  | build (dump output : String)
  | diff (old new : String) (json : Bool)
  | validate (schema data : String) (json : Bool)
  | inspect (schema : String) (json : Bool)
  deriving DecidableEq, Repr

-- What a command line asks for.
inductive Request
  | run (config : Option String) (command : Command)
  | version
  -- The command line cannot be read.
  | usage
  deriving DecidableEq, Repr

namespace Command

-- The options that a command, or the line before it, knows: those with values, and flags with all
-- their spellings.
structure Options where
  valued : List String
  flags : List (String × List String)

-- An argument by itself.
inductive Item
  | option (name value : String)
  | flag (name : String)
  | positional (text : String)
  | refused
  deriving DecidableEq, Repr

def isDashed (text : String) : Bool :=
  text.toList.head? == some '-' && text ≠ "-"

-- A value behind an option is not empty and does not look like an option.
def isValue (text : String) : Bool :=
  text ≠ "" && !isDashed text

-- The name and value of an option with an equals sign.
def assigned? (text : String) : Option (String × String) :=
  let name := text.toList.takeWhile (· != '=')
  match text.toList.drop name.length with
  | _ :: value => some (String.ofList name, String.ofList value)
  | [] => none

namespace Options

def flag? (options : Options) (text : String) : Option String :=
  (options.flags.find? fun flag => flag.2.contains text).map Prod.fst

-- An argument that takes no value from the next one.
def item (options : Options) (text : String) : Item :=
  if text = "" then .refused
  else if !isDashed text then .positional text
  else
    match options.flag? text, assigned? text with
    | some name, _ => .flag name
    | none, some (name, value) =>
      if options.valued.contains name && value ≠ "" then .option name value else .refused
    | none, none => .refused

def behindDashes (text : String) : Item :=
  if text = "" then .refused else .positional text

-- Arguments one by one. Behind two dashes all are positional.
def items (options : Options) : List String → List Item
  | [] => []
  | text :: rest =>
    if text = "--" then rest.map behindDashes
    else if options.valued.contains text then
      match rest with
      | value :: rest =>
        (if isValue value then .option text value else .refused) :: options.items rest
      | [] => [.refused]
    else options.item text :: options.items rest

end Options

-- The options of every command line.
def general : Options :=
  ⟨["--config"], [("--verbose", ["-v", "--verbose"])]⟩

def withJson : Options :=
  ⟨general.valued, ("--json", ["--json"]) :: general.flags⟩

-- The values of an option.
def valuesOf (name : String) (items : List Item) : List String :=
  items.filterMap fun
    | .option other value => if other = name then some value else none
    | _ => none

def positionals (items : List Item) : List String :=
  items.filterMap fun
    | .positional text => some text
    | _ => none

def hasFlag (name : String) (items : List Item) : Bool :=
  items.contains (.flag name)

-- Whether no argument is refused and no option or flag comes twice.
def areSound (items : List Item) : Bool :=
  !items.contains .refused &&
    items.all fun item =>
      match item with
      | .option name _ => (valuesOf name items).length ≤ 1
      | .flag name => items.count (.flag name) ≤ 1
      | _ => true

def optionsOf? (name : String) : Option Options :=
  if name = "build" then some general
  else if name = "diff" || name = "inspect" then some withJson
  else if name = "validate" then
    some { withJson with valued := ["--schema", "--data"] ++ withJson.valued }
  else none

def standardDump : String := "il2cpp_dump/dump.cs"

def standardOutput : String := "generated/schema.json"

-- The command of a name with the arguments behind it.
def ofItems? (name : String) (items : List Item) : Option Command :=
  let json := hasFlag "--json" items
  match name, positionals items with
  | "build", [] => some (.build standardDump standardOutput)
  | "build", [dump] => some (.build dump standardOutput)
  | "build", [dump, output] => some (.build dump output)
  | "diff", [old, new] => some (.diff old new json)
  | "inspect", [schema] => some (.inspect schema json)
  | "validate", [] =>
    match valuesOf "--schema" items, valuesOf "--data" items with
    | [schema], [data] => some (.validate schema data json)
    | _, _ => none
  | _, _ => none

end Command

namespace Request

open Command

-- Reads the arguments behind the name of a command, after the `config` given before it. One given
-- behind the name counts more.
def ofCommand (config : Option String) (name : String) (options : Options)
    (arguments : List String) : Request :=
  let items := options.items arguments
  if areSound items then
    match ofItems? name items with
    | some command => run ((valuesOf "--config" items).head?.orElse fun _ => config) command
    | none => usage
  else usage

-- Whether single letters behind a dash come to the one that asks for the version. At most one of the
-- letters before it stands for `--verbose`, and none if that was given.
def asksVersion (verbose : Bool) : List Char → Bool
  | '-' :: 'V' :: _ => true
  | '-' :: 'v' :: 'V' :: _ => !verbose
  | _ => false

-- Reads the arguments from before the name of a command on.
def readFrom (config : Option String) (verbose : Bool) : List String → Request
  | [] => usage
  | text :: rest =>
    match optionsOf? text, general.item text with
    | some options, _ => ofCommand config text options rest
    | none, .flag _ => if verbose then usage else readFrom config true rest
    | none, .option _ value => if config.isSome then usage else readFrom (some value) verbose rest
    | none, _ =>
      if text = "--version" || asksVersion verbose text.toList then version
      else if text = "--config" then
        match rest with
        | value :: rest =>
          if config.isNone && isValue value then readFrom (some value) verbose rest else usage
        | [] => usage
      else usage

def read (arguments : List String) : Request :=
  readFrom none false arguments

end Request

end TypeAtlas
