import TypeAtlas.Config.Setting
import TypeAtlas.Json.Printer
import TypeAtlas.Json.Record

namespace TypeAtlas.Config

open Json (Node Problem Value Reader)

variable {σ α : Type}

-- Reads a value into its place.
def Place.read (place : Place σ α) (read : Reader α) (node : Node) (s : σ) : Except Problem σ :=
  (read node).map fun value => place.set value s

def Slot.read : Slot σ → Node → σ → Except Problem σ
  | names place => place.read fun node => (Reader.list Reader.str node).map NameSet.ofNames
  | texts place => place.read (Reader.list Reader.str)
  | text place => place.read Reader.str
  | ratio place => place.read Reader.float
  | count place => place.read Reader.count

def Slot.value (s : σ) : Slot σ → Value
  | names place => .names (place.get s).names
  | texts place => .names (place.get s)
  | text place => .str (place.get s)
  | ratio place => .float (place.get s)
  | count place => .whole (place.get s)

def Setting.field (setting : Setting σ) : Json.Field σ :=
  ⟨setting.key, [], .defaulted, setting.slot.read⟩

-- A setting that is not given keeps the value it has.
def readSettings (settings : List (Setting σ)) (start : σ) : Reader σ :=
  Json.Field.record (settings.map Setting.field) start

def settingsValue (settings : List (Setting σ)) (s : σ) : Value :=
  .obj (settings.map fun setting => (setting.key, setting.slot.value s))

def fields : List (Json.Field Config) :=
  [⟨"rules", [], .defaulted, fun node c =>
      (readSettings ruleSettings .standard node).map fun rules => { c with rules := rules }⟩,
   ⟨"validation", [], .defaulted, fun node c =>
      (readSettings thresholdSettings .standard node).map fun validation =>
        { c with validation := validation }⟩]

def read : Reader Config :=
  Json.Field.record fields .standard

def readText (text : List Char) : Except Problem Config :=
  (Json.Document.read text).decode read

def value (config : Config) : Value :=
  .obj [("rules", settingsValue ruleSettings config.rules),
    ("validation", settingsValue thresholdSettings config.validation)]

end TypeAtlas.Config
