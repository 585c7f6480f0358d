import TypeAtlas.NameMap
import TypeAtlas.Text.Search

namespace TypeAtlas

structure Rules where
  primitiveTypes : NameSet
  stringTypes : NameSet
  localizedTextTypes : NameSet
  externalAssetTypes : NameSet
  -- Bases where inheritance ends.
  terminalRootTypes : NameSet
  frameworkTypes : NameSet
  templateSuffix : String
  templateExcludedParts : List String
  templateExcludedNames : NameSet
  generatedFieldStarts : List String
  generatedFieldMarkers : List String
  -- Fields that embedded classes do not keep, such as a reference back to the owner.
  embeddedSkipFields : NameSet
  deriving DecidableEq

namespace Rules

def standard : Rules where
  primitiveTypes := .ofNames ["int", "Int32", "uint", "UInt32", "float", "Single", "bool", "Boolean",
    "byte", "Byte", "sbyte", "SByte", "short", "Int16", "ushort", "UInt16", "long", "Int64",
    "ulong", "UInt64", "double", "Double"]
  stringTypes := .ofNames ["string", "String"]
  localizedTextTypes := .ofNames ["LocalizedLine", "LocalizedMultiLine"]
  externalAssetTypes := .ofNames ["Sprite", "Texture2D", "Material", "Mesh", "AudioClip",
    "AnimationClip", "GameObject", "RuntimeAnimatorController"]
  terminalRootTypes := .ofNames ["ScriptableObject", "MonoBehaviour", "Object",
    "SerializedScriptableObject"]
  frameworkTypes := .ofNames ["Transform", "Component", "Color", "Vector2", "Vector3", "Vector4",
    "Quaternion", "Rect", "Bounds"]
  templateSuffix := "Template"
  templateExcludedParts := ["Uxml"]
  templateExcludedNames := .ofNames ["DataTemplateLoader"]
  generatedFieldStarts := ["NativeFieldInfoPtr", "Il2Cpp"]
  generatedFieldMarkers := ["k__BackingField"]
  embeddedSkipFields := .ofNames ["Parent"]

-- The names that are never looked up as embedded classes.
def skipTypes (rules : Rules) : NameSet :=
  .union [rules.primitiveTypes, rules.stringTypes, rules.localizedTextTypes,
    rules.externalAssetTypes, rules.terminalRootTypes, rules.frameworkTypes]

-- Whether a class is a template by its name. Nested classes are none.
def isTemplateName (rules : Rules) (name : String) : Bool :=
  Text.endsWith name rules.templateSuffix && !name.toList.contains '.' &&
    !rules.templateExcludedParts.any (Text.holds name) && !rules.templateExcludedNames.contains name

-- Whether a field was made by a compiler or decompiler.
def isGeneratedField (rules : Rules) (name : String) : Bool :=
  rules.generatedFieldStarts.any (Text.startsWith name) ||
    rules.generatedFieldMarkers.any (Text.holds name)

def isTerminalRoot (rules : Rules) (name : String) : Bool :=
  rules.terminalRootTypes.contains name

end Rules

end TypeAtlas
