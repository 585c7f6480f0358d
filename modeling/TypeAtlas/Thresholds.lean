import TypeAtlas.NameMap

namespace TypeAtlas

structure Thresholds where
  -- Least share of templates with data for a warning.
  coverageWarnRatio : Float
  -- Least share of named instances for a warning.
  namingWarnRatio : Float
  -- Least shares of fields for a pass and for a warning.
  fieldPassRatio : Float
  fieldWarnRatio : Float
  -- How many instances of a file have their values checked.
  typeCheckSample : Nat
  -- The magnitude beyond which a number is no plausible value.
  garbageFloatMagnitude : Float
  -- What the names of unnamed instances begin with.
  placeholderNameStart : String
  -- Keys of instances that are no fields.
  ignoredInstanceKeys : NameSet
  -- How many details a record lists.
  maxDetailLines : Nat

def Thresholds.standard : Thresholds where
  coverageWarnRatio := 0.70
  namingWarnRatio := 0.50
  fieldPassRatio := 0.90
  fieldWarnRatio := 0.60
  typeCheckSample := 50
  garbageFloatMagnitude := 1e10
  placeholderNameStart := "unknown_"
  ignoredInstanceKeys := .ofNames ["name", "_template_type"]
  maxDetailLines := 5

end TypeAtlas
