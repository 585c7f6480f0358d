import TypeAtlas.Event
import TypeAtlas.Validation.Check

namespace TypeAtlas

inductive Verdict
  | pass
  | warn
  | fail
  deriving DecidableEq, Repr

namespace Verdict

def label : Verdict → String
  | pass => "PASS"
  | warn => "WARN"
  | fail => "FAIL"

def exitCode : Verdict → Nat
  | pass => 0
  | warn => 1
  | fail => 2

end Verdict

structure Validation where
  coverage : List Validation.Check
  naming : List Validation.Check
  fieldCoverage : List Validation.Check
  typeValidation : List Validation.Check
  -- No template that can have instances has a file, so only the first check was made.
  noData : Bool

namespace Validation

open Json (Value)

-- The files of the templates that can have instances.
def load (schema : Schema) (source : String → Option InstanceFile) : Files :=
  .ofList (schema.concrete.names.filterMap fun name => (source name).map fun file => (name, file))

def run (schema : Schema) (source : String → Option InstanceFile) (thresholds : Thresholds) :
    Validation :=
  let files := load schema source
  let coverage := checkCoverage schema files thresholds
  if files.isEmpty then ⟨coverage, [], [], [], true⟩
  else
    ⟨coverage, checkNames files thresholds, checkFields schema files thresholds,
      checkTypes schema files thresholds, false⟩

def events (report : Validation) : List Event :=
  if report.noData then [.noInstances] else []

-- The sections with their titles, in the order of a report.
def sections (report : Validation) : List (String × List Check) :=
  [("Template Coverage", report.coverage), ("Instance Names", report.naming),
    ("Field Coverage", report.fieldCoverage), ("Type Validation", report.typeValidation)]

def checks (report : Validation) : List Check :=
  report.coverage ++ report.naming ++ report.fieldCoverage ++ report.typeValidation

def count (report : Validation) (level : Level) : Nat :=
  report.checks.countP fun check => check.level = level

def verdict (report : Validation) : Verdict :=
  if report.noData || 0 < report.count .fail then .fail
  else if 0 < report.count .warn then .warn
  else .pass

def sectionValue (checks : List Check) : Value :=
  Level.scale.values (checks.map Check.record)

def members (report : Validation) : List (String × Value) :=
  [("coverage", sectionValue report.coverage), ("naming", sectionValue report.naming),
    ("field_coverage", sectionValue report.fieldCoverage),
    ("type_validation", sectionValue report.typeValidation), ("no_data", .bool report.noData)]

-- The report with its verdict and counts in front.
def value (report : Validation) : Value :=
  .obj ([("verdict", .str report.verdict.label), ("fail", .whole (report.count .fail)),
    ("warn", .whole (report.count .warn))] ++ report.members)

def sectionText (report : Validation) (title : String) (checks : List Check) : String :=
  if report.noData && checks.isEmpty then ""
  else "\n--- " ++ title ++ " ---\n" ++ Level.scale.lines (checks.map Check.record)

-- The report on data and a schema that stand at the given paths.
def text (report : Validation) (schemaPath dataPath : String) : String :=
  "=== Extraction Validation Report ===\n" ++
    "Schema: " ++ schemaPath ++ "\n" ++ "Data:   " ++ dataPath ++ "\n" ++
    String.join (report.sections.map fun (title, checks) => report.sectionText title checks) ++
    if report.noData then "\nNo extracted data found. Cannot run further checks.\n"
    else
      "\n=== OVERALL: " ++ toString (report.count .fail) ++ " FAIL, " ++
        toString (report.count .warn) ++ " WARN ===\n"

end Validation

end TypeAtlas
