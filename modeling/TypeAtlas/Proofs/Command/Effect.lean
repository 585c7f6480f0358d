import TypeAtlas.Proofs.Command.Action
import TypeAtlas.Proofs.Dump.Nesting

namespace TypeAtlas.Command

open FileAccess
open FileTree (KeepsFiles)

-- Nothing stands in the way of a command: what it reads is there and well-formed, and what it writes
-- can be written.
def Unhindered (tree : FileTree) (config : Config) : Command → Prop
  | build dump output => ∃ bytes, tree.read dump = .ok bytes ∧ ∃ after,
      ((Schema.ofDumpBytes config.rules bytes).saveFile output : StateM FileTree _) tree =
        (.ok (), after)
  | diff old new _ => (∃ schema, HoldsSchema tree old schema) ∧ ∃ schema, HoldsSchema tree new schema
  | validate schema data _ =>
    (∃ loaded, HoldsSchema tree schema loaded) ∧ tree.kind? data = some .directory
  | inspect schema _ => ∃ loaded, HoldsSchema tree schema loaded

-- What a run needs: a configuration under which nothing stands in the way of its command.
def Prepared [Config.YamlReader] (tree : FileTree) (option : Option String) (command : Command) :
    Prop :=
  ∃ config, Configured tree option config ∧ command.Unhindered tree config

variable {tree after : FileTree} {config : Config} {outcome : Outcome}

-- A command that nothing stands in the way of ends with an outcome and without a message.
theorem act_of_unhindered {command : Command} (h : command.Unhindered tree config) :
    ∃ outcome after, (command.act config : Action (StateM FileTree) Outcome).run.run tree =
      (.ok outcome, after) := by
  cases command with
  | build dump output =>
      obtain ⟨bytes, hread, after, hsave⟩ := h
      exact ⟨_, after, buildSchema_eq_ok_iff.mpr ⟨bytes, hread, hsave, rfl⟩⟩
  | diff old new json =>
      obtain ⟨⟨oldSchema, hold⟩, newSchema, hnew⟩ := h
      exact ⟨_, tree, diffSchemas_eq_ok_iff.mpr ⟨_, _, hold, hnew, rfl, rfl⟩⟩
  | validate schema data json =>
      obtain ⟨⟨loaded, hholds⟩, hkind⟩ := h
      have hvalidate := validate_onlyReads ⟨data⟩ loaded config.validation
      exact ⟨_, tree, validateData_eq_ok_iff.mpr
        ⟨loaded, hholds, hkind, rfl, _, hvalidate.run_eq rfl, rfl⟩⟩
  | inspect schema json =>
      obtain ⟨loaded, hholds⟩ := h
      exact ⟨_, tree, inspectSchema_eq_ok_iff.mpr ⟨loaded, hholds, rfl, rfl⟩⟩

theorem unhindered_of_act {command : Command}
    (h : (command.act config : Action (StateM FileTree) Outcome).run.run tree =
      (.ok outcome, after)) : command.Unhindered tree config ∧ outcome.errors = "" := by
  cases command with
  | build dump output =>
      obtain ⟨bytes, hread, hsave, rfl⟩ := buildSchema_eq_ok_iff.mp h
      exact ⟨⟨bytes, hread, after, hsave⟩, rfl⟩
  | diff old new json =>
      obtain ⟨oldSchema, newSchema, hold, hnew, -, rfl⟩ := diffSchemas_eq_ok_iff.mp h
      exact ⟨⟨⟨oldSchema, hold⟩, newSchema, hnew⟩, rfl⟩
  | validate schema data json =>
      obtain ⟨loaded, hholds, hkind, -, report, -, rfl⟩ := validateData_eq_ok_iff.mp h
      exact ⟨⟨⟨loaded, hholds⟩, hkind⟩, rfl⟩
  | inspect schema json =>
      obtain ⟨loaded, hholds, -, rfl⟩ := inspectSchema_eq_ok_iff.mp h
      exact ⟨⟨loaded, hholds⟩, rfl⟩

def IsBuild (command : Command) : Prop :=
  ∃ dump output, command = .build dump output

theorem act_onlyReads {command : Command} (h : ¬command.IsBuild) (config : Config) :
    OnlyReads (command.act config : Action (StateM FileTree) Outcome).run := by
  cases command with
  | build dump output => exact absurd ⟨dump, output, rfl⟩ h
  | diff old new json =>
      refine OnlyReads.bindExcept (loadSchema_onlyReads old) fun _ => ?_
      exact OnlyReads.bindExcept (loadSchema_onlyReads new) fun _ => OnlyReads.pure _
  | validate schema data json => exact validateData_onlyReads _ schema data json
  | inspect schema json =>
      exact OnlyReads.bindExcept (loadSchema_onlyReads schema) fun _ => OnlyReads.pure _

theorem act_eq_error {command : Command} {failure : Failure}
    (h : (command.act config : Action (StateM FileTree) Outcome).run.run tree =
      (.error failure, after)) : KeepsFiles [] tree after := by
  by_cases hbuild : command.IsBuild
  · obtain ⟨dump, output, rfl⟩ := hbuild
    exact buildSchema_eq_error h
  · have hsame := act_onlyReads hbuild config tree
    rw [h] at hsame
    exact hsame ▸ KeepsFiles.refl [] tree

variable [Config.YamlReader]

theorem start_onlyReads {command : Command} (h : ¬command.IsBuild) (option : Option String) :
    OnlyReads (command.start option : Action (StateM FileTree) Outcome).run :=
  OnlyReads.bindExcept (loadConfig_onlyReads option) fun config => act_onlyReads h config

theorem start_eq_ok_iff {option : Option String} {command : Command} :
    (command.start option : Action (StateM FileTree) Outcome).run.run tree =
        (.ok outcome, after) ↔
      ∃ config, Configured tree option config ∧
        (command.act config : Action (StateM FileTree) Outcome).run.run tree =
          (.ok outcome, after) := by
  rw [start, run_bind_eq_ok_iff]
  constructor
  · rintro ⟨config, middle, hload, hact⟩
    obtain ⟨hconfigured, rfl⟩ := loadConfig_eq_ok_iff.mp hload
    exact ⟨config, hconfigured, hact⟩
  · rintro ⟨config, hconfigured, hact⟩
    exact ⟨config, tree, loadConfig_eq_ok_iff.mpr ⟨hconfigured, rfl⟩, hact⟩

theorem start_eq_error {option : Option String} {command : Command} {failure : Failure}
    (h : (command.start option : Action (StateM FileTree) Outcome).run.run tree =
      (.error failure, after)) : KeepsFiles [] tree after := by
  have honly := loadConfig_onlyReads option tree
  rcases run_bind_eq_error h with hload | ⟨config, middle, hload, hact⟩
  · have hsame : after = tree := by rwa [hload] at honly
    exact hsame ▸ KeepsFiles.refl [] tree
  · obtain ⟨-, rfl⟩ := loadConfig_eq_ok_iff.mp hload
    exact act_eq_error hact

theorem Configured.unique {option : Option String} {other : Config}
    (h : Configured tree option config) (hother : Configured tree option other) : config = other := by
  have hload := loadConfig_eq_ok_iff.mpr ⟨h, rfl⟩
  have hloadOther := loadConfig_eq_ok_iff.mpr ⟨hother, rfl⟩
  cases hload.symm.trans hloadOther
  rfl

end TypeAtlas.Command

namespace TypeAtlas.Request

open Command
open FileTree (KeepsFiles)

-- The end of a run that met a problem: nothing but a message, and every file as it was.
structure FailsIn (tree : FileTree) (ended : Outcome × FileTree) : Prop where
  code : ended.1.code = 1
  output : ended.1.output = ""
  files : KeepsFiles [] tree ended.2

section

variable [Config.YamlReader]

-- What a request comes to in a tree: its outcome, and the tree it leaves.
def ended (usageText : String) (tree : FileTree) (request : Request) : Outcome × FileTree :=
  (request.perform usageText : StateM FileTree Outcome).run tree

variable {usageText : String} {tree after : FileTree} {option : Option String} {command : Command}

theorem ended_of_ok {outcome : Outcome}
    (h : (command.start option : Action (StateM FileTree) Outcome).run.run tree =
      (.ok outcome, after)) :
    (run option command).ended usageText tree = (outcome, after) := by
  have hstart : (command.start option : Action (StateM FileTree) Outcome).run tree =
      (.ok outcome, after) := h
  simp only [ended, perform, bind, StateT.run, StateT.bind, hstart]
  rfl

theorem ended_of_error {failure : Failure}
    (h : (command.start option : Action (StateM FileTree) Outcome).run.run tree =
      (.error failure, after)) :
    (run option command).ended usageText tree = (failure.outcome, after) := by
  have hstart : (command.start option : Action (StateM FileTree) Outcome).run tree =
      (.error failure, after) := h
  simp only [ended, perform, bind, StateT.run, StateT.bind, hstart]
  rfl

-- The end of a build of a schema: only the file that the output path leads to is new or changed, it
-- loads as the schema, and whoever inspects the file at any later time sees the counts that the build
-- printed.
structure BuildsIn (schema : Schema) (output : String) (tree : FileTree)
    (ended : Outcome × FileTree) : Prop where
  outcome : ended.1 =
    ⟨0, "Schema written to " ++ output ++ "\n" ++ schema.summaryText, ""⟩
  files : ∃ place bytes, ended.2.locate output = .ok place ∧ ended.2.file? place = some bytes ∧
    KeepsFiles [place] tree ended.2
  loads : (Schema.loadFile output : StateM FileTree _).run ended.2 = (.ok schema, ended.2)
  inspected : ∀ (later : FileTree) (option : Option String) (config : Config)
    (usageText : String) (json : Bool), later.read output = ended.2.read output →
    Configured later option config →
    (run option (.inspect output json)).ended usageText later =
      (⟨0, if json then schema.summaryValue.pretty ++ "\n"
        else "Schema: " ++ output ++ "\n" ++ schema.summaryText, ""⟩, later)

theorem ended_errors_eq_iff :
    ((run option command).ended usageText tree).1.errors = "" ↔ Prepared tree option command := by
  cases hstart : (command.start option : Action (StateM FileTree) Outcome).run.run tree with
  | mk result after =>
      cases result with
      | error failure =>
          have hmessage : failure.outcome.errors ≠ "" := by
            simp [Failure.outcome]
          rw [ended_of_error hstart]
          refine iff_of_false hmessage ?_
          rintro ⟨config, hconfigured, hunhindered⟩
          obtain ⟨outcome, _, hact⟩ := act_of_unhindered hunhindered
          cases hstart.symm.trans (start_eq_ok_iff.mpr ⟨config, hconfigured, hact⟩)
      | ok outcome =>
          obtain ⟨config, hconfigured, hact⟩ := start_eq_ok_iff.mp hstart
          obtain ⟨hunhindered, herrors⟩ := unhindered_of_act hact
          rw [ended_of_ok hstart]
          exact iff_of_true herrors ⟨config, hconfigured, hunhindered⟩

theorem failsIn_of_not_prepared (h : ¬Prepared tree option command) :
    FailsIn tree ((run option command).ended usageText tree) := by
  cases hstart : (command.start option : Action (StateM FileTree) Outcome).run.run tree with
  | mk result after =>
      cases result with
      | error failure =>
          rw [ended_of_error hstart]
          exact ⟨rfl, rfl, start_eq_error hstart⟩
      | ok outcome =>
          obtain ⟨config, hconfigured, hact⟩ := start_eq_ok_iff.mp hstart
          exact absurd ⟨config, hconfigured, (unhindered_of_act hact).1⟩ h

theorem ended_snd_of_not_build (h : ¬command.IsBuild) :
    ((run option command).ended usageText tree).2 = tree := by
  have honly := start_onlyReads h option tree
  cases hstart : (command.start option : Action (StateM FileTree) Outcome).run.run tree with
  | mk result after =>
      have hsame : after = tree := by rwa [hstart] at honly
      cases result with
      | error failure => rw [ended_of_error hstart, hsame]
      | ok outcome => rw [ended_of_ok hstart, hsame]

theorem buildsIn_of_prepared {dump output : String} {config : Config} {bytes : List UInt8}
    (hconfigured : Configured tree option config) (hread : tree.read dump = .ok bytes)
    (h : Prepared tree option (.build dump output)) :
    BuildsIn (Schema.ofDumpBytes config.rules bytes) output tree
      ((run option (.build dump output)).ended usageText tree) := by
  obtain ⟨other, hother, found, hfound, after, hsave⟩ := h
  cases hconfigured.unique hother
  cases hread.symm.trans hfound
  have hact : (act (.build dump output) config : Action (StateM FileTree) Outcome).run.run tree =
      _ := buildSchema_eq_ok_iff.mpr ⟨bytes, hread, hsave, rfl⟩
  rw [ended_of_ok (start_eq_ok_iff.mpr ⟨config, hconfigured, hact⟩)]
  have hload := Schema.loadFile_of_saveFile hsave
  constructor
  case outcome => rfl
  case files => exact saveFile_eq_ok hsave
  case loads => exact hload
  case inspected =>
    intro later option config usageText json hlater hconfigured
    obtain ⟨⟨text, htext, hschema⟩, -⟩ := loadFile_eq_ok_iff.mp hload
    have hholds : HoldsSchema later output _ := ⟨text, hlater.trans htext, hschema⟩
    have hinspect : (act (.inspect output json) config :
        Action (StateM FileTree) Outcome).run.run later = _ :=
      inspectSchema_eq_ok_iff.mpr ⟨_, hholds, rfl, rfl⟩
    exact ended_of_ok (start_eq_ok_iff.mpr ⟨config, hconfigured, hinspect⟩)

-- What a run of a command line does to the files around it. It is a success, without a message,
-- exactly if it finds all that it needs; otherwise it fails. Only builds touch files at all.
theorem effect_of_read {arguments : List String} (h : read arguments = run option command)
    (usageText : String) (tree : FileTree) :
    (((read arguments).ended usageText tree).1.errors = "" ↔ Prepared tree option command) ∧
      (¬Prepared tree option command → FailsIn tree ((read arguments).ended usageText tree)) ∧
      (¬command.IsBuild → ((read arguments).ended usageText tree).2 = tree) ∧
      ∀ dump output config bytes, command = .build dump output → Configured tree option config →
        tree.read dump = .ok bytes → Prepared tree option command →
        BuildsIn (Schema.ofDumpBytes config.rules bytes) output tree
          ((read arguments).ended usageText tree) := by
  rw [h]
  refine ⟨ended_errors_eq_iff, failsIn_of_not_prepared, ended_snd_of_not_build, ?_⟩
  rintro dump output config bytes rfl hconfigured hread hprepared
  exact buildsIn_of_prepared hconfigured hread hprepared

end

def dumpBytes : List UInt8 :=
  Text.encode ("class UnitDef ".toList ++ Dump.braced "\npublic int hp; // 0x10\n".toList)

def rulesText : List Char :=
  "rules:\n  template_suffix: Def\n".toList

def noRulesText : List Char :=
  "rules: ~\n".toList

-- A dump with a configuration by which its class is a template, and with one that is none.
def dumpTree : FileTree :=
  ⟨[(["dump.cs"], .file dumpBytes), (["rules.yaml"], .file (Text.encode rulesText)),
    (["none.yaml"], .file (Text.encode noRulesText))]⟩

def defRules : Rules :=
  { Rules.standard with templateSuffix := "Def" }

theorem rulesText_read :
    ∃ config, Config.YamlReader.read rulesText = .ok config ∧ config.rules = defRules := by
  have hrules : (Config.readYaml? rulesText).map Config.rules = some defRules := by
    dsimp only [rulesText, String.reduceToList]
    decide +kernel
  obtain ⟨config, hread, hrules⟩ := Option.map_eq_some_iff.mp hrules
  exact ⟨config, by simp only [Config.YamlReader.read, hread], hrules⟩

theorem noRulesText_read : Config.YamlReader.read noRulesText = .error "invalid document" := by
  have hnone : Config.readYaml? noRulesText = none := by
    apply Option.isNone_iff_eq_none.mp
    dsimp only [noRulesText, String.reduceToList]
    decide +kernel
  simp only [Config.YamlReader.read, hnone]

-- The rules that one file gives in YAML count for the build, and the file without rules stops it.
theorem effect_of_build_dump :
    (Schema.ofDumpBytes defRules dumpBytes).templates.contains "UnitDef" = true ∧
      BuildsIn (Schema.ofDumpBytes defRules dumpBytes) "out/schema.json" dumpTree
        ((read ["--config", "rules.yaml", "build", "dump.cs", "out/schema.json"]).ended ""
          dumpTree) ∧
      FailsIn dumpTree
        ((read ["--config", "none.yaml", "build", "dump.cs", "out/schema.json"]).ended ""
          dumpTree) := by
  have hread : ∀ config ∈ ["rules.yaml", "none.yaml"],
      read ["--config", config, "build", "dump.cs", "out/schema.json"] =
        run (some config) (.build "dump.cs" "out/schema.json") := by decide +kernel
  have hyaml : ∀ path ∈ ["rules.yaml", "none.yaml"],
      Config.Format.ofPath? path = some .yaml := by decide +kernel
  refine ⟨?_, ?_, ?_⟩
  · dsimp only [dumpBytes, String.reduceToList]
    decide +kernel
  · obtain ⟨config, htext, hrules⟩ := rulesText_read
    have hconfigured : Configured dumpTree (some "rules.yaml") config :=
      .file (hyaml "rules.yaml" (by decide)) rfl (by simp only [Config.ofText, htext])
    have hprepared : Prepared dumpTree (some "rules.yaml") (.build "dump.cs" "out/schema.json") :=
      ⟨config, hconfigured, dumpBytes, rfl, _, rfl⟩
    rw [← hrules]
    exact (effect_of_read (hread "rules.yaml" (by decide)) "" dumpTree).2.2.2 _ _ config _ rfl
      hconfigured rfl hprepared
  · refine (effect_of_read (hread "none.yaml" (by decide)) "" dumpTree).2.1 ?_
    rintro ⟨config, hconfigured, -⟩
    cases hconfigured with
    | file hformat htext hread =>
        cases hformat.symm.trans (hyaml "none.yaml" (by decide))
        have hbytes : dumpTree.read "none.yaml" = .ok (Text.encode noRulesText) := rfl
        obtain rfl := Text.eq_of_encode_eq (Except.ok.inj (hbytes.symm.trans htext))
        simp only [Config.ofText, noRulesText_read] at hread
        cases hread

end TypeAtlas.Request
