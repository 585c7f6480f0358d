import TypeAtlas.Proofs.Files.Tree
import TypeAtlas.Proofs.Schema.Form
import TypeAtlas.Schema.File

namespace TypeAtlas.Schema

open Json Json.Reader

theorem Field.inverts : Inverts Field.read Field.value := by
  refine inverts_of_accepts Field.accepts Field.form_value ?_
  rintro ⟨name, declaredType, offset, category, element⟩
  cases element <;> rfl

theorem Enum.inverts : Inverts Enum.read Enum.value := by
  refine inverts_of_accepts Enum.accepts Enum.form_value ?_
  intro enum
  exact (Bool.and_true _).trans ((map_inverts int64_inverts).exact enum.values)

theorem Struct.inverts : Inverts Struct.read Struct.value := by
  refine inverts_of_accepts Struct.accepts Struct.form_value ?_
  intro struct
  exact (Bool.and_true _).trans ((list_inverts Field.inverts).exact struct.fields)

theorem Template.inverts : Inverts Template.read Template.value := by
  refine inverts_of_accepts Template.accepts Template.form_value ?_
  intro template
  have hbase := optional_str_inverts.exact template.base
  have hfields := (list_inverts Field.inverts).exact template.fields
  simp only [Template.value, Value.isExact, Value.areExactMembers] at *
  simp [hbase, hfields]

theorem EmbeddedClass.inverts : Inverts EmbeddedClass.read EmbeddedClass.value := by
  refine inverts_of_accepts EmbeddedClass.accepts EmbeddedClass.form_value ?_
  intro embedded
  have hbase := optional_str_inverts.exact embedded.base
  have hfields := (list_inverts Field.inverts).exact embedded.fields
  simp only [EmbeddedClass.value, Value.isExact, Value.areExactMembers] at *
  simp [hbase, hfields]

theorem inverts : Inverts read value := by
  refine inverts_of_accepts accepts form_value ?_
  intro schema
  have henums := (map_inverts Enum.inverts).exact schema.enums
  have hstructs := (map_inverts Struct.inverts).exact schema.structs
  have hembedded := (map_inverts EmbeddedClass.inverts).exact schema.embedded
  have htemplates := (map_inverts Template.inverts).exact schema.templates
  have hinheritance := (map_inverts names_inverts).exact schema.inheritance
  simp only [value, mapValue, Value.isExact, Value.areExactMembers] at *
  simp [henums, hstructs, hembedded, htemplates, hinheritance]

theorem readText_fileText (schema : Schema) : readText schema.fileText.toList = .ok schema :=
  inverts.decode_pretty schema

theorem loadFile_of_readText {schema : Schema} {path : String} {tree : FileTree} {text : List Char}
    (hfile : (FileAccess.readText path : StateM FileTree _) tree = (.ok text, tree))
    (hread : readText text = .ok schema) :
    (loadFile path : StateM FileTree _) tree = (.ok schema, tree) := by
  simp only [loadFile, bind, StateT.bind, hfile, hread]
  rfl

theorem loadFile_of_saveFile {schema : Schema} {path : String} {tree after : FileTree}
    (h : (schema.saveFile path : StateM FileTree _) tree = (.ok (), after)) :
    (loadFile path : StateM FileTree _) after = (.ok schema, after) := by
  cases hwrite : (FileAccess.save path schema.fileText : StateM FileTree _) tree with
  | mk result written =>
      cases result with
      | error fault =>
          simp only [saveFile, bind, StateT.bind, hwrite] at h
          cases h
      | ok =>
          simp only [saveFile, bind, StateT.bind, hwrite] at h
          cases h
          exact loadFile_of_readText (FileAccess.readText_of_save hwrite) (readText_fileText schema)

-- A schema is read back from the text of its file, and from a file it was saved to.
theorem load_of_save (schema : Schema) :
    readText schema.fileText.toList = .ok schema ∧
      ∀ (path : String) (tree after : FileTree),
        (schema.saveFile path : StateM FileTree _) tree = (.ok (), after) →
        (loadFile path : StateM FileTree _) after = (.ok schema, after) := by
  refine ⟨readText_fileText schema, ?_⟩
  intro path tree after hsave
  exact loadFile_of_saveFile hsave

def rankSchema : Schema :=
  { empty with enums := .ofList [("Rank", ⟨"int", .ofList [("\x22low\x22", -1), ("top\n", 7)]⟩)] }

theorem load_of_save_rank :
    ∃ after, (rankSchema.saveFile "schema.json" : StateM FileTree _) .empty = (.ok (), after) ∧
      (loadFile "schema.json" : StateM FileTree _) after = (.ok rankSchema, after) :=
  ⟨_, rfl, (load_of_save rankSchema).2 "schema.json" .empty _ rfl⟩

end TypeAtlas.Schema
