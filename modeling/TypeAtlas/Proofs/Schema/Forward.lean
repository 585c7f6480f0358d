import TypeAtlas.Proofs.Schema.RoundTrip

namespace TypeAtlas.Schema

open Json

-- The text is read as the schema, and so is every file that holds it.
def LoadsFrom (schema : Schema) (text : List Char) : Prop :=
  readText text = .ok schema ∧
    ∀ (path : String) (tree : FileTree),
      (FileAccess.readText path : StateM FileTree _) tree = (.ok text, tree) →
      (loadFile path : StateM FileTree _) tree = (.ok schema, tree)

theorem loadsFrom_of_read {schema : Schema} {node : Node} (hform : schema.Form node)
    {text : List Char} (htext : Document.read text = ⟨node, true⟩) : schema.LoadsFrom text := by
  have hread : readText text = .ok schema := by
    rw [readText, htext, Document.decode, accepts schema node hform (whole_of_read htext)]
    rfl
  exact ⟨hread, fun path tree hfile => loadFile_of_readText hfile hread⟩

-- A schema is read from its own object and from any other of its form: with other members besides and
-- in another order, with older names and tags, without what has its default. Members that nobody asks
-- for may even hold what reads as no value, such as half of a surrogate pair; `Spells` leaves those
-- texts out.
theorem load_of_form (schema : Schema) :
    schema.Form schema.value.node ∧
      ∀ node, schema.Form node →
        (∀ before text after, Blank before → Spells text node → Blank after →
          schema.LoadsFrom (before ++ text ++ after)) ∧
        ∀ text, Document.read text = ⟨node, true⟩ → schema.LoadsFrom text := by
  refine ⟨schema.form_value, ?_⟩
  intro node hform
  refine ⟨?_, fun text htext => loadsFrom_of_read hform htext⟩
  intro before text after hbefore htext hafter
  exact loadsFrom_of_read hform (read_of_spells htext hbefore hafter)

def iconField : Field :=
  ⟨"Icon", "Sprite", "0x10", .externalAsset, none⟩

def iconObject : Value :=
  .obj [("tooltip", .null), ("category", .str "unity_asset"), ("offset", .str "0x10"),
    ("type", .str "Sprite"), ("name", .str "Icon")]

theorem iconObject_form : iconField.Form iconObject.node :=
  recordForm_reverse
    [("name", .str "Icon"), ("type", .str "Sprite"), ("offset", .str "0x10"),
      ("category", .str "unity_asset")]
    [("tooltip", .null)]
    (.given (.head _) rfl <| .given (.head _) rfl <| .given (.head _) rfl <|
      .given (.head _) ⟨_, .olderAsset, rfl⟩ <| .lacking rfl .nil)
    (by decide)

def oddField : Field :=
  ⟨"Odd", "Thing", "0x20", .unknown, none⟩

def oddObject : Value :=
  .obj [("name", .str "Odd"), ("declared_type", .str "Thing"), ("offset", .str "0x20"),
    ("category", .str "hologram")]

theorem oddObject_form : oddField.Form oddObject.node := by
  have hnone : ∀ category : Category, "hologram" ≠ category.tag := by
    intro category
    cases category <;> decide
  apply recordForm_of_gives
  exact .given (.head _) rfl <| .given (.tail _ (.head _)) rfl <| .given (.head _) rfl <|
    .given (.head _) ⟨_, .unrecognized hnone (by decide) (by decide), rfl⟩ <| .lacking rfl .nil

def oldTemplate : Template :=
  ⟨none, false, [iconField, oddField]⟩

def oldObject : Value :=
  .obj [("pages", .arr [.whole 7]), ("fields", .arr [iconObject, oddObject]),
    ("is_abstract", .bool false)]

theorem oldObject_form : oldTemplate.Form oldObject.node :=
  recordForm_reverse
    [("is_abstract", .bool false), ("fields", .arr [iconObject, oddObject])]
    [("pages", .arr [.whole 7])]
    (.lacking rfl <| .given (.head _) rfl <|
      .given (.head _) ⟨_, rfl, .cons iconObject_form (.cons oddObject_form .nil)⟩ .nil)
    (by decide)

def olderSchema : Schema :=
  { empty with version := "1.0.0", hash := "abc", templates := .ofList [("Old", oldTemplate)] }

-- Members in another order, unknown ones on three levels, no base and no maps that are empty, an
-- older name, and an older and an unknown tag.
def olderObject : Value :=
  .obj [("generator", .obj [("name", .str "older")]), ("templates", .obj [("Old", oldObject)]),
    ("dump_hash", .str "abc"), ("version", .str "1.0.0")]

theorem olderObject_form : olderSchema.Form olderObject.node :=
  recordForm_reverse
    [("version", .str "1.0.0"), ("dump_hash", .str "abc"),
      ("templates", .obj [("Old", oldObject)])]
    [("generator", .obj [("name", .str "older")])]
    (.given (.head _) rfl <| .given (.head _) rfl <| .lacking rfl <| .lacking rfl <| .lacking rfl <|
      .given (.head _) ⟨_, _, rfl, .refl _, .cons ⟨rfl, oldObject_form⟩ .nil⟩ <| .lacking rfl .nil)
    (by decide)

theorem load_of_form_older :
    olderSchema.Form olderObject.node ∧
      Spells (olderObject.write .indented 0) olderObject.node ∧
      olderSchema.LoadsFrom (['\n'] ++ olderObject.write .indented 0 ++ []) ∧
      Document.read olderObject.pretty.toList = ⟨olderObject.node, true⟩ ∧
      olderSchema.LoadsFrom olderObject.pretty.toList := by
  have hspells := spells_write Layout.indented_isBlank 0 olderObject rfl
  have hread := read_pretty olderObject rfl
  obtain ⟨hspelled, hclean⟩ := (load_of_form olderSchema).2 olderObject.node olderObject_form
  have hblank : Blank ['\n'] := List.forall_mem_singleton.mpr rfl
  exact ⟨olderObject_form, hspells, hspelled _ _ [] hblank hspells blank_nil, hread,
    hclean _ hread⟩

end TypeAtlas.Schema
