import TypeAtlas.Proofs.Schema.WellFormed

namespace TypeAtlas.Schema

open Dump

-- A name that can stand for an embedded class: it is declared as a class that is not abstract and
-- keeps fields.
def Embeddable (rules : Rules) (index : Index) (name : String) : Prop :=
  ∃ d, index.get? .classType name = some d ∧ d.isAbstract = false ∧ ownFields rules d ≠ []

-- The elements that a field calls for: those of its collection that the schema does not know, may embed
-- and can embed.
def Field.CallsFor (rules : Rules) (index : Index) (schema : Schema) (field : Field)
    (element : String) : Prop :=
  field.IsCollectionOf element ∧ Wanted rules schema element ∧ Embeddable rules index element

def Field.ElementsEmbedded (rules : Rules) (index : Index) (schema : Schema)
    (field : Field) : Prop :=
  ∀ element, field.CallsFor rules index schema element → schema.embedded.contains element = true

variable {rules : Rules} {text : List Char}

theorem embeddable_iff {index : Index} {schema : Schema} {name : String} :
    Embeddable rules index name ↔ ∃ c, Embeds rules index schema name c := by
  constructor
  · rintro ⟨d, hget, habstract, hfields⟩
    exact ⟨_, d, hget, habstract, hfields, rfl⟩
  · rintro ⟨c, d, hget, habstract, hfields, -⟩
    exact ⟨d, hget, habstract, hfields⟩

-- The embedded classes are those that the search reaches and that can be embedded.
theorem contains_embedded_iff {name : String} :
    (ofDump rules text).embedded.contains name = true ↔
      Reached rules (Index.scan text) (ofDump rules text) name ∧
        Embeddable rules (Index.scan text) name := by
  simp only [NameMap.contains_iff, embedded_eq_some_iff, exists_and_left, ← embeddable_iff]

theorem elementsEmbedded_iff {field : Field} :
    field.ElementsEmbedded rules (Index.scan text) (ofDump rules text) ↔
      ∀ element, field.CallsFor rules (Index.scan text) (ofDump rules text) element →
        Reached rules (Index.scan text) (ofDump rules text) element := by
  refine forall₂_congr fun element hcalls => ?_
  rw [contains_embedded_iff]
  exact and_iff_left hcalls.2.2

theorem elementsEmbedded_of_template {name : String} {t : Template} {field : Field}
    (ht : (ofDump rules text).templates.get? name = some t) (hfield : field ∈ t.fields) :
    field.ElementsEmbedded rules (Index.scan text) (ofDump rules text) := by
  rw [elementsEmbedded_iff]
  rintro element ⟨helement, hwanted, -⟩
  exact .ofTemplate ht hfield helement hwanted

-- What the search has found, it searches further.
theorem elementsEmbedded_of_embedded {name : String} {c : EmbeddedClass} {field : Field}
    (hc : (ofDump rules text).embedded.get? name = some c) (hfield : field ∈ c.fields) :
    field.ElementsEmbedded rules (Index.scan text) (ofDump rules text) := by
  obtain ⟨hreached, hembeds⟩ := embedded_eq_some_iff.mp hc
  rw [elementsEmbedded_iff]
  rintro element ⟨helement, hwanted, -⟩
  exact .ofEmbedded hreached hembeds hfield helement hwanted

-- The fields of templates and of embedded classes find the elements of their collections embedded. A
-- schema is closed under the elements of all its collections just when those that its structs call for
-- are also reached from its templates, since no struct is searched.
theorem elementsEmbedded_of_searched (rules : Rules) (text : List Char) :
    (∀ name t, (ofDump rules text).templates.get? name = some t →
      ∀ field ∈ t.fields, field.ElementsEmbedded rules (Index.scan text) (ofDump rules text)) ∧
    (∀ name c, (ofDump rules text).embedded.get? name = some c →
      ∀ field ∈ c.fields, field.ElementsEmbedded rules (Index.scan text) (ofDump rules text)) ∧
    ((∀ field, (ofDump rules text).HasField field →
        field.ElementsEmbedded rules (Index.scan text) (ofDump rules text)) ↔
      ∀ name s, (ofDump rules text).structs.get? name = some s → ∀ field ∈ s.fields,
        ∀ element, field.CallsFor rules (Index.scan text) (ofDump rules text) element →
          Reached rules (Index.scan text) (ofDump rules text) element) := by
  refine ⟨fun name t ht field hfield => elementsEmbedded_of_template ht hfield,
    fun name c hc field hfield => elementsEmbedded_of_embedded hc hfield, ?_⟩
  constructor
  · intro hclosed name s hs field hfield
    exact elementsEmbedded_iff.mp (hclosed field (.inStruct hs hfield))
  · intro hstructs field hfield
    cases hfield with
    | inStruct hs hfield => exact elementsEmbedded_iff.mpr (hstructs _ _ hs _ hfield)
    | inTemplate ht hfield => exact elementsEmbedded_of_template ht hfield
    | inEmbedded hc hfield => exact elementsEmbedded_of_embedded hc hfield

-- Without templates there is nothing to search.
theorem not_reached {index : Index} {schema : Schema} (h : schema.templates = .empty)
    (name : String) : ¬Reached rules index schema name := by
  intro hreached
  induction hreached with
  | ofTemplate ht =>
      rw [h] at ht
      cases ht
  | ofEmbedded _ _ _ _ _ ih => exact ih

-- The list of a struct calls for a class that no template leads to.
def lootDump : List Char :=
  "struct Squad ".toList ++ braced "\npublic List<Loot> loot; // 0x8\n".toList ++
    "\nclass Loot ".toList ++ braced "\npublic int count; // 0x10\n".toList ++ ['\n']

def lootField : Field := ⟨"loot", "List<Loot>", "0x8", .collection, some "Loot"⟩

def lootClass : Declaration :=
  ⟨.classType, "Loot", false, none, "\npublic int count; // 0x10\n".toList⟩

theorem loot_elements_left_out :
    ¬∀ field, (ofDump .standard lootDump).HasField field →
      field.ElementsEmbedded .standard (Index.scan lootDump) (ofDump .standard lootDump) := by
  have hstruct : (ofDump .standard lootDump).structs.get? "Squad" = some ⟨12, [lootField]⟩ := by
    dsimp only [lootDump, String.reduceToList]
    decide +kernel
  have hwanted : Wanted .standard (ofDump .standard lootDump) "Loot" := by
    dsimp only [lootDump, Wanted, String.reduceToList]
    decide +kernel
  have hclass : (Index.scan lootDump).get? .classType "Loot" = some lootClass := by
    dsimp only [lootDump, lootClass, String.reduceToList]
    decide +kernel
  have hfields : ownFields .standard lootClass ≠ [] := by
    dsimp only [lootClass, String.reduceToList]
    decide +kernel
  have htemplates : (ofDump .standard lootDump).templates = .empty := by
    apply NameMap.ext
    dsimp only [lootDump, String.reduceToList]
    decide +kernel
  intro hclosed
  have hfield := hclosed lootField (.inStruct hstruct (List.mem_singleton_self _))
  have hcalls : lootField.CallsFor .standard (Index.scan lootDump) (ofDump .standard lootDump)
      "Loot" := ⟨⟨rfl, rfl⟩, hwanted, lootClass, hclass, rfl, hfields⟩
  exact not_reached htemplates "Loot" (elementsEmbedded_iff.mp hfield "Loot" hcalls)

end TypeAtlas.Schema
