import TypeAtlas.Diff.Change

namespace TypeAtlas.Diff

open Schema (Enum Struct Template)

variable {α : Type}

-- The entries of a map whose names another one lacks.
def onlyIn (map other : NameMap α) : List (String × α) :=
  map.entries.filter fun entry => !other.contains entry.1

-- The names of two maps with their values in each.
def common (old new : NameMap α) : List (String × α × α) :=
  old.entries.filterMap fun (name, was) => (new.get? name).map fun now => (name, was, now)

-- A change that counts some names and one for each of them; none if there are no names.
def group (count : Nat → Change) (each : String × α → Change) (names : List (String × α)) :
    List Change :=
  if names.isEmpty then [] else count names.length :: names.map each

def addedAndRemoved (grain : Grain) (each : String × α → Change) (old new : NameMap α) :
    List Change :=
  group (.added grain) each (onlyIn new old) ++
    group (.removed grain) (fun entry => .gone entry.1) (onlyIn old new)

def storageChange (name : String) (was now : Enum) : List Change :=
  if was.underlyingType = now.underlyingType then []
  else [.storage name was.underlyingType now.underlyingType]

def valueChanges (name : String) (was now : Enum) : List Change :=
  let added := onlyIn now.values was.values
  let removed := onlyIn was.values now.values
  let renumbered := (common was.values now.values).filter fun (_, a, b) => a ≠ b
  if added.isEmpty && removed.isEmpty && renumbered.isEmpty then []
  else
    .values name added.length removed.length renumbered.length ::
      added.map (fun (v, n) => .newValue v n) ++ removed.map (fun (v, n) => .goneValue v n) ++
      renumbered.map (fun (v, a, b) => .renumbered v a b)

-- In each section new names come first, then removed ones, then those that changed, each group in
-- the order of names.
def compareEnums (old new : NameMap Enum) : List Change :=
  addedAndRemoved .enums (fun (name, enum) => .newEnum name enum.values.size) old new ++
    (common old new).flatMap fun (name, was, now) =>
      storageChange name was now ++ valueChanges name was now

def compareStructs (old new : NameMap Struct) : List Change :=
  addedAndRemoved .structs (fun (name, _) => .newStruct name) old new ++
    (common old new).flatMap fun (name, was, now) =>
      if was.size = now.size then [] else [.size name was.size now.size]

-- The fields of a template by their names, the last of each name.
def fieldsByName (template : Template) : NameMap Schema.Field :=
  .ofList (template.fields.map fun field => (field.name, field))

def isMoved (was now : Schema.Field) : Bool :=
  !Offset.same was.offset now.offset

def movedFields (was now : Template) : List (String × Schema.Field × Schema.Field) :=
  (common (fieldsByName was) (fieldsByName now)).filter fun (_, a, b) => isMoved a b

def retypedFields (was now : Template) : List (String × Schema.Field × Schema.Field) :=
  (common (fieldsByName was) (fieldsByName now)).filter fun (_, a, b) =>
    !isMoved a b && a.declaredType ≠ b.declaredType

def fieldChanges (was now : Template) : List Change :=
  (onlyIn (fieldsByName now) (fieldsByName was)).map (fun (name, field) => .newField name field) ++
    (onlyIn (fieldsByName was) (fieldsByName now)).map
      (fun (name, field) => .goneField name field) ++
    (movedFields was now).map (fun (name, a, b) => .moved name a b) ++
    (retypedFields was now).map (fun (name, a, b) => .retyped name a b)

def templateChanges (name : String) (was now : Template) : List Change :=
  let changes := fieldChanges was now
  if changes.isEmpty then [] else .template name :: changes

-- How many fields moved in all templates that both sides have.
def moveCount (old new : NameMap Template) : Nat :=
  ((common old new).flatMap fun (_, was, now) => movedFields was now).length

def compareTemplates (old new : NameMap Template) : List Change :=
  let count := moveCount old new
  (if count = 0 then [] else [.offsets count]) ++
    addedAndRemoved .templates
      (fun (name, template) => .newTemplate name template.fields.length) old new ++
    (common old new).flatMap fun (name, was, now) => templateChanges name was now

end TypeAtlas.Diff

namespace TypeAtlas

structure Diff where
  oldHash : String
  newHash : String
  enums : List Diff.Change
  structs : List Diff.Change
  templates : List Diff.Change
  deriving DecidableEq

namespace Diff

def between (old new : Schema) : Diff where
  oldHash := old.hash
  newHash := new.hash
  enums := compareEnums old.enums new.enums
  structs := compareStructs old.structs new.structs
  templates := compareTemplates old.templates new.templates

-- The sections with their titles, in the order of a report.
def sections (diff : Diff) : List (String × List Change) :=
  [("Enums", diff.enums), ("Structs", diff.structs), ("Templates", diff.templates)]

def changes (diff : Diff) : List Change :=
  diff.enums ++ diff.structs ++ diff.templates

def isEmpty (diff : Diff) : Bool :=
  diff.changes.isEmpty

-- How many changes there are, details apart.
def changeCount (diff : Diff) : Nat :=
  diff.changes.countP fun change => change.severity ≠ .info

def criticalCount (diff : Diff) : Nat :=
  diff.changes.countP fun change => change.severity = .crit

def hasCritical (diff : Diff) : Bool :=
  0 < diff.criticalCount

end Diff

end TypeAtlas
