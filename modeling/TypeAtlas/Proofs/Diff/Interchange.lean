import TypeAtlas.Proofs.Diff.Equivalence
import TypeAtlas.Schema.Json

namespace TypeAtlas.Diff

open NameMap (Entry Related)
open Schema (Enum Struct Template Field)

-- The same change with the offsets in it spelled in another way.
def Change.respelled (spell : String → String) : Change → Change
  | newField name field => newField name { field with offset := spell field.offset }
  | goneField name field => goneField name { field with offset := spell field.offset }
  | moved name was now =>
    moved name { was with offset := spell was.offset } { now with offset := spell now.offset }
  | change => change

-- Changes that say the same, but for the spelling of offsets and the number of fields that a new
-- template lists.
inductive Counterpart : Change → Change → Prop
  | same (change : Change) : Counterpart change change
  | newTemplate (name : String) (m n : Nat) :
      Counterpart (.newTemplate name m) (.newTemplate name n)
  | newField (name : String) {a b : Field} :
      SameField a b → Counterpart (.newField name a) (.newField name b)
  | goneField (name : String) {a b : Field} :
      SameField a b → Counterpart (.goneField name a) (.goneField name b)
  | moved (name : String) {was was' now now' : Field} :
      SameField was was' → SameField now now' →
      Counterpart (.moved name was now) (.moved name was' now')
  | retyped (name : String) {was was' now now' : Field} :
      SameField was was' → SameField now now' →
      Counterpart (.retyped name was now) (.retyped name was' now')

theorem Counterpart.severity_eq {change change' : Change} (h : Counterpart change change') :
    change.severity = change'.severity := by
  cases h <;> rfl

theorem Counterpart.message_eq {change change' : Change} (h : Counterpart change change') :
    (change.respelled Offset.plain).message = (change'.respelled Offset.plain).message ∨
      ∃ name m n, change = .newTemplate name m ∧ change' = .newTemplate name n := by
  have hplain {a b : Field} (hab : SameField a b) : Offset.plain a.offset = Offset.plain b.offset :=
    Offset.plain_eq_of_same (sameField_iff.mp hab).2
  cases h with
  | same => exact .inl rfl
  | newTemplate name m n => exact .inr ⟨name, m, n, rfl, rfl⟩
  | newField name hab =>
      simp [Change.respelled, Change.message, Change.placeText, hplain hab, hab.declaredType]
  | goneField name hab =>
      simp [Change.respelled, Change.message, Change.placeText, hplain hab, hab.declaredType]
  | moved name hwas hnow =>
      simp [Change.respelled, Change.message, Change.retypedText, hplain hwas, hplain hnow,
        hwas.declaredType, hnow.declaredType]
  | retyped name hwas hnow =>
      simp [Change.respelled, Change.message, hwas.declaredType, hnow.declaredType]

section

variable {α : Type} {R : α → α → Prop} {Q : Change → Change → Prop}
variable {old old' new new' : NameMap α}

-- Entries of what both sides have, with the same name and related values on each side.
def Paired (R : α → α → Prop) : String × α × α → String × α × α → Prop :=
  Entry fun x y => R x.1 y.1 ∧ R x.2 y.2

theorem onlyIn_related {map map' other other' : NameMap α} (h : Related R map map')
    (hother : Related R other other') :
    List.Forall₂ (Entry R) (onlyIn map other) (onlyIn map' other') := by
  refine List.rel_filter ?_ h.entries
  rintro ⟨name, x⟩ ⟨_, y⟩ ⟨rfl, -⟩
  simp [hother.contains_eq]

theorem common_related (hold : Related R old old') (hnew : Related R new new') :
    List.Forall₂ (Paired R) (common old new) (common old' new') := by
  refine List.rel_filterMap ?_ hold.entries
  rintro ⟨name, was⟩ ⟨_, was'⟩ ⟨rfl, hwas⟩
  exact Lookup.rel_map (fun hnow => ⟨rfl, hwas, hnow⟩) (hnew name)

theorem group_related {count : Nat → Change} {each each' : String × α → Change}
    (hcount : ∀ n, Q (count n) (count n)) (heach : ∀ x y, Entry R x y → Q (each x) (each' y))
    {names names' : List (String × α)} (h : List.Forall₂ (Entry R) names names') :
    List.Forall₂ Q (group count each names) (group count each' names') := by
  cases h with
  | nil => exact .nil
  | cons hhead hrest =>
      simp only [group, List.isEmpty_cons, Bool.false_eq_true, if_false, List.length_cons,
        hrest.length_eq]
      exact .cons (hcount _) (List.rel_map heach (.cons hhead hrest))

-- Sections on related maps are related change by change.
theorem section_related {grain : Grain} {each : String × α → Change}
    {compare : String × α × α → List Change} (hQ : ∀ change, Q change change)
    (heach : ∀ x y, Entry R x y → Q (each x) (each y))
    (hcompare : ∀ x y, Paired R x y → List.Forall₂ Q (compare x) (compare y))
    (hold : Related R old old') (hnew : Related R new new') :
    List.Forall₂ Q (addedAndRemoved grain each old new ++ (common old new).flatMap compare)
      (addedAndRemoved grain each old' new' ++ (common old' new').flatMap compare) := by
  have hgone (x y : String × α) (h : Entry R x y) : Q (.gone x.1) (.gone y.1) := by
    rw [h.1]
    exact hQ _
  refine List.rel_append (List.rel_append ?_ ?_) ?_
  · exact group_related (fun _ => hQ _) heach (onlyIn_related hnew hold)
  · exact group_related (fun _ => hQ _) hgone (onlyIn_related hold hnew)
  · exact List.rel_flatMap (common_related hold hnew) (fun x y h => hcompare x y h)

end

theorem compareStructs_congr {old old' new new' : NameMap Struct}
    (hold : Related (fun was now => was.size = now.size) old old')
    (hnew : Related (fun was now => was.size = now.size) new new') :
    compareStructs old new = compareStructs old' new' := by
  rw [← List.forall₂_eq_eq_eq]
  refine section_related (fun _ => rfl) ?_ ?_ hold hnew
  · rintro ⟨name, x⟩ ⟨_, y⟩ ⟨rfl, -⟩
    rfl
  · rintro ⟨name, was, now⟩ ⟨_, was', now'⟩ ⟨rfl, hwas, hnow⟩
    rw [List.forall₂_eq_eq_eq]
    dsimp only at hwas hnow ⊢
    rw [hwas, hnow]

section

variable {was was' now now' : Template}

theorem isMoved_congr {a a' b b' : Field} (ha : SameField a a') (hb : SameField b b') :
    isMoved a b = isMoved a' b' := by
  have ha := Offset.same_iff_key.mp (sameField_iff.mp ha).2
  have hb := Offset.same_iff_key.mp (sameField_iff.mp hb).2
  have hsame : Offset.same a.offset b.offset = Offset.same a'.offset b'.offset := by
    rw [Bool.eq_iff_iff, Offset.same_iff_key, Offset.same_iff_key, ha, hb]
  rw [isMoved, isMoved, hsame]

theorem movedFields_related (hwas : SameFields was was') (hnow : SameFields now now') :
    List.Forall₂ (Paired SameField) (movedFields was now) (movedFields was' now') := by
  refine List.rel_filter ?_ (common_related (sameFields_iff.mp hwas) (sameFields_iff.mp hnow))
  rintro ⟨name, a, b⟩ ⟨_, a', b'⟩ ⟨rfl, ha, hb⟩
  simp only [isMoved_congr ha hb]

theorem retypedFields_related (hwas : SameFields was was') (hnow : SameFields now now') :
    List.Forall₂ (Paired SameField) (retypedFields was now) (retypedFields was' now') := by
  refine List.rel_filter ?_ (common_related (sameFields_iff.mp hwas) (sameFields_iff.mp hnow))
  rintro ⟨name, a, b⟩ ⟨_, a', b'⟩ ⟨rfl, ha, hb⟩
  have htype : a.declaredType = a'.declaredType := ha.declaredType
  have htype' : b.declaredType = b'.declaredType := hb.declaredType
  simp only [isMoved_congr ha hb, htype, htype']

theorem fieldChanges_related (hwas : SameFields was was') (hnow : SameFields now now') :
    List.Forall₂ Counterpart (fieldChanges was now) (fieldChanges was' now') := by
  have hwas' := sameFields_iff.mp hwas
  have hnow' := sameFields_iff.mp hnow
  refine List.rel_append (List.rel_append (List.rel_append ?_ ?_) ?_) ?_
  · refine List.rel_map ?_ (onlyIn_related hnow' hwas')
    rintro ⟨name, a⟩ ⟨_, a'⟩ ⟨rfl, ha⟩
    exact .newField name ha
  · refine List.rel_map ?_ (onlyIn_related hwas' hnow')
    rintro ⟨name, a⟩ ⟨_, a'⟩ ⟨rfl, ha⟩
    exact .goneField name ha
  · refine List.rel_map ?_ (movedFields_related hwas hnow)
    rintro ⟨name, a, b⟩ ⟨_, a', b'⟩ ⟨rfl, ha, hb⟩
    exact .moved name ha hb
  · refine List.rel_map ?_ (retypedFields_related hwas hnow)
    rintro ⟨name, a, b⟩ ⟨_, a', b'⟩ ⟨rfl, ha, hb⟩
    exact .retyped name ha hb

theorem templateChanges_related (name : String) (hwas : SameFields was was')
    (hnow : SameFields now now') :
    List.Forall₂ Counterpart (templateChanges name was now) (templateChanges name was' now') := by
  have h := fieldChanges_related hwas hnow
  simp only [templateChanges]
  generalize fieldChanges was now = changes at h
  generalize fieldChanges was' now' = changes' at h
  cases h with
  | nil => exact .nil
  | cons hhead hrest => exact .cons (.same _) (.cons hhead hrest)

end

section

variable {old old' new new' : NameMap Template}

theorem moveCount_congr (hold : Related SameFields old old') (hnew : Related SameFields new new') :
    moveCount old new = moveCount old' new' := by
  rw [moveCount, moveCount]
  refine List.Forall₂.length_eq (R := Paired SameField)
    (List.rel_flatMap (common_related hold hnew) ?_)
  rintro ⟨name, was, now⟩ ⟨_, was', now'⟩ ⟨rfl, hwas, hnow⟩
  exact movedFields_related hwas hnow

theorem compareTemplates_related (hold : Related SameFields old old')
    (hnew : Related SameFields new new') :
    List.Forall₂ Counterpart (compareTemplates old new) (compareTemplates old' new') := by
  simp only [compareTemplates, List.append_assoc, moveCount_congr hold hnew]
  refine List.rel_append (List.forall₂_same.mpr fun _ _ => .same _) ?_
  refine section_related .same ?_ ?_ hold hnew
  · rintro ⟨name, x⟩ ⟨_, y⟩ ⟨rfl, -⟩
    exact .newTemplate name _ _
  · rintro ⟨name, was, now⟩ ⟨_, was', now'⟩ ⟨rfl, hwas, hnow⟩
    exact templateChanges_related name hwas hnow

end

theorem countP_congr_severity {changes changes' : List Change} (p : Severity → Bool)
    (h : changes.map Change.severity = changes'.map Change.severity) :
    (changes.countP fun change => p change.severity) =
      changes'.countP fun change => p change.severity := by
  have hcount := congrArg (List.countP p) h
  simpa [List.countP_map, Function.comp_def] using hcount

-- Schemas that a comparison does not tell apart may stand in for each other on both sides: the
-- changes of enums and structs are the same, those of templates come in the same order with the
-- same severities, and their texts agree once offsets are spelled alike, except for the number of
-- fields that a new template lists.
theorem between_interchange {a a' b b' : Schema} (ha : (between a a').isEmpty = true)
    (hb : (between b b').isEmpty = true) :
    (between a b).enums = (between a' b').enums ∧
    (between a b).structs = (between a' b').structs ∧
    (between a b).templates.map Change.severity = (between a' b').templates.map Change.severity ∧
    (∃ spell : String → String, (∀ offset, Offset.same (spell offset) offset = true) ∧
      List.Forall₂ (fun change change' =>
        (change.respelled spell).message = (change'.respelled spell).message ∨
          ∃ name m n, change = .newTemplate name m ∧ change' = .newTemplate name n)
        (between a b).templates (between a' b').templates) ∧
    (between a b).changeCount = (between a' b').changeCount ∧
    (between a b).criticalCount = (between a' b').criticalCount := by
  have ha := isEmpty_between_iff.mp ha
  have hb := isEmpty_between_iff.mp hb
  have henums : (between a b).enums = (between a' b').enums := by
    simp only [between, ha.enums, hb.enums]
  have hstructs : (between a b).structs = (between a' b').structs :=
    compareStructs_congr ha.structs hb.structs
  have htemplates := compareTemplates_related ha.templates hb.templates
  have hseverities : (between a b).templates.map Change.severity =
      (between a' b').templates.map Change.severity := by
    rw [← List.forall₂_eq_eq_eq]
    exact List.rel_map (fun _ _ h => h.severity_eq) htemplates
  have hchanges : (between a b).changes.map Change.severity =
      (between a' b').changes.map Change.severity := by
    simp only [changes, List.map_append, henums, hstructs, hseverities]
  refine ⟨henums, hstructs, hseverities, ?_, ?_, ?_⟩
  · exact ⟨Offset.plain, Offset.same_plain, htemplates.imp fun _ _ h => h.message_eq⟩
  · exact countP_congr_severity (fun severity => severity ≠ .info) hchanges
  · exact countP_congr_severity (fun severity => severity = .crit) hchanges

-- A schema with one template.
def unitSchema (fields : List Field) : Schema :=
  { Schema.empty with templates := .ofList [("UnitTemplate", ⟨none, false, fields⟩)] }

def hpAt (offset : String) : Field := ⟨"hp", "int", offset, .primitive, none⟩

theorem moved_hp_interchange :
    (between (unitSchema [hpAt "0x10"]) (unitSchema [hpAt "0x010"])).isEmpty = true ∧
      (between (unitSchema [hpAt "0x1C"]) (unitSchema [hpAt "0x1c"])).isEmpty = true ∧
      (between (unitSchema [hpAt "0x10"]) (unitSchema [hpAt "0x1C"])).templates.map
          Change.severity =
        (between (unitSchema [hpAt "0x010"]) (unitSchema [hpAt "0x1c"])).templates.map
          Change.severity := by
  have hold : (between (unitSchema [hpAt "0x10"]) (unitSchema [hpAt "0x010"])).isEmpty = true := by
    decide +kernel
  have hnew : (between (unitSchema [hpAt "0x1C"]) (unitSchema [hpAt "0x1c"])).isEmpty = true := by
    decide +kernel
  exact ⟨hold, hnew, (between_interchange hold hnew).2.2.1⟩

-- A field that is listed twice counts twice where its template is new, whatever the spelling.
theorem repeated_hp_counted :
    (between Schema.empty Schema.empty).isEmpty = true ∧
      (between (unitSchema [hpAt "0x10", hpAt "0x10"]) (unitSchema [hpAt "0x10"])).isEmpty = true ∧
      ∀ spell, ¬List.Forall₂ (fun change change' =>
          (change.respelled spell).message = (change'.respelled spell).message)
        (between Schema.empty (unitSchema [hpAt "0x10", hpAt "0x10"])).templates
        (between Schema.empty (unitSchema [hpAt "0x10"])).templates := by
  have htwice : (between Schema.empty (unitSchema [hpAt "0x10", hpAt "0x10"])).templates =
      [.added .templates 1, .newTemplate "UnitTemplate" 2] := by
    decide +kernel
  have honce : (between Schema.empty (unitSchema [hpAt "0x10"])).templates =
      [.added .templates 1, .newTemplate "UnitTemplate" 1] := by
    decide +kernel
  have hmessage : (Change.newTemplate "UnitTemplate" 2).message ≠
      (Change.newTemplate "UnitTemplate" 1).message := by
    decide +kernel
  refine ⟨by decide +kernel, by decide +kernel, fun spell h => ?_⟩
  rw [htwice, honce, List.forall₂_cons, List.forall₂_cons] at h
  exact hmessage h.2.1

end TypeAtlas.Diff
