import Mathlib.Data.List.Forall2
import TypeAtlas.Proofs.Json.Members
import TypeAtlas.Proofs.Json.Printer
import TypeAtlas.Proofs.NameMap

namespace TypeAtlas.Json

-- A part of a record as an object gives it: under which names, as which values, and whether it may be
-- left out.
structure Part where
  names : List String
  form : Node → Prop
  mayLack : Prop

-- The members give the parts in their order, each of them once or not at all.
inductive Gives : List Part → List (Option String × Node) → Prop
  | nil : Gives [] []
  | given {part : Part} {parts : List Part} {name : String} {node : Node}
      {members : List (Option String × Node)} :
      name ∈ part.names → part.form node → Gives parts members →
      Gives (part :: parts) ((some name, node) :: members)
  | lacking {part : Part} {parts : List Part} {members : List (Option String × Node)} :
      part.mayLack → Gives parts members → Gives (part :: parts) members

def IsUnknown (parts : List Part) (member : Option String × Node) : Prop :=
  ∃ name, member.1 = some name ∧ ∀ part ∈ parts, name ∉ part.names

def RecordForm (parts : List Part) (node : Node) : Prop :=
  ∃ members known unknown, node = .obj members .closed ∧ members.Perm (known ++ unknown) ∧
    Gives parts known ∧ ∀ member ∈ unknown, IsUnknown parts member

theorem recordForm_of_gives {parts : List Part} {members : List (Option String × Node)}
    (h : Gives parts members) : RecordForm parts (.obj members .closed) :=
  ⟨members, members, [], rfl, by rw [List.append_nil], h, nofun⟩

-- What gives the parts may stand in reverse, behind other members.
theorem recordForm_reverse {parts : List Part} (known unknown : List (String × Value))
    (hgives : Gives parts (Value.memberNodes known))
    (hunknown : ∀ member ∈ unknown, ∀ part ∈ parts, member.1 ∉ part.names) :
    RecordForm parts (Value.obj (known ++ unknown).reverse).node := by
  refine ⟨_, Value.memberNodes known, Value.memberNodes unknown, rfl, ?_, hgives, ?_⟩
  · rw [Value.memberNodes_eq_map, Value.memberNodes_eq_map, Value.memberNodes_eq_map,
      ← List.map_append]
    exact (List.reverse_perm _).map _
  · rw [Value.memberNodes_eq_map]
    intro member hmember
    obtain ⟨⟨name, value⟩, hmem, rfl⟩ := List.mem_map.mp hmember
    exact ⟨name, rfl, hunknown _ hmem⟩

def ListForm {α : Type} (form : α → Node → Prop) (xs : List α) (node : Node) : Prop :=
  ∃ items, node = .arr items .closed ∧ List.Forall₂ form xs items

-- The entries stand in any order, each once.
def MapForm {α : Type} (form : α → Node → Prop) (map : NameMap α) (node : Node) : Prop :=
  ∃ members entries, node = .obj members .closed ∧ map.entries.Perm entries ∧
    List.Forall₂ (fun entry member => member.1 = some entry.1 ∧ form entry.2 member.2)
      entries members

-- Whole trees of a form are read as what they stand for.
def Accepts {α : Type} (read : Reader α) (form : α → Node → Prop) : Prop :=
  ∀ (x : α) (node : Node), form x node → node.Whole → read node = .ok x

section

variable {α : Type} {read : Reader α} {form : α → Node → Prop}

theorem mapM_of_forall₂ {ε β : Type} {f : β → Except ε α} {R : α → β → Prop} {p : β → Prop}
    (hread : ∀ x item, R x item → p item → f item = .ok x) {xs : List α} {items : List β}
    (h : List.Forall₂ R xs items) (hall : ∀ item ∈ items, p item) : items.mapM f = .ok xs := by
  induction h with
  | nil => rfl
  | cons hitem _ ih =>
      obtain ⟨hhead, hrest⟩ := List.forall_mem_cons.mp hall
      rw [List.mapM_cons, hread _ _ hitem hhead, ih hrest]
      rfl

theorem Accepts.list (h : Accepts read form) : Accepts (Reader.list read) (ListForm form) := by
  rintro xs node ⟨items, rfl, hitems⟩ hwhole
  cases hwhole with
  | arr hwhole =>
      have hread : items.mapM read = .ok xs := mapM_of_forall₂ h hitems hwhole
      simp only [Reader.list, hread, Ending.finish]
      rfl

theorem Accepts.map (h : Accepts read form) : Accepts (Reader.map read) (MapForm form) := by
  rintro map node ⟨members, entries, rfl, hperm, hmembers⟩ hwhole
  have hmember (entry : String × α) (member : Option String × Node)
      (hform : member.1 = some entry.1 ∧ form entry.2 member.2) (hwhole : member.2.Whole) :
      readMember read member = .ok entry := by
    rw [readMember, hform.1, keyText, h _ _ hform.2 hwhole]
    rfl
  cases hwhole with
  | obj hwhole =>
      have hread : members.mapM (readMember read) = .ok entries :=
        mapM_of_forall₂ hmember hmembers hwhole
      simp only [Reader.map, hread, Ending.finish]
      exact congrArg Except.ok (NameMap.ofList_perm hperm)

end

namespace Field

variable {σ : Type} {fields todo : List (Field σ)} {parts : List Part}

-- The fields read the parts in their order, from the record `s` up to the record `x`. A part that is
-- lacking leaves the record what it would have made it.
inductive Fits : List (Field σ) → List Part → σ → σ → Prop
  | nil {x : σ} : Fits [] [] x x
  | cons {field : Field σ} {fields : List (Field σ)} {part : Part} {parts : List Part} {s t x : σ} :
      field.names = part.names →
      (∀ node, part.form node → node.Whole → field.read node s = .ok t) →
      (part.mayLack → field.presence ≠ .required ∧ t = s) →
      Fits fields parts t x → Fits (field :: fields) (part :: parts) s x

theorem name_ne (hnames : (fields.flatMap names).Nodup) {field : Field σ}
    (hsuffix : field :: todo <:+ fields) {other : Field σ} (hother : other ∈ todo) :
    other.name ≠ field.name := by
  obtain ⟨before, rfl⟩ := hsuffix
  rw [List.flatMap_append, List.flatMap_cons, List.nodup_append', List.nodup_append'] at hnames
  obtain ⟨-, ⟨-, -, hdisjoint⟩, -⟩ := hnames
  have hmem : other.name ∈ todo.flatMap names :=
    List.mem_flatMap.mpr ⟨other, hother, List.mem_cons_self⟩
  intro heq
  exact hdisjoint (heq ▸ List.mem_cons_self) hmem

theorem Fits.names_eq {s x : σ} (h : Fits fields parts s x) :
    fields.map names = parts.map Part.names := by
  induction h with
  | nil => rfl
  | cons hnames _ _ _ ih => rw [List.map_cons, List.map_cons, hnames, ih]

-- Members that give the parts in their order make up the record.
theorem foldlM_of_gives (hnames : (fields.flatMap names).Nodup) {s x : σ}
    (hfits : Fits todo parts s x) (hsuffix : todo <:+ fields)
    {known : List (Option String × Node)} (hgives : Gives parts known)
    (hwhole : ∀ member ∈ known, member.2.Whole) {seen : List String}
    (hseen : ∀ field ∈ todo, field.name ∉ seen) :
    ∃ seen', known.foldlM (readMember fields) (seen, s) = .ok (seen', x) ∧ seen ⊆ seen' ∧
      ∀ field ∈ todo, field.presence = .required → field.name ∈ seen' := by
  induction hfits generalizing known seen with
  | nil =>
      cases hgives
      exact ⟨seen, rfl, List.Subset.refl seen, nofun⟩
  | @cons field todo part parts s t x hpart hread hlack hrest ih =>
      obtain ⟨hnew, hseen⟩ := List.forall_mem_cons.mp hseen
      have hsuffix' : todo <:+ fields := (List.suffix_cons field todo).trans hsuffix
      cases hgives with
      | @given _ _ name node known hname hform hgives =>
          obtain ⟨hnode, hwhole⟩ := List.forall_mem_cons.mp hwhole
          have hfind := find?_answers hnames (hsuffix.subset List.mem_cons_self)
            (show name ∈ field.names from hpart ▸ hname)
          have hstep : readMember fields (seen, s) (some name, node) =
              .ok (field.name :: seen, t) :=
            readMember_eq_ok_iff.mpr
              ⟨name, rfl, .inr ⟨field, hfind, hnew, hread node hform hnode, rfl⟩⟩
          have hseen' : ∀ other ∈ todo, other.name ∉ field.name :: seen := by
            intro other hother hmem
            rcases List.mem_cons.mp hmem with heq | hmem
            · exact name_ne hnames hsuffix hother heq
            · exact hseen other hother hmem
          obtain ⟨seen', hmembers, hsubset, hrequired⟩ := ih hsuffix' hgives hwhole hseen'
          obtain ⟨hfield, hsubset⟩ := List.cons_subset.mp hsubset
          refine ⟨seen', foldlM_readMember_cons.mpr ⟨_, hstep, hmembers⟩, hsubset, ?_⟩
          exact List.forall_mem_cons.mpr ⟨fun _ => hfield, hrequired⟩
      | lacking hlacking hgives =>
          obtain ⟨hpresence, rfl⟩ := hlack hlacking
          obtain ⟨seen', hmembers, hsubset, hrequired⟩ := ih hsuffix' hgives hwhole hseen
          refine ⟨seen', hmembers, hsubset, ?_⟩
          exact List.forall_mem_cons.mpr ⟨fun h => absurd h hpresence, hrequired⟩

-- An object that gives all parts of a record is read as that record.
theorem record_of_form (hnames : (fields.flatMap names).Nodup) (hapart : fields.Pairwise Apart)
    {start x : σ} (hfits : Fits fields parts start x) {node : Node} (hform : RecordForm parts node)
    (hwhole : node.Whole) : record fields start node = .ok x := by
  obtain ⟨members, known, unknown, rfl, hperm, hgives, hunknown⟩ := hform
  cases hwhole with
  | obj hwhole =>
      have hwhole' : ∀ member ∈ known ++ unknown, member.2.Whole := fun member hmember =>
        hwhole member (hperm.mem_iff.mpr hmember)
      obtain ⟨hknown, hskipped⟩ := List.forall_mem_append.mp hwhole'
      have hstart : ∀ field ∈ fields, field.name ∉ ([] : List String) :=
        fun _ _ => List.not_mem_nil
      obtain ⟨seen, hmembers, -, hrequired⟩ :=
        foldlM_of_gives hnames hfits List.suffix_rfl hgives hknown hstart
      have hrecord : record fields start (.obj known .closed) = .ok x :=
        record_obj_eq_ok_iff.mpr ⟨seen, hmembers, hrequired⟩
      refine record_perm hapart hperm.symm (record_unknown ?_ hrecord)
      intro member hmember
      obtain ⟨name, hname, hnone⟩ := hunknown member hmember
      refine ⟨⟨name, hname, ?_⟩, hskipped member hmember⟩
      intro field hfield hmem
      obtain ⟨part, hpart, heq⟩ := List.mem_map.mp
        (hfits.names_eq ▸ List.mem_map_of_mem hfield)
      exact hnone part hpart (heq ▸ hmem)

end Field

end TypeAtlas.Json
