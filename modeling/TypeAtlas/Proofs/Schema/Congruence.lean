import TypeAtlas.Proofs.NameMap.Related
import TypeAtlas.Proofs.Schema.Embedding

namespace TypeAtlas.Schema

open Dump

-- Declarations that differ at most in their bodies, and whose bodies say the same to a schema.
structure Alike (rules : Rules) (d e : Declaration) : Prop where
  kind : d.kind = e.kind
  name : d.name = e.name
  isAbstract : d.isAbstract = e.isAbstract
  base : d.base = e.base
  fields : d.kind ≠ .enumType → fields rules d.kind d.body = fields rules d.kind e.body
  enum : d.kind = .enumType → Enum.read? d.base d.body = Enum.read? d.base e.body

theorem Alike.equivalence (rules : Rules) : Equivalence (Alike rules) where
  refl _ := ⟨rfl, rfl, rfl, rfl, fun _ => rfl, fun _ => rfl⟩
  symm h := by
    refine ⟨h.kind.symm, h.name.symm, h.isAbstract.symm, h.base.symm, ?_, ?_⟩
    · rw [← h.kind]
      exact fun hkind => (h.fields hkind).symm
    · rw [← h.kind, ← h.base]
      exact fun hkind => (h.enum hkind).symm
  trans h h' := by
    refine ⟨h.kind.trans h'.kind, h.name.trans h'.name, h.isAbstract.trans h'.isAbstract,
      h.base.trans h'.base, ?_, ?_⟩
    · intro hkind
      have hnext := h'.fields (h.kind ▸ hkind)
      rw [← h.kind] at hnext
      exact (h.fields hkind).trans hnext
    · intro hkind
      have hnext := h'.enum (h.kind ▸ hkind)
      rw [← h.base] at hnext
      exact (h.enum hkind).trans hnext

-- Two indexes whose look-ups find declarations that are alike.
def Agree (rules : Rules) (a b : Index) : Prop :=
  ∀ kind name, Option.Rel (Alike rules) (a.get? kind name) (b.get? kind name)

theorem Agree.symm {rules : Rules} {a b : Index} (h : Agree rules a b) : Agree rules b a :=
  fun kind name => (Lookup.rel_equivalence (Alike.equivalence rules)).symm (h kind name)

theorem Agree.trans {rules : Rules} {a b c : Index} (h : Agree rules a b) (h' : Agree rules b c) :
    Agree rules a c :=
  fun kind name =>
    (Lookup.rel_equivalence (Alike.equivalence rules)).trans (h kind name) (h' kind name)

theorem Agree.of_get?_eq {rules : Rules} {a b : Index}
    (h : ∀ kind name, a.get? kind name = b.get? kind name) : Agree rules a b := by
  intro kind name
  rw [h]
  exact (Lookup.rel_equivalence (Alike.equivalence rules)).refl _

variable {rules : Rules} {a b : Index}

-- The look-up in the other index finds a declaration of the kind that is asked for, too.
theorem Agree.exists_alike (h : Agree rules a b) {kind : Kind} {name : String} {d : Declaration}
    (hd : a.get? kind name = some d) :
    ∃ e, b.get? kind name = some e ∧ Alike rules d e ∧ d.kind = kind := by
  have hrel := h kind name
  have hkind := (Index.get?_spec hd).2.1
  rw [hd] at hrel
  generalize b.get? kind name = found at hrel
  cases hrel with
  | some halike => exact ⟨_, rfl, halike, hkind⟩

theorem Agree.get?_eq_none_iff (h : Agree rules a b) {kind : Kind} {name : String} :
    a.get? kind name = none ↔ b.get? kind name = none := by
  have hsome := Lookup.isSome_eq_of_rel (h kind name)
  rw [← Option.not_isSome_iff_eq_none, ← Option.not_isSome_iff_eq_none, hsome]

-- A walk along bases goes through classes that are alike, so it meets the same fields.
theorem fields_baseWalkFrom_congr (h : Agree rules a b) (limit : Nat) (below : List String)
    (name : String) :
    (baseWalkFrom rules a limit below name).steps.map (fun d => fields rules .classType d.body) =
      (baseWalkFrom rules b limit below name).steps.map
        fun d => fields rules .classType d.body := by
  induction limit generalizing below name with
  | zero => simp only [baseWalkFrom]
  | succ limit ih =>
      simp only [baseWalkFrom]
      split
      · rfl
      · cases hd : a.get? .classType name with
        | none => rw [h.get?_eq_none_iff.mp hd]
        | some d =>
            obtain ⟨e, he, halike, hkind⟩ := h.exists_alike hd
            have hfields := halike.fields (hkind ▸ Kind.noConfusion)
            have hnext : nextBase? rules e = nextBase? rules d := by
              rw [nextBase?, nextBase?, halike.base]
            rw [hkind] at hfields
            simp only [he, hnext]
            cases nextBase? rules d with
            | none => simp only [List.map_cons, List.map_nil, hfields]
            | some base => simp only [List.map_cons, hfields, ih]

theorem collectFields_congr (h : Agree rules a b) (name : String) :
    collectFields rules a name = collectFields rules b name := by
  have heq (index : Index) : collectFields rules index name =
      keepLast (((baseWalk rules index name).steps.map
        fun d => fields rules .classType d.body).reverse.flatten) := by
    rw [collectFields, Flattening.fields, flatten, ← List.map_reverse, ← List.flatMap_def,
      List.flatMap_map]
    rfl
  rw [heq, heq, baseWalk, baseWalk, fields_baseWalkFrom_congr h]

variable {first second : List Char} {name : String}

-- Each map of a schema is given by its look-ups, and these by look-ups in the dump's index. As
-- agreement goes both ways, it is enough to follow what the first dump says into the second.
theorem enum_of_agree (h : Agree rules (Index.scan first) (Index.scan second)) {e : Enum}
    (he : (ofDump rules first).enums.get? name = some e) :
    (ofDump rules second).enums.get? name = some e := by
  obtain ⟨d, hd, hread⟩ := enum_eq_some_iff.mp he
  obtain ⟨d', hd', halike, hkind⟩ := h.exists_alike hd
  exact enum_eq_some_iff.mpr ⟨d', hd', by rw [← halike.base, ← halike.enum hkind, hread]⟩

theorem enums_congr (h : Agree rules (Index.scan first) (Index.scan second)) :
    (ofDump rules first).enums = (ofDump rules second).enums :=
  NameMap.ext_get? fun _ => Option.ext fun _ => ⟨enum_of_agree h, enum_of_agree h.symm⟩

theorem structFields_of_agree (h : Agree rules (Index.scan first) (Index.scan second))
    {raw : List RawField}
    (hraw : (Survey.ofText rules first).structFields.get? name = some raw) :
    (Survey.ofText rules second).structFields.get? name = some raw := by
  obtain ⟨d, hd, hfields, hne⟩ := structFields_eq_some_iff.mp hraw
  obtain ⟨d', hd', halike, hkind⟩ := h.exists_alike hd
  have hsame := halike.fields (hkind ▸ Kind.noConfusion)
  rw [hkind, hfields] at hsame
  exact structFields_eq_some_iff.mpr ⟨d', hd', hsame.symm, hne⟩

theorem structFields_congr (h : Agree rules (Index.scan first) (Index.scan second)) :
    (Survey.ofText rules first).structFields = (Survey.ofText rules second).structFields :=
  NameMap.ext_get? fun _ => Option.ext fun _ =>
    ⟨structFields_of_agree h, structFields_of_agree h.symm⟩

theorem template_of_agree (h : Agree rules (Index.scan first) (Index.scan second))
    (hname : (ofDump rules first).templates.contains name = true) :
    (ofDump rules second).templates.contains name = true := by
  obtain ⟨t, ht⟩ := NameMap.contains_iff.mp hname
  obtain ⟨d, hd, htemplate, -⟩ := template_eq_some_iff.mp ht
  obtain ⟨d', hd', -, -⟩ := h.exists_alike hd
  exact NameMap.contains_iff.mpr ⟨_, template_eq_some_iff.mpr ⟨d', hd', htemplate, rfl⟩⟩

theorem knownTypes_congr (h : Agree rules (Index.scan first) (Index.scan second)) :
    (ofDump rules first).knownTypes = (ofDump rules second).knownTypes := by
  have hstructs (text : List Char) : NameSet.domain (ofDump rules text).structs =
      .domain (Survey.ofText rules text).structFields := by
    simp only [ofDump, Build.schema, Build.ofText, NameSet.domain_map]
  have htemplates : NameSet.domain (ofDump rules first).templates =
      .domain (ofDump rules second).templates := by
    refine NameSet.ext_contains fun name => ?_
    rw [NameSet.contains_domain, NameSet.contains_domain, Bool.eq_iff_iff]
    exact ⟨template_of_agree h, template_of_agree h.symm⟩
  rw [knownTypes, knownTypes, enums_congr h, hstructs, hstructs, structFields_congr h, htemplates]

theorem structs_congr (h : Agree rules (Index.scan first) (Index.scan second)) :
    (ofDump rules first).structs = (ofDump rules second).structs := by
  have hstructs (text : List Char) : (ofDump rules text).structs =
      (Survey.ofText rules text).structFields.map fun _ raw =>
        ⟨structSize raw, raw.map (Field.ofRaw rules (ofDump rules text).knownTypes)⟩ := by
    rw [ofDump_knownTypes]
    rfl
  rw [hstructs, hstructs, structFields_congr h, knownTypes_congr h]

theorem templates_of_agree (h : Agree rules (Index.scan first) (Index.scan second)) {t : Template}
    (ht : (ofDump rules first).templates.get? name = some t) :
    (ofDump rules second).templates.get? name = some t := by
  obtain ⟨d, hd, htemplate, rfl⟩ := template_eq_some_iff.mp ht
  obtain ⟨d', hd', halike, -⟩ := h.exists_alike hd
  refine template_eq_some_iff.mpr ⟨d', hd', htemplate, ?_⟩
  rw [halike.base, halike.isAbstract, collectFields_congr h, knownTypes_congr h]

theorem templates_congr (h : Agree rules (Index.scan first) (Index.scan second)) :
    (ofDump rules first).templates = (ofDump rules second).templates :=
  NameMap.ext_get? fun _ => Option.ext fun _ => ⟨templates_of_agree h, templates_of_agree h.symm⟩

theorem inheritance_congr (h : Agree rules (Index.scan first) (Index.scan second)) :
    (ofDump rules first).inheritance = (ofDump rules second).inheritance := by
  refine NameMap.ext_get? fun name => Option.ext fun chain => ?_
  rw [inheritance_eq_some_iff, inheritance_eq_some_iff, templates_congr h]

theorem wanted_congr (h : Agree rules (Index.scan first) (Index.scan second)) :
    Wanted rules (ofDump rules first) name ↔ Wanted rules (ofDump rules second) name := by
  rw [Wanted, Wanted, enums_congr h, structs_congr h, templates_congr h]

theorem Embeds.of_agree (h : Agree rules (Index.scan first) (Index.scan second))
    {c : EmbeddedClass} (hc : Embeds rules (Index.scan first) (ofDump rules first) name c) :
    Embeds rules (Index.scan second) (ofDump rules second) name c := by
  obtain ⟨d, hd, hconcrete, hne, rfl⟩ := hc
  obtain ⟨d', hd', halike, hkind⟩ := h.exists_alike hd
  have hown : ownFields rules d = ownFields rules d' := by
    have hfields := halike.fields (hkind ▸ Kind.noConfusion)
    rw [hkind] at hfields
    rw [ownFields, ownFields, hfields]
  refine ⟨d', hd', halike.isAbstract ▸ hconcrete, hown ▸ hne, ?_⟩
  rw [halike.base, hown, knownTypes_congr h]

theorem Reached.of_agree (h : Agree rules (Index.scan first) (Index.scan second))
    (hname : Reached rules (Index.scan first) (ofDump rules first) name) :
    Reached rules (Index.scan second) (ofDump rules second) name := by
  induction hname with
  | ofTemplate ht hfield helement hwanted =>
      exact .ofTemplate (templates_congr h ▸ ht) hfield helement ((wanted_congr h).mp hwanted)
  | ofEmbedded _ hembeds hfield helement hwanted ih =>
      exact .ofEmbedded ih (hembeds.of_agree h) hfield helement ((wanted_congr h).mp hwanted)

theorem embedded_of_agree (h : Agree rules (Index.scan first) (Index.scan second))
    {c : EmbeddedClass} (hc : (ofDump rules first).embedded.get? name = some c) :
    (ofDump rules second).embedded.get? name = some c := by
  obtain ⟨hreached, hembeds⟩ := embedded_eq_some_iff.mp hc
  exact embedded_eq_some_iff.mpr ⟨hreached.of_agree h, hembeds.of_agree h⟩

theorem embedded_congr (h : Agree rules (Index.scan first) (Index.scan second)) :
    (ofDump rules first).embedded = (ofDump rules second).embedded :=
  NameMap.ext_get? fun _ => Option.ext fun _ => ⟨embedded_of_agree h, embedded_of_agree h.symm⟩

-- Dumps whose declarations say the same have the same schema but for the hash.
theorem ofDump_of_agree (h : Agree rules (Index.scan first) (Index.scan second)) :
    ofDump rules second = { ofDump rules first with hash := (ofDump rules second).hash } := by
  have hversion : (ofDump rules first).version = (ofDump rules second).version := rfl
  dsimp only
  rw [hversion, enums_congr h, structs_congr h, embedded_congr h, templates_congr h,
    inheritance_congr h]

end TypeAtlas.Schema
