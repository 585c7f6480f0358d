import TypeAtlas.Proofs.Schema.Hierarchy
import TypeAtlas.Proofs.Schema.Trail

namespace TypeAtlas.Schema

open Dump

variable {rules : Rules} {index : Index} {name : String} {steps : List Declaration}

-- The classes from one on upward: each is declared, none repeats, each is the base of the one before
-- it, and the last has no base that one could go on to.
structure ClassWalk (rules : Rules) (index : Index) (name : String) (steps : List Declaration) :
    Prop where
  declared : ∀ d ∈ steps, index.get? .classType d.name = some d
  distinct : (steps.map Declaration.name).Nodup
  bounded : steps.length ≤ 64
  starts : ∀ first ∈ steps.head?, first.name = name
  undeclared : steps = [] → index.get? .classType name = none
  linked : steps.IsChain fun d above =>
    d.base = some above.name ∧ rules.isTerminalRoot above.name = false
  ends : ∀ last ∈ steps.getLast?, ∀ base, last.base = some base →
    rules.isTerminalRoot base = true ∨ index.get? .classType base = none ∨
      base ∈ steps.map Declaration.name ∨ steps.length = 64

-- The declaration of the base that a walk goes on to.
def superclass? (rules : Rules) (index : Index) (d : Declaration) : Option Declaration :=
  (nextBase? rules d).bind (index.get? .classType)

theorem nextBase?_eq_some_iff {d : Declaration} {base : String} :
    nextBase? rules d = some base ↔ d.base = some base ∧ rules.isTerminalRoot base = false := by
  rw [nextBase?, Option.filter_eq_some_iff, Bool.not_eq_true']

theorem superclass?_eq_some_iff {d above : Declaration} :
    superclass? rules index d = some above ↔
      (d.base = some above.name ∧ rules.isTerminalRoot above.name = false) ∧
        index.get? .classType above.name = some above := by
  rw [superclass?, Option.bind_eq_some_iff, ← nextBase?_eq_some_iff]
  constructor
  · rintro ⟨base, hbase, habove⟩
    obtain rfl := (Index.get?_spec habove).2.2
    exact ⟨hbase, habove⟩
  · rintro ⟨hbase, habove⟩
    exact ⟨above.name, hbase, habove⟩

theorem superclass?_of_nextBase? {d : Declaration} {base : String}
    (hbase : nextBase? rules d = some base) :
    superclass? rules index d = index.get? .classType base := by
  rw [superclass?, hbase, Option.bind_some]

-- Behind a class on its way, a walk goes along the trail of the superclasses. Classes with one name are
-- one class, as all of them are declared.
theorem baseWalkFrom_isTrail {limit : Nat} {below : List Declaration} {d : Declaration}
    {base : String} (hdeclared : ∀ e ∈ d :: below, index.get? .classType e.name = some e)
    (hbase : nextBase? rules d = some base) :
    IsTrail (superclass? rules index) limit (d :: below) d
      (baseWalkFrom rules index limit ((d :: below).map Declaration.name) base).steps := by
  induction limit generalizing below d base with
  | zero =>
      have hstop :
          (baseWalkFrom rules index 0 ((d :: below).map Declaration.name) base).steps = [] := by
        by_cases hseen : base ∈ (d :: below).map Declaration.name
        · rw [baseWalkFrom_seen hseen]
        · rw [baseWalkFrom_tooDeep hseen]
      rw [hstop]
      exact isTrail_nil_iff.mpr fun _ _ => .inr rfl
  | succ limit ih =>
      by_cases hseen : base ∈ (d :: below).map Declaration.name
      · rw [baseWalkFrom_seen hseen]
        refine isTrail_nil_iff.mpr fun above habove => .inl ?_
        obtain ⟨e, he, rfl⟩ := List.mem_map.mp hseen
        rw [superclass?_of_nextBase? hbase, hdeclared e he] at habove
        cases habove
        exact he
      cases hget : index.get? .classType base with
      | none =>
          rw [baseWalkFrom_undeclared hseen hget]
          refine isTrail_nil_iff.mpr fun above habove => ?_
          rw [superclass?_of_nextBase? hbase, hget] at habove
          cases habove
      | some above =>
          obtain rfl := (Index.get?_spec hget).2.2
          have hnew : above ∉ d :: below := fun hmem => hseen (List.mem_map_of_mem hmem)
          have habove : superclass? rules index d = some above := by
            rw [superclass?_of_nextBase? hbase, hget]
          cases hnext : nextBase? rules above with
          | none =>
              rw [baseWalkFrom_top hseen hget hnext]
              refine isTrail_cons_iff.mpr ⟨habove, hnew, isTrail_nil_iff.mpr fun _ h => ?_⟩
              rw [superclass?, hnext] at h
              cases h
          | some next =>
              rw [baseWalkFrom_step hseen hget hnext]
              have hall : ∀ e ∈ above :: d :: below, index.get? .classType e.name = some e :=
                List.forall_mem_cons.mpr ⟨hget, hdeclared⟩
              exact isTrail_cons_iff.mpr ⟨habove, hnew, ih hall hnext⟩

-- A walk from a declared class is that class and the trail of its superclasses.
theorem baseWalk_isTrail (rules : Rules) {first : Declaration}
    (hfirst : index.get? .classType name = some first) :
    ∃ rest, (baseWalk rules index name).steps = first :: rest ∧
      IsTrail (superclass? rules index) 63 [first] first rest := by
  obtain rfl := (Index.get?_spec hfirst).2.2
  cases hnext : nextBase? rules first with
  | none =>
      refine ⟨[], ?_, isTrail_nil_iff.mpr fun above habove => ?_⟩
      · rw [baseWalk, depthLimit, baseWalkFrom_top List.not_mem_nil hfirst hnext]
      · rw [superclass?, hnext] at habove
        cases habove
  | some base =>
      refine ⟨_, ?_, baseWalkFrom_isTrail (List.forall_mem_singleton.mpr hfirst) hnext⟩
      rw [baseWalk, depthLimit, baseWalkFrom_step List.not_mem_nil hfirst hnext]
      rfl

theorem baseWalk_undeclared (h : index.get? .classType name = none) :
    (baseWalk rules index name).steps = [] := by
  rw [baseWalk, depthLimit, baseWalkFrom_undeclared List.not_mem_nil h]

namespace ClassWalk

theorem nil_iff : ClassWalk rules index name [] ↔ index.get? .classType name = none := by
  refine ⟨fun h => h.undeclared rfl, fun h => ?_⟩
  exact ⟨nofun, List.nodup_nil, Nat.zero_le _, nofun, fun _ => h, List.isChain_nil, nofun⟩

variable {first : Declaration} {rest : List Declaration}

theorem get?_first (h : ClassWalk rules index name (first :: rest)) :
    index.get? .classType name = some first := by
  have hname := h.starts first rfl
  rw [← hname]
  exact h.declared first List.mem_cons_self

theorem isTrail (h : ClassWalk rules index name (first :: rest)) :
    IsTrail (superclass? rules index) 63 [first] first rest := by
  have hdistinct := List.nodup_cons.mp (List.Nodup.of_map _ h.distinct)
  have hlength : rest.length + 1 ≤ 64 := h.bounded
  refine ⟨?_, ?_, hdistinct.2, by omega, ?_⟩
  · refine h.linked.imp_of_mem_imp fun d above _ habove hstep => ?_
    exact superclass?_eq_some_iff.mpr ⟨hstep, h.declared above habove⟩
  · rintro above habove hself
    rw [List.mem_singleton.mp hself] at habove
    exact hdistinct.1 habove
  · intro last hlast above habove
    obtain ⟨⟨hbase, hroot⟩, hget⟩ := superclass?_eq_some_iff.mp habove
    rcases h.ends last hlast above.name hbase with hroot' | hnone | hseen | hfull
    · cases hroot.symm.trans hroot'
    · cases hnone.symm.trans hget
    · obtain ⟨e, he, hname⟩ := List.mem_map.mp hseen
      have hsame := h.declared e he
      rw [hname, hget] at hsame
      cases hsame
      rcases List.mem_cons.mp he with rfl | he
      · exact .inl List.mem_cons_self
      · exact .inr (.inl he)
    · exact .inr (.inr (Nat.succ.inj hfull))

theorem of_isTrail (hfirst : index.get? .classType name = some first)
    (h : IsTrail (superclass? rules index) 63 [first] first rest) :
    ClassWalk rules index name (first :: rest) := by
  have hname : first.name = name := (Index.get?_spec hfirst).2.2
  have hdeclared : ∀ d ∈ first :: rest, index.get? .classType d.name = some d := by
    refine List.forall_mem_cons.mpr ⟨hname.symm ▸ hfirst, fun d hd => ?_⟩
    obtain ⟨e, he⟩ := h.exists_before hd
    exact (superclass?_eq_some_iff.mp he).2
  constructor
  case declared => exact hdeclared
  case distinct =>
    have hsteps : (first :: rest).Nodup :=
      List.nodup_cons.mpr ⟨fun hmem => h.fresh first hmem List.mem_cons_self, h.distinct⟩
    refine hsteps.map_on fun d hd e he hsame => ?_
    have hget := hdeclared d hd
    rw [hsame, hdeclared e he] at hget
    exact (Option.some.inj hget).symm
  case bounded => exact Nat.succ_le_succ h.bounded
  case starts =>
    rintro _ ⟨⟩
    exact hname
  case undeclared => exact nofun
  case linked => exact h.linked.imp fun d above habove => (superclass?_eq_some_iff.mp habove).1
  case ends =>
    intro last hlast base hbase
    cases hroot : rules.isTerminalRoot base with
    | true => exact .inl rfl
    | false =>
        cases hget : index.get? .classType base with
        | none => exact .inr (.inl rfl)
        | some above =>
            obtain rfl := (Index.get?_spec hget).2.2
            have habove := superclass?_eq_some_iff.mpr ⟨⟨hbase, hroot⟩, hget⟩
            rcases h.ends last hlast above habove with hself | hmem | hfull
            · rw [List.mem_singleton.mp hself]
              exact .inr (.inr (.inl List.mem_cons_self))
            · exact .inr (.inr (.inl (List.mem_cons_of_mem _ (List.mem_map_of_mem hmem))))
            · exact .inr (.inr (.inr (congrArg (· + 1) hfull)))

end ClassWalk

-- There is one such walk from each name, and it is the one that is taken.
theorem classWalk_iff :
    ClassWalk rules index name steps ↔ steps = (baseWalk rules index name).steps := by
  cases hget : index.get? .classType name with
  | none =>
      rw [baseWalk_undeclared hget]
      cases steps with
      | nil => exact iff_of_true (ClassWalk.nil_iff.mpr hget) rfl
      | cons first rest =>
          refine iff_of_false (fun h => ?_) (List.cons_ne_nil _ _)
          cases hget.symm.trans h.get?_first
  | some first =>
      obtain ⟨rest, hsteps, htrail⟩ := baseWalk_isTrail rules hget
      rw [hsteps]
      constructor
      · intro h
        cases steps with
        | nil => cases hget.symm.trans (ClassWalk.nil_iff.mp h)
        | cons other others =>
            cases hget.symm.trans h.get?_first
            rw [h.isTrail.unique htrail]
      · rintro rfl
        exact .of_isTrail hget htrail

end TypeAtlas.Schema
