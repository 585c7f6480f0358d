import Mathlib.Data.List.TakeWhile
import TypeAtlas.Proofs.Dump.Nesting
import TypeAtlas.Proofs.Schema.Hierarchy
import TypeAtlas.Proofs.Schema.Survey
import TypeAtlas.Proofs.Schema.Trail

namespace TypeAtlas.Schema

open Dump

variable {rules : Rules} {index : Index} {templates : NameMap Template}

-- The ancestors that a walk puts before a chain, the nearest first.
def ancestorsFrom (templates : NameMap Template) : Nat → List String → String → List String
  | limit, chain, name =>
    match parent? templates name with
    | none => []
    | some parent =>
      if chain.contains parent then []
      else
        match limit with
        | 0 => []
        | limit + 1 => parent :: ancestorsFrom templates limit (parent :: chain) parent

section

variable {limit : Nat} {chain : List String} {name parent : String}

theorem ancestorsFrom_top (h : parent? templates name = none) :
    ancestorsFrom templates limit chain name = [] := by
  unfold ancestorsFrom
  simp only [h]

theorem ancestorsFrom_seen (h : parent? templates name = some parent) (hseen : parent ∈ chain) :
    ancestorsFrom templates limit chain name = [] := by
  unfold ancestorsFrom
  simp [h, hseen]

theorem ancestorsFrom_tooDeep : ancestorsFrom templates 0 chain name = [] := by
  unfold ancestorsFrom
  split
  · rfl
  · split <;> rfl

theorem ancestorsFrom_step (h : parent? templates name = some parent) (hnew : parent ∉ chain) :
    ancestorsFrom templates (limit + 1) chain name =
      parent :: ancestorsFrom templates limit (parent :: chain) parent := by
  rw [ancestorsFrom]
  simp [h, hnew]

theorem ancestryFrom_steps :
    (ancestryFrom templates limit chain name).steps =
      (ancestorsFrom templates limit chain name).reverse ++ chain := by
  fun_induction ancestryFrom templates limit chain name with
  | case1 limit chain name htop => rw [ancestorsFrom_top htop]; rfl
  | case2 limit chain name parent hparent hseen =>
      rw [ancestorsFrom_seen hparent (List.contains_iff_mem.mp hseen)]
      rfl
  | case3 chain name parent hparent hnew => rw [ancestorsFrom_tooDeep]; rfl
  | case4 chain name parent hparent hnew limit ih =>
      rw [ancestorsFrom_step hparent fun hmem => hnew (List.contains_iff_mem.mpr hmem), ih]
      simp

end

-- The ancestors are the trail of the parents.
theorem ancestorsFrom_isTrail (limit : Nat) (chain : List String) (name : String) :
    IsTrail (parent? templates) limit chain name (ancestorsFrom templates limit chain name) := by
  fun_induction ancestorsFrom templates limit chain name with
  | case1 limit chain name htop =>
      refine isTrail_nil_iff.mpr fun following h => ?_
      cases htop.symm.trans h
  | case2 limit chain name parent hparent hseen =>
      refine isTrail_nil_iff.mpr fun following h => ?_
      cases hparent.symm.trans h
      exact .inl (List.contains_iff_mem.mp hseen)
  | case3 chain name parent hparent hnew => exact isTrail_nil_iff.mpr fun _ _ => .inr rfl
  | case4 chain name parent hparent hnew limit ih =>
      exact isTrail_cons_iff.mpr
        ⟨hparent, fun hmem => hnew (List.contains_iff_mem.mpr hmem), ih⟩

theorem ancestry_steps_reverse (templates : NameMap Template) (name : String) :
    (ancestry templates name).steps.reverse =
      name :: ancestorsFrom templates (depthLimit - 1) [name] name := by
  rw [ancestry, ancestryFrom_steps]
  simp

-- Templates are declared classes and have the bases of these.
def DeclaredIn (index : Index) (templates : NameMap Template) : Prop :=
  ∀ name t, templates.get? name = some t →
    ∃ d, index.get? .classType name = some d ∧ d.base = t.base

theorem ofDump_declaredIn (rules : Rules) (text : List Char) :
    DeclaredIn (Index.scan text) (ofDump rules text).templates := by
  intro name t ht
  obtain ⟨d, hd, -, rfl⟩ := template_eq_some_iff.mp ht
  exact ⟨d, hd, rfl⟩

theorem parent?_eq_some_iff {name parent : String} {t : Template}
    (ht : templates.get? name = some t) :
    parent? templates name = some parent ↔ t.base = some parent ∧ templates.contains parent := by
  simp [parent?, ht, Option.filter_eq_some_iff]

theorem parent?_eq_none_iff {name : String} {t : Template} (ht : templates.get? name = some t) :
    parent? templates name = none ↔ ∀ base, t.base = some base → templates.contains base = false := by
  simp [parent?, ht, Option.filter_eq_none_iff]

-- A walk that begins at no template comes by none at first.
theorem takeWhile_baseWalkFrom_of_no_template {limit : Nat} {below : List String} {name : String}
    (hname : templates.contains name = false) :
    ((baseWalkFrom rules index limit below name).steps.map Declaration.name).takeWhile
      templates.contains = [] := by
  fun_induction baseWalkFrom rules index limit below name with
  | case1 => rfl
  | case2 => rfl
  | case3 => rfl
  | case4 below name hnew limit d hget hbase => simp [(Index.get?_spec hget).2.2, hname]
  | case5 below name hnew limit d hget base hbase above ih =>
      simp [(Index.get?_spec hget).2.2, hname]

-- Nothing is left of ancestors that begin with a terminal root.
theorem takeWhile_ancestorsFrom_of_root {limit : Nat} {chain : List String} {name : String}
    (hroot : ∀ parent, parent? templates name = some parent → rules.isTerminalRoot parent = true) :
    ((ancestorsFrom templates limit chain name).takeWhile fun ancestor =>
      !rules.isTerminalRoot ancestor) = [] := by
  fun_cases ancestorsFrom templates limit chain name with
  | case1 => rfl
  | case2 => rfl
  | case3 => rfl
  | case4 _ _ _ hparent => simp [hroot _ hparent]

-- As long as a walk through the declarations comes by templates, it comes by the ancestors up to the
-- first terminal root among them.
theorem takeWhile_baseWalkFrom (hdeclared : DeclaredIn index templates) (limit : Nat)
    {below : List String} {name : String} (hname : templates.contains name = true)
    (hnew : name ∉ below) :
    ((baseWalkFrom rules index (limit + 1) below name).steps.map Declaration.name).takeWhile
        templates.contains =
      name :: (ancestorsFrom templates limit (name :: below) name).takeWhile
        fun ancestor => !rules.isTerminalRoot ancestor := by
  obtain ⟨t, ht⟩ := NameMap.contains_iff.mp hname
  obtain ⟨d, hd, hdbase⟩ := hdeclared name t ht
  have hself : d.name = name := (Index.get?_spec hd).2.2
  cases hnext : nextBase? rules d with
  | none =>
      have hroot : ∀ parent, parent? templates name = some parent →
          rules.isTerminalRoot parent = true := by
        intro parent hparent
        have hbase : d.base = some parent := hdbase.trans ((parent?_eq_some_iff ht).mp hparent).1
        simpa [nextBase?, hbase] using hnext
      rw [baseWalkFrom_top hnew hd hnext, takeWhile_ancestorsFrom_of_root hroot]
      simp [hself, hname]
  | some base =>
      obtain ⟨hbase, hfree⟩ := Option.filter_eq_some_iff.mp hnext
      have htbase : t.base = some base := hdbase.symm.trans hbase
      rw [baseWalkFrom_step hnew hd hnext, List.map_cons, hself,
        List.takeWhile_cons_of_pos hname]
      congr 1
      cases htemplate : templates.contains base with
      | false =>
          have htop : parent? templates name = none := by
            apply (parent?_eq_none_iff ht).mpr
            intro other hother
            cases htbase.symm.trans hother
            exact htemplate
          rw [takeWhile_baseWalkFrom_of_no_template htemplate, ancestorsFrom_top htop]
          rfl
      | true =>
          have hparent : parent? templates name = some base :=
            (parent?_eq_some_iff ht).mpr ⟨htbase, htemplate⟩
          by_cases hseen : base ∈ name :: below
          · rw [baseWalkFrom_seen hseen, ancestorsFrom_seen hparent hseen]
            rfl
          · cases limit with
            | zero =>
                rw [baseWalkFrom_tooDeep hseen, ancestorsFrom_tooDeep]
                rfl
            | succ limit =>
                rw [takeWhile_baseWalkFrom hdeclared limit htemplate hseen,
                  ancestorsFrom_step hparent hseen, List.takeWhile_cons, if_pos hfree]

theorem exists_layer_iff {name other : String} :
    (∃ layer ∈ (flatten rules index name).layers, layer.declaration.name = other) ↔
      other ∈ (baseWalk rules index name).steps.map Declaration.name := by
  simp [flatten]

section

variable {text : List Char} {name : String}

theorem takeWhile_baseWalk (h : (ofDump rules text).templates.contains name = true) :
    ((baseWalk rules (Index.scan text) name).steps.map Declaration.name).takeWhile
        (ofDump rules text).templates.contains =
      name :: (ancestorsFrom (ofDump rules text).templates (depthLimit - 1) [name] name).takeWhile
        fun ancestor => !rules.isTerminalRoot ancestor :=
  takeWhile_baseWalkFrom (ofDump_declaredIn rules text) (depthLimit - 1) h List.not_mem_nil

-- The ancestors up to the first terminal root are all of them if none is one.
theorem takeWhile_ancestors_iff {above : List String} :
    (above.takeWhile fun ancestor => !rules.isTerminalRoot ancestor) = above ↔
      ∀ ancestor ∈ above, rules.isTerminalRoot ancestor = false := by
  simp only [List.takeWhile_eq_self_iff, Bool.not_eq_true']

theorem ancestry_eq_takeWhile_iff (h : (ofDump rules text).templates.contains name = true) :
    (ancestry (ofDump rules text).templates name).steps.reverse =
        ((baseWalk rules (Index.scan text) name).steps.map Declaration.name).takeWhile
          (ofDump rules text).templates.contains ↔
      ∀ ancestor ∈ ancestorsFrom (ofDump rules text).templates (depthLimit - 1) [name] name,
        rules.isTerminalRoot ancestor = false := by
  rw [ancestry_steps_reverse, takeWhile_baseWalk h, List.cons_eq_cons, eq_self, true_and, eq_comm]
  exact takeWhile_ancestors_iff

theorem ancestry_visited_iff (h : (ofDump rules text).templates.contains name = true) :
    (∀ ancestor ∈ (ancestry (ofDump rules text).templates name).steps,
        ∃ layer ∈ (flatten rules (Index.scan text) name).layers,
          layer.declaration.name = ancestor) ↔
      ∀ ancestor ∈ ancestorsFrom (ofDump rules text).templates (depthLimit - 1) [name] name,
        rules.isTerminalRoot ancestor = false := by
  simp only [exists_layer_iff]
  constructor
  · intro hvisited ancestor hancestor
    have hlisted : ancestor ∈ (ancestry (ofDump rules text).templates name).steps := by
      rw [← List.mem_reverse, ancestry_steps_reverse]
      exact List.mem_cons_of_mem _ hancestor
    obtain ⟨d, hd, hname⟩ := List.mem_map.mp (hvisited ancestor hlisted)
    have hnew : ancestor ∉ [name] :=
      (ancestorsFrom_isTrail _ [name] name).fresh ancestor hancestor
    rcases isTerminalRoot_of_mem_walk hd with hself | hfree
    · exact absurd (List.mem_singleton.mpr (hname ▸ hself)) hnew
    · exact hname ▸ hfree
  · intro hfree ancestor hlisted
    rw [← List.mem_reverse, (ancestry_eq_takeWhile_iff h).mpr hfree] at hlisted
    exact (List.takeWhile_prefix _).subset hlisted

-- The names above a template in its chain.
theorem mem_dropLast_ancestry_iff {ancestor : String} :
    ancestor ∈ (ancestry templates name).steps.dropLast ↔
      ancestor ∈ ancestorsFrom templates (depthLimit - 1) [name] name := by
  rw [ancestry, ancestryFrom_steps, List.dropLast_concat, List.mem_reverse]

end

-- Whether the two walks of a template come by the same templates, and the one through the
-- declarations by all that its chain lists. Both hang on the terminal roots among its ancestors,
-- which only the walk through the declarations heeds.
theorem ancestry_agrees_iff (rules : Rules) (text : List Char) {name : String}
    (h : (ofDump rules text).templates.contains name = true) :
    ((ancestry (ofDump rules text).templates name).steps.reverse =
        ((baseWalk rules (Index.scan text) name).steps.map Declaration.name).takeWhile
          (ofDump rules text).templates.contains ↔
      ∀ ancestor ∈ (ancestry (ofDump rules text).templates name).steps.dropLast,
        rules.isTerminalRoot ancestor = false) ∧
    ∀ chain, (ofDump rules text).inheritance.get? name = some chain →
      ((∀ ancestor ∈ chain, ∃ layer ∈ (flatten rules (Index.scan text) name).layers,
          layer.declaration.name = ancestor) ↔
        ∀ ancestor ∈ chain.dropLast, rules.isTerminalRoot ancestor = false) := by
  constructor
  · simp only [mem_dropLast_ancestry_iff]
    exact ancestry_eq_takeWhile_iff h
  · intro chain hchain
    obtain ⟨-, rfl, -⟩ := inheritance_eq_some_iff.mp hchain
    simp only [mem_dropLast_ancestry_iff]
    exact ancestry_visited_iff h

def squadDump : List Char :=
  "class UnitTemplate ".toList ++ braced [] ++
    "\nclass SquadTemplate : UnitTemplate ".toList ++ braced [] ++ ['\n']

theorem squad_ancestry_agrees :
    (ancestry (ofDump .standard squadDump).templates "SquadTemplate").steps.reverse =
      ((baseWalk .standard (Index.scan squadDump) "SquadTemplate").steps.map
        Declaration.name).takeWhile (ofDump .standard squadDump).templates.contains := by
  have h : (ofDump .standard squadDump).templates.contains "SquadTemplate" = true := by
    dsimp only [squadDump, String.reduceToList]
    decide +kernel
  apply (ancestry_agrees_iff .standard squadDump h).1.mpr
  dsimp only [squadDump, String.reduceToList]
  decide +kernel

-- With a template for a terminal root, only the walk through the declarations ends there.
def unitRootRules : Rules :=
  { Rules.standard with terminalRootTypes := .ofNames ["UnitTemplate"] }

theorem squad_ancestry_disagrees :
    (ofDump unitRootRules squadDump).templates.contains "SquadTemplate" = true ∧
      (ofDump unitRootRules squadDump).inheritance.get? "SquadTemplate" =
        some ["UnitTemplate", "SquadTemplate"] ∧
      (ancestry (ofDump unitRootRules squadDump).templates "SquadTemplate").steps.reverse =
        ["SquadTemplate", "UnitTemplate"] ∧
      ((baseWalk unitRootRules (Index.scan squadDump) "SquadTemplate").steps.map
        Declaration.name).takeWhile (ofDump unitRootRules squadDump).templates.contains =
          ["SquadTemplate"] ∧
      unitRootRules.isTerminalRoot "UnitTemplate" = true := by
  dsimp only [squadDump, String.reduceToList]
  decide +kernel

end TypeAtlas.Schema
