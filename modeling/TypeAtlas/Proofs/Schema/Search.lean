import TypeAtlas.Proofs.Schema.Survey

namespace TypeAtlas.Schema

open Dump

def Visit.name : Visit → String
  | .undeclared name => name
  | .declared d _ _ => d.name

namespace Search

variable {search : Search} {index : Index} {classes : List Declaration} {done names : List String}
  {work rest : NameSet} {name : String}

-- What a look-up of a name among all declarations gives.
def lookUp (search : Search) (index : Index) (name : String) : Visit :=
  match index.get? .classType name with
  | some d => if d.isAbstract then .undeclared name else search.visit d
  | none => .undeclared name

theorem lookUp_undeclared (h : index.get? .classType name = none) :
    search.lookUp index name = .undeclared name := by
  simp only [lookUp, h]

theorem lookUp_declared {d : Declaration} (h : index.get? .classType name = some d) :
    search.lookUp index name = if d.isAbstract then .undeclared name else search.visit d := by
  simp only [lookUp, h]

theorem name_lookUp (search : Search) (index : Index) (name : String) :
    (search.lookUp index name).name = name := by
  cases hget : index.get? .classType name with
  | none => rw [lookUp_undeclared hget, Visit.name]
  | some d =>
      rw [lookUp_declared hget]
      split
      · rfl
      · exact (Index.get?_spec hget).2.2

-- The names that can be reached from some names along the wanted elements of the classes found.
inductive Reaches (search : Search) (index : Index) (work : NameSet) : String → Prop
  | work {name : String} : work.contains name = true → Reaches search index work name
  | element {name element : String} : Reaches search index work name →
      element ∈ (search.lookUp index name).elements → search.wants element = true →
      Reaches search index work element

-- What holds whenever a search takes up its next name: the names looked up have left the work, and
-- all other classes can still be found.
structure Ready (index : Index) (classes : List Declaration) (done : List String)
    (work : NameSet) : Prop where
  findable : ∀ name ∉ done, (classes.find? fun d => d.name == name) = index.get? .classType name
  apart : ∀ name, work.contains name = true → name ∉ done

-- The names that a search looks up from such a point on: each of them once, and all that can be
-- reached but those looked up before.
structure Explores (search : Search) (index : Index) (done : List String) (work : NameSet)
    (names : List String) : Prop where
  nodup : names.Nodup
  new : ∀ name ∈ names, name ∉ done
  begins : ∀ name, work.contains name = true → name ∈ names
  closed : ∀ name ∈ names, ∀ element ∈ (search.lookUp index name).elements,
    search.wants element = true → element ∈ names ∨ element ∈ done
  reached : ∀ name ∈ names, search.Reaches index work name

-- The work that is left after a look-up: what it was, and the elements that are new.
def goOn (search : Search) (index : Index) (done : List String) (name : String)
    (rest : NameSet) : NameSet :=
  ((search.lookUp index name).elements.filter fun element =>
    search.wants element && !(name :: done).contains element).foldl NameSet.add rest

theorem contains_goOn_iff {other : String} :
    (search.goOn index done name rest).contains other = true ↔
      (other ∈ (search.lookUp index name).elements ∧ search.wants other = true ∧
        other ∉ name :: done) ∨ rest.contains other = true := by
  rw [goOn, NameSet.contains_foldl_add_iff, List.mem_filter, Bool.and_eq_true, Bool.not_eq_true',
    ← Bool.not_eq_true, List.contains_iff_mem]

theorem goOn_undeclared (h : index.get? .classType name = none) :
    search.goOn index done name rest = rest := by
  rw [goOn, lookUp_undeclared h]
  rfl

theorem contains_of_pop? {entry : Unit} (h : work.pop? = some ((name, entry), rest))
    (other : String) : work.contains other = true ↔ other = name ∨ rest.contains other = true := by
  rw [← NameMap.mem_names_iff, ← NameMap.mem_names_iff, NameMap.names, NameMap.entries_of_pop? h,
    List.map_cons, List.mem_cons]
  rfl

theorem not_contains_of_pop? {entry : Unit} (h : work.pop? = some ((name, entry), rest)) :
    rest.contains name = false := by
  have hnodup := work.names_nodup
  rw [NameMap.entries_of_pop? h, List.map_cons, List.nodup_cons] at hnodup
  rw [← Bool.not_eq_true, ← NameMap.mem_names_iff]
  exact hnodup.1

theorem find?_others {other : String} (h : other ≠ name) :
    ((others name classes).find? fun d => d.name == other) =
      classes.find? fun d => d.name == other := by
  rw [others, List.find?_filter]
  congr 1
  funext d
  by_cases hd : d.name = other
  · simp [hd, h]
  · simp [hd]

-- A look-up removes its name from the work and its class from those that can be found, so all other
-- names find what they found before.
theorem Ready.turn (h : Ready index classes done work) (search : Search) {entry : Unit}
    (hpop : work.pop? = some ((name, entry), rest)) :
    Ready index (others name classes) (name :: done) (search.goOn index done name rest) := by
  constructor
  · intro other hother
    obtain ⟨hne, hnew⟩ := not_or.mp (List.mem_cons.not.mp hother)
    rw [find?_others hne, h.findable other hnew]
  · intro other hother
    rcases contains_goOn_iff.mp hother with ⟨-, -, hnew⟩ | hrest
    · exact hnew
    · have hwork := (contains_of_pop? hpop other).mpr (Or.inr hrest)
      refine List.mem_cons.not.mpr (not_or.mpr ⟨?_, h.apart other hwork⟩)
      rintro rfl
      rw [not_contains_of_pop? hpop] at hrest
      cases hrest

theorem Reaches.of_goOn {entry : Unit} (hpop : work.pop? = some ((name, entry), rest))
    {other : String} (h : search.Reaches index (search.goOn index done name rest) other) :
    search.Reaches index work other := by
  induction h with
  | work hwork =>
      rcases contains_goOn_iff.mp hwork with ⟨helement, hwants, -⟩ | hrest
      · exact .element (.work ((contains_of_pop? hpop name).mpr (Or.inl rfl))) helement hwants
      · exact .work ((contains_of_pop? hpop _).mpr (Or.inr hrest))
  | element _ helement hwants ih => exact .element ih helement hwants

-- What a look-up leads on to is explored by the rest of the search.
theorem Explores.turn (h : Ready index classes done work) {entry : Unit}
    (hpop : work.pop? = some ((name, entry), rest))
    (hnext : search.Explores index (name :: done) (search.goOn index done name rest) names) :
    search.Explores index done work (name :: names) := by
  have hname : work.contains name = true := (contains_of_pop? hpop name).mpr (Or.inl rfl)
  constructor
  case nodup =>
    refine List.nodup_cons.mpr ⟨?_, hnext.nodup⟩
    exact fun hmem => hnext.new name hmem List.mem_cons_self
  case new =>
    intro other hother
    rcases List.mem_cons.mp hother with rfl | hother
    · exact h.apart other hname
    · exact fun hmem => hnext.new other hother (List.mem_cons_of_mem _ hmem)
  case begins =>
    intro other hother
    rcases (contains_of_pop? hpop other).mp hother with rfl | hrest
    · exact List.mem_cons_self
    · exact List.mem_cons_of_mem _ (hnext.begins other (contains_goOn_iff.mpr (Or.inr hrest)))
  case closed =>
    intro other hother element helement hwants
    -- An element that was looked up before, or is being looked up, is no new work.
    by_cases hseen : element ∈ name :: done
    · rcases List.mem_cons.mp hseen with rfl | hdone
      · exact Or.inl List.mem_cons_self
      · exact Or.inr hdone
    · rcases List.mem_cons.mp hother with rfl | hother
      · have hfresh : (search.goOn index done other rest).contains element = true :=
          contains_goOn_iff.mpr (Or.inl ⟨helement, hwants, hseen⟩)
        exact Or.inl (List.mem_cons_of_mem _ (hnext.begins element hfresh))
      · rcases hnext.closed other hother element helement hwants with hmem | hmem
        · exact Or.inl (List.mem_cons_of_mem _ hmem)
        · exact absurd hmem hseen
  case reached =>
    intro other hother
    rcases List.mem_cons.mp hother with rfl | hother
    · exact .work hname
    · exact (hnext.reached other hother).of_goOn hpop

theorem others_of_undeclared (h : (classes.find? fun d => d.name == name) = none) :
    others name classes = classes := by
  refine List.filter_eq_self.mpr fun d hd => ?_
  simpa using List.find?_eq_none.mp h d hd

-- The induction is along the search, whose every turn keeps it ready for the next one.
theorem visits_explores (search : Search) (h : Ready index classes done work) :
    ∃ names, search.visits classes done work = names.map (search.lookUp index) ∧
      search.Explores index done work names := by
  fun_induction search.visits classes done work with
  | case1 classes done work hpop =>
      have hnone : ∀ name, work.contains name = false := by
        intro name
        simp [NameMap.contains, NameMap.pop?_eq_none_iff.mp hpop]
      exact ⟨[], rfl, ⟨List.nodup_nil, by simp, by simp [hnone], by simp, by simp⟩⟩
  | case2 classes done work name _ rest hpop hclass ih =>
      have hname := (contains_of_pop? hpop name).mpr (Or.inl rfl)
      have hget := (h.findable name (h.apart name hname)).symm.trans hclass
      have hnext := h.turn search hpop
      rw [others_of_undeclared hclass, goOn_undeclared hget] at hnext
      obtain ⟨names, hvisits, hexplores⟩ := ih hnext
      refine ⟨name :: names, ?_, .turn h hpop ?_⟩
      · rw [hvisits, List.map_cons, lookUp_undeclared hget]
      · rw [goOn_undeclared hget]
        exact hexplores
  | case3 classes done work name _ rest hpop d hclass visit fresh ih =>
      have hname := (contains_of_pop? hpop name).mpr (Or.inl rfl)
      have hget := (h.findable name (h.apart name hname)).symm.trans hclass
      have hvisit : visit = search.lookUp index name := (lookUp_declared hget).symm
      have hwork : fresh.foldl NameSet.add rest = search.goOn index done name rest := by
        rw [goOn, ← hvisit]
      have hnext := h.turn search hpop
      rw [← hwork] at hnext
      obtain ⟨names, hvisits, hexplores⟩ := ih hnext
      refine ⟨name :: names, ?_, .turn h hpop ?_⟩
      · rw [hvisits, List.map_cons, hvisit]
      · rw [← hwork]
        exact hexplores

theorem ready_start (index : Index) (work : NameSet) :
    Ready index (index.ofKind .classType) [] work :=
  ⟨fun name _ => Index.find?_ofKind _ _ name, fun _ _ => List.not_mem_nil⟩

theorem Explores.mem_iff (h : search.Explores index [] work names) :
    name ∈ names ↔ search.Reaches index work name := by
  constructor
  · exact h.reached name
  · intro hreaches
    induction hreaches with
    | work hwork => exact h.begins _ hwork
    | element _ helement hwants ih =>
        exact (h.closed _ ih _ helement hwants).resolve_right List.not_mem_nil

end Search

end TypeAtlas.Schema
