import TypeAtlas.Proofs.Dump.Index
import TypeAtlas.Schema.Hierarchy

namespace TypeAtlas.Schema

open Dump

variable {rules : Rules} {index : Index} {name : String} {steps : List Declaration}

-- What one step of a walk does.
section

variable {below : List String} {limit : Nat} {d : Declaration}

theorem baseWalkFrom_seen (h : name ∈ below) :
    baseWalkFrom rules index limit below name = ⟨[], .cycle name⟩ := by
  unfold baseWalkFrom
  exact if_pos (List.contains_iff_mem.mpr h)

theorem baseWalkFrom_tooDeep (h : name ∉ below) :
    baseWalkFrom rules index 0 below name = ⟨[], .tooDeep⟩ := by
  simp [baseWalkFrom, h]

theorem baseWalkFrom_undeclared (h : name ∉ below) (hget : index.get? .classType name = none) :
    baseWalkFrom rules index (limit + 1) below name = ⟨[], .top⟩ := by
  simp [baseWalkFrom, h, hget]

theorem baseWalkFrom_top (h : name ∉ below) (hget : index.get? .classType name = some d)
    (hbase : nextBase? rules d = none) :
    baseWalkFrom rules index (limit + 1) below name = ⟨[d], .top⟩ := by
  simp [baseWalkFrom, h, hget, hbase]

theorem baseWalkFrom_step {base : String} (h : name ∉ below)
    (hget : index.get? .classType name = some d) (hbase : nextBase? rules d = some base) :
    baseWalkFrom rules index (limit + 1) below name =
      ⟨d :: (baseWalkFrom rules index limit (name :: below) base).steps,
        (baseWalkFrom rules index limit (name :: below) base).stop⟩ := by
  simp [baseWalkFrom, h, hget, hbase]

end

-- The declarations from a class upward, to the one that has no base that counts or whose base is not
-- declared. There is no bound on their number.
inductive Climbs (rules : Rules) (index : Index) : String → List Declaration → Prop
  | undeclared {name : String} : index.get? .classType name = none → Climbs rules index name []
  | root {name : String} {d : Declaration} :
      index.get? .classType name = some d → nextBase? rules d = none → Climbs rules index name [d]
  | step {name base : String} {d : Declaration} {rest : List Declaration} :
      index.get? .classType name = some d → nextBase? rules d = some base →
      Climbs rules index base rest → Climbs rules index name (d :: rest)

namespace Climbs

theorem unique (h : Climbs rules index name steps) {others : List Declaration}
    (hother : Climbs rules index name others) : steps = others := by
  induction h generalizing others with
  | undeclared hnone =>
      cases hother with
      | undeclared => rfl
      | root hd => cases hnone.symm.trans hd
      | step hd => cases hnone.symm.trans hd
  | root hd hbase =>
      cases hother with
      | undeclared hnone => cases hnone.symm.trans hd
      | root hd' =>
          cases hd.symm.trans hd'
          rfl
      | step hd' hbase' =>
          cases hd.symm.trans hd'
          cases hbase.symm.trans hbase'
  | step hd hbase hrest ih =>
      cases hother with
      | undeclared hnone => cases hnone.symm.trans hd
      | root hd' hbase' =>
          cases hd.symm.trans hd'
          cases hbase.symm.trans hbase'
      | step hd' hbase' hrest' =>
          cases hd.symm.trans hd'
          cases hbase.symm.trans hbase'
          rw [ih hrest']

end Climbs

-- No class but the one a walk begins with is a terminal root.
theorem isTerminalRoot_of_mem_walk {limit : Nat} {below : List String} {d : Declaration}
    (hd : d ∈ (baseWalkFrom rules index limit below name).steps) :
    d.name = name ∨ rules.isTerminalRoot d.name = false := by
  fun_induction baseWalkFrom rules index limit below name with
  | case1 => cases hd
  | case2 => cases hd
  | case3 => cases hd
  | case4 below name hnew limit e hget hbase =>
      obtain rfl := List.mem_singleton.mp hd
      exact Or.inl (Index.get?_spec hget).2.2
  | case5 below name hnew limit e hget base hbase above ih =>
      have hfree : rules.isTerminalRoot base = false := by
        simpa using (Option.filter_eq_some_iff.mp hbase).2
      rcases List.mem_cons.mp hd with rfl | hd
      · exact Or.inl (Index.get?_spec hget).2.2
      · rcases ih hd with hsame | hother
        · exact Or.inr (hsame ▸ hfree)
        · exact Or.inr hother

end TypeAtlas.Schema
