import TypeAtlas.Proofs.Schema.Ancestry

namespace TypeAtlas.Schema

variable {templates : NameMap Template} {name : String} {chain : List String}

-- The names above a template, from the first to its own: each but the last is that of a template and
-- is the base of the one behind it, none repeats, and none could be put before the first.
structure IsLineage (templates : NameMap Template) (name : String) (chain : List String) : Prop where
  bounded : chain.length ≤ 64
  distinct : chain.Nodup
  last : chain.getLast? = some name
  known : ∀ ancestor ∈ chain.dropLast, templates.contains ancestor = true
  linked : chain.IsChain fun parent child =>
    ∃ t, templates.get? child = some t ∧ t.base = some parent
  maximal : ∀ first ∈ chain.head?, ∀ t base, templates.get? first = some t → t.base = some base →
    templates.contains base = false ∨ base ∈ chain ∨ chain.length = 64

theorem parent?_iff {child parent : String} :
    parent? templates child = some parent ↔
      (∃ t, templates.get? child = some t ∧ t.base = some parent) ∧
        templates.contains parent = true := by
  rw [parent?, Option.filter_eq_some_iff, Option.bind_eq_some_iff]

-- Read from the template upward, a lineage is a trail along the bases that are templates.
theorem IsLineage.isTrail {ancestors : List String}
    (h : IsLineage templates name (ancestors.reverse ++ [name])) :
    IsTrail (parent? templates) 63 [name] name ancestors := by
  obtain ⟨hbounded, hdistinct, -, hknown, hlinked, hmaximal⟩ := h
  have hreverse : (ancestors.reverse ++ [name]).reverse = name :: ancestors := by simp
  rw [List.dropLast_concat] at hknown
  rw [← List.nodup_reverse, hreverse, List.nodup_cons] at hdistinct
  rw [List.length_append, List.length_reverse, List.length_singleton] at hbounded hmaximal
  refine ⟨?_, ?_, hdistinct.2, by omega, ?_⟩
  · have hupward := List.isChain_reverse.mpr hlinked
    rw [hreverse] at hupward
    refine hupward.imp_of_mem_tail_imp fun child parent _ hmem hparent => ?_
    exact parent?_iff.mpr ⟨hparent, hknown parent (List.mem_reverse.mpr hmem)⟩
  · rintro ancestor hancestor hname
    rw [List.mem_singleton.mp hname] at hancestor
    exact hdistinct.1 hancestor
  · intro last hlast following hnext
    obtain ⟨⟨t, ht, hbase⟩, hcontains⟩ := parent?_iff.mp hnext
    rw [← hreverse, List.getLast?_reverse] at hlast
    rcases hmaximal last hlast t following ht hbase with hnone | hmem | hfull
    · cases hnone.symm.trans hcontains
    · rcases List.mem_append.mp hmem with hmem | hmem
      · exact .inr (.inl (List.mem_reverse.mp hmem))
      · exact .inl hmem
    · exact .inr (.inr (by omega))

theorem isLineage_of_isTrail {ancestors : List String}
    (h : IsTrail (parent? templates) 63 [name] name ancestors) :
    IsLineage templates name (ancestors.reverse ++ [name]) := by
  have hreverse : (ancestors.reverse ++ [name]).reverse = name :: ancestors := by simp
  have hnew : name ∉ ancestors := fun hmem => h.fresh name hmem List.mem_cons_self
  constructor
  case bounded =>
    have := h.bounded
    simp
    omega
  case distinct =>
    rw [← List.nodup_reverse, hreverse]
    exact List.nodup_cons.mpr ⟨hnew, h.distinct⟩
  case last => exact List.getLast?_concat
  case known =>
    intro ancestor hancestor
    rw [List.dropLast_concat, List.mem_reverse] at hancestor
    obtain ⟨child, hchild⟩ := h.exists_before hancestor
    exact (parent?_iff.mp hchild).2
  case linked =>
    rw [← List.isChain_reverse, hreverse]
    exact h.linked.imp fun child parent hparent => (parent?_iff.mp hparent).1
  case maximal =>
    intro first hfirst t base ht hbase
    rw [← List.getLast?_reverse, hreverse] at hfirst
    cases hcontains : templates.contains base with
    | false => exact .inl rfl
    | true =>
        rcases h.ends first hfirst base (parent?_iff.mpr ⟨⟨t, ht, hbase⟩, hcontains⟩) with
          hself | hmem | hfull
        · exact .inr (.inl (List.mem_append.mpr (.inr hself)))
        · exact .inr (.inl (List.mem_append.mpr (.inl (List.mem_reverse.mpr hmem))))
        · exact .inr (.inr (by simp [hfull]))

-- The ancestry of a template is its lineage, and it has no other.
theorem ancestry_lineage (templates : NameMap Template) (name : String) (chain : List String) :
    IsLineage templates name chain ↔ chain = (ancestry templates name).steps := by
  have htrail : IsTrail (parent? templates) 63 [name] name
      (ancestorsFrom templates 63 [name] name) := ancestorsFrom_isTrail 63 [name] name
  have hsteps : (ancestry templates name).steps =
      (ancestorsFrom templates 63 [name] name).reverse ++ [name] := by
    rw [← List.reverse_inj, ancestry_steps_reverse]
    simp [depthLimit]
  constructor
  · intro h
    obtain ⟨front, rfl⟩ := List.getLast?_eq_some_iff.mp h.last
    rw [← List.reverse_reverse front] at h ⊢
    rw [hsteps, h.isTrail.unique htrail]
  · rintro rfl
    rw [hsteps]
    exact isLineage_of_isTrail htrail

end TypeAtlas.Schema
