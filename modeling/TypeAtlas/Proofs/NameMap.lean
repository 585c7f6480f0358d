import Mathlib.Data.List.Nodup
import Mathlib.Data.List.Induction
import TypeAtlas.NameMap

namespace TypeAtlas.NameMap

variable {α β : Type}

-- Names that rise do not repeat.
theorem names_nodup (map : NameMap α) : (map.entries.map Prod.fst).Nodup := by
  apply List.pairwise_map.mpr
  refine map.rising.imp ?_
  intro a b hlt heq
  exact String.lt_irrefl _ (heq ▸ hlt)

theorem eq_of_mem_entries (map : NameMap α) {name : String} {a b : α}
    (ha : (name, a) ∈ map.entries) (hb : (name, b) ∈ map.entries) : a = b :=
  congrArg Prod.snd (List.inj_on_of_nodup_map map.names_nodup ha hb rfl)

-- Looking a name up is asking for its entry.
theorem get?_eq_some_iff {map : NameMap α} {name : String} {value : α} :
    map.get? name = some value ↔ (name, value) ∈ map.entries := by
  constructor
  · intro h
    obtain ⟨entry, hfind, rfl⟩ := Option.map_eq_some_iff.mp h
    have hname : entry.1 = name := by simpa using List.find?_some hfind
    exact hname ▸ List.mem_of_find?_eq_some hfind
  · intro h
    have hsome : (map.entries.find? fun entry => entry.1 == name).isSome :=
      List.find?_isSome.mpr ⟨_, h, by simp⟩
    obtain ⟨entry, hfind⟩ := Option.isSome_iff_exists.mp hsome
    have hname : entry.1 = name := by simpa using List.find?_some hfind
    have hmem : (name, entry.2) ∈ map.entries := hname ▸ List.mem_of_find?_eq_some hfind
    simp [get?, hfind, map.eq_of_mem_entries hmem h]

theorem contains_eq_isSome (map : NameMap α) (name : String) :
    map.contains name = (map.get? name).isSome := by
  simp [contains, get?, Option.isSome_map, List.isSome_find?]

theorem contains_iff {map : NameMap α} {name : String} :
    map.contains name = true ↔ ∃ value, map.get? name = some value := by
  rw [contains_eq_isSome, Option.isSome_iff_exists]

theorem get?_eq_none_iff {map : NameMap α} {name : String} :
    map.get? name = none ↔ map.contains name = false := by
  rw [contains_eq_isSome, Option.isSome_eq_false_iff, Option.isNone_iff_eq_none]

-- The names rise strictly, so maps that answer alike have the same entries.
theorem ext_get? {a b : NameMap α} (h : ∀ name, a.get? name = b.get? name) : a = b := by
  have hperm : a.entries.Perm b.entries := by
    apply (List.perm_ext_iff_of_nodup (List.Nodup.of_map _ a.names_nodup)
      (List.Nodup.of_map _ b.names_nodup)).mpr
    rintro ⟨name, value⟩
    rw [← get?_eq_some_iff, ← get?_eq_some_iff, h]
  apply ext
  refine List.Perm.eq_of_pairwise ?_ a.rising b.rising hperm
  intro x y _ _ hxy hyx
  exact absurd (String.lt_trans hxy hyx) (String.lt_irrefl _)

@[simp] theorem get?_empty (name : String) : (empty : NameMap α).get? name = none := rfl

theorem get?_insert (map : NameMap α) (name : String) (value : α) (other : String) :
    (map.insert name value).get? other =
      if name = other then some value else map.get? other := by
  obtain ⟨entries, rising⟩ := map
  simp only [get?, insert]
  clear rising
  induction entries with
  | nil => by_cases h : name = other <;> simp [insertEntry, h]
  | cons head rest ih =>
      simp only [insertEntry]
      split
      · by_cases h : name = other <;> simp [h]
      · split
        · rename_i hgt
          by_cases h : head.1 = other
          · have hne : name ≠ other := fun he => String.lt_irrefl _ (he ▸ h ▸ hgt)
            simp [h, hne]
          · simpa [List.find?_cons_of_neg, h] using ih
        · rename_i hlt hgt
          have heq : head.1 = name := String.le_antisymm hlt hgt
          by_cases h : name = other <;> simp [h, heq]

theorem ofList_append_singleton (entries : List (String × α)) (entry : String × α) :
    ofList (entries ++ [entry]) = (ofList entries).insert entry.1 entry.2 := by
  simp [ofList]

-- A map made of a list answers with the last entry of a name.
theorem get?_ofList (entries : List (String × α)) (name : String) :
    (ofList entries).get? name =
      (entries.reverse.find? fun entry => entry.1 == name).map Prod.snd := by
  induction entries using List.reverseRecOn with
  | nil => rfl
  | append_singleton entries entry ih =>
      rw [ofList_append_singleton, get?_insert, ih, List.reverse_append]
      by_cases h : entry.1 = name <;> simp [h]

-- Where no name repeats, the order of the list does not matter.
theorem get?_ofList_eq_some_iff {entries : List (String × α)} {name : String} {value : α}
    (h : (entries.map Prod.fst).Nodup) :
    (ofList entries).get? name = some value ↔ (name, value) ∈ entries := by
  induction entries using List.reverseRecOn with
  | nil => simp [ofList]
  | append_singleton entries entry ih =>
      rw [List.map_append, List.nodup_append] at h
      obtain ⟨hnodup, -, hnew⟩ := h
      rw [ofList_append_singleton, get?_insert, List.mem_append, List.mem_singleton]
      by_cases hname : entry.1 = name
      · have hmem : (name, value) ∉ entries := fun hm =>
          hnew name (List.mem_map_of_mem hm) entry.1 (by simp) hname.symm
        obtain ⟨key, content⟩ := entry
        obtain rfl : key = name := hname
        simp [hmem, eq_comm]
      · have hne : (name, value) ≠ entry := fun he => hname (he ▸ rfl)
        simp [hname, hne, ih hnodup]

-- A map made of those items of a list that have a value, by keys that do not repeat.
theorem get?_ofList_filterMap {key : β → String} {f : β → Option α} {items : List β}
    {name : String} {value : α} (h : (items.map key).Nodup) :
    (ofList (items.filterMap fun item => (f item).map fun value => (key item, value))).get? name =
        some value ↔
      ∃ item ∈ items, key item = name ∧ f item = some value := by
  have hnames : ((items.filterMap fun item =>
      (f item).map fun value => (key item, value)).map Prod.fst).Nodup := by
    rw [List.Nodup, List.pairwise_map, List.pairwise_filterMap]
    refine (List.pairwise_map.mp h).imp ?_
    rintro a b hne ⟨x, _⟩ hx ⟨y, _⟩ hy
    obtain ⟨_, -, hx⟩ := Option.map_eq_some_iff.mp hx
    obtain ⟨_, -, hy⟩ := Option.map_eq_some_iff.mp hy
    cases hx
    cases hy
    exact hne
  rw [get?_ofList_eq_some_iff hnames]
  simp only [List.mem_filterMap, Option.map_eq_some_iff, Prod.mk.injEq]
  constructor
  · rintro ⟨item, hmem, _, hvalue, hname, rfl⟩
    exact ⟨item, hmem, hname, hvalue⟩
  · rintro ⟨item, hmem, hname, hvalue⟩
    exact ⟨item, hmem, value, hvalue, hname, rfl⟩

-- Where keys repeat, the last item that has a value gives the one its key is looked up with.
theorem get?_ofList_filterMap_last {key : β → String} {f : β → Option α} {items : List β}
    {name : String} {value : α} :
    (ofList (items.filterMap fun item => (f item).map fun value => (key item, value))).get? name =
        some value ↔
      ∃ front item back, items = front ++ item :: back ∧ key item = name ∧ f item = some value ∧
        ∀ later ∈ back, key later = name → f later = none := by
  rw [get?_ofList, ← List.filterMap_reverse, List.find?_filterMap]
  constructor
  · intro h
    obtain ⟨entry, hentry, rfl⟩ := Option.map_eq_some_iff.mp h
    obtain ⟨item, hfind, hitem⟩ := Option.bind_eq_some_iff.mp hentry
    obtain ⟨content, hcontent, rfl⟩ := Option.map_eq_some_iff.mp hitem
    obtain ⟨hname, back, front, hitems, hback⟩ := List.find?_eq_some_iff_append.mp hfind
    refine ⟨front.reverse, item, back.reverse, ?_, ?_, hcontent, ?_⟩
    · rw [← List.reverse_reverse items, hitems]
      simp
    · simpa [hcontent] using hname
    · intro later hlater hkey
      have hnone := hback later (List.mem_reverse.mp hlater)
      cases hf : f later with
      | none => rfl
      | some other => simp [hf, hkey] at hnone
  · rintro ⟨front, item, back, rfl, hkey, hitem, hback⟩
    have hfind : (front ++ item :: back).reverse.find? (fun item =>
        ((f item).map fun value => (key item, value)).any fun entry => entry.1 == name) =
          some item := by
      refine List.find?_eq_some_iff_append.mpr ⟨?_, back.reverse, front.reverse, by simp, ?_⟩
      · simp [hitem, hkey]
      · intro later hlater
        have hnone := hback later (List.mem_reverse.mp hlater)
        cases hf : f later with
        | none => rfl
        | some other =>
            have hne : key later ≠ name := fun h => by
              cases hf.symm.trans (hnone h)
            simp [hne]
    rw [hfind, Option.bind_some, hitem]
    rfl

theorem insertEntry_ne_nil (name : String) (value : α) (entries : List (String × α)) :
    insertEntry name value entries ≠ [] := by
  cases entries with
  | nil => exact List.cons_ne_nil _ _
  | cons head rest =>
      unfold insertEntry
      split
      · exact List.cons_ne_nil _ _
      · split
        · exact List.cons_ne_nil _ _
        · exact List.cons_ne_nil _ _

theorem isEmpty_ofList_iff {entries : List (String × α)} :
    (ofList entries).isEmpty = true ↔ entries = [] := by
  rw [isEmpty, List.isEmpty_iff]
  induction entries using List.reverseRecOn with
  | nil => simp [ofList, empty]
  | append_singleton entries entry ih =>
      rw [ofList_append_singleton]
      simp [insert, insertEntry_ne_nil]

-- A map is made of its entries, in whatever order.
theorem ofList_perm {map : NameMap α} {entries : List (String × α)}
    (h : map.entries.Perm entries) : ofList entries = map := by
  have hnames : (entries.map Prod.fst).Nodup := (h.map Prod.fst).nodup_iff.mp map.names_nodup
  apply ext_get?
  intro name
  apply Option.ext
  intro value
  rw [get?_ofList_eq_some_iff hnames, get?_eq_some_iff, h.mem_iff]

theorem ofList_entries (map : NameMap α) : ofList map.entries = map :=
  ofList_perm (.refl _)

theorem get?_map (f : String → α → β) (map : NameMap α) (name : String) :
    (map.map f).get? name = (map.get? name).map (f name) := by
  apply Option.ext
  intro value
  simp only [get?_eq_some_iff, Option.map_eq_some_iff, NameMap.map, List.mem_map, Prod.mk.injEq]
  constructor
  · rintro ⟨entry, hmem, rfl, rfl⟩
    exact ⟨entry.2, hmem, rfl⟩
  · rintro ⟨content, hmem, rfl⟩
    exact ⟨(name, content), hmem, rfl, rfl⟩

theorem get?_filter_eq_some_iff {keep : String → α → Bool} {map : NameMap α} {name : String}
    {value : α} :
    (map.filter keep).get? name = some value ↔ map.get? name = some value ∧ keep name value := by
  simp [get?_eq_some_iff, NameMap.filter]

theorem mem_names_iff {map : NameMap α} {name : String} :
    name ∈ map.names ↔ map.contains name = true := by
  simp [names, contains]

theorem contains_insert_iff {map : NameMap α} {name other : String} {value : α} :
    (map.insert name value).contains other = true ↔ other = name ∨ map.contains other = true := by
  rw [contains_eq_isSome, contains_eq_isSome, get?_insert]
  by_cases h : name = other
  · simp [h]
  · have hne : other ≠ name := Ne.symm h
    simp [h, hne]

theorem contains_map (f : String → α → β) (map : NameMap α) (name : String) :
    (map.map f).contains name = map.contains name := by
  rw [contains_eq_isSome, contains_eq_isSome, get?_map, Option.isSome_map]

theorem pop?_eq_none_iff {map : NameMap α} : map.pop? = none ↔ map.entries = [] := by
  obtain ⟨entries, rising⟩ := map
  cases entries <;> simp [pop?]

theorem entries_of_pop? {map rest : NameMap α} {entry : String × α}
    (h : map.pop? = some (entry, rest)) : map.entries = entry :: rest.entries := by
  obtain ⟨entries, rising⟩ := map
  cases entries with
  | nil => cases h
  | cons head tail =>
      cases h
      rfl

end TypeAtlas.NameMap

namespace TypeAtlas.NameSet

theorem contains_foldl_add_iff {set : NameSet} {names : List String} {name : String} :
    (names.foldl add set).contains name = true ↔ name ∈ names ∨ set.contains name = true := by
  induction names generalizing set with
  | nil => simp
  | cons head rest ih =>
      rw [List.foldl_cons, ih, add, NameMap.contains_insert_iff, List.mem_cons, or_left_comm,
        or_assoc]

theorem ofNames_eq_foldl (names : List String) : ofNames names = names.foldl add .empty := by
  rw [ofNames, NameMap.ofList, List.foldl_map]
  rfl

theorem contains_ofNames_iff {names : List String} {name : String} :
    (ofNames names).contains name = true ↔ name ∈ names := by
  rw [ofNames_eq_foldl, contains_foldl_add_iff]
  simp [NameMap.contains, NameMap.empty]

theorem mem_names_ofNames_iff {names : List String} {name : String} :
    name ∈ (ofNames names).names ↔ name ∈ names := by
  rw [NameMap.mem_names_iff, contains_ofNames_iff]

theorem contains_domain {α : Type} (map : NameMap α) (name : String) :
    (domain map).contains name = map.contains name :=
  NameMap.contains_map _ map name

theorem ext_contains {s t : NameSet} (h : ∀ name, s.contains name = t.contains name) : s = t := by
  refine NameMap.ext_get? fun name => Option.ext fun value => ?_
  have hname := h name
  rw [NameMap.contains_eq_isSome, NameMap.contains_eq_isSome] at hname
  cases hs : s.get? name with
  | none =>
      rw [hs, Option.isSome_none, eq_comm, Option.isSome_eq_false_iff, Option.isNone_iff_eq_none]
        at hname
      rw [hname]
  | some x =>
      rw [hs, Option.isSome_some, eq_comm, Option.isSome_iff_exists] at hname
      obtain ⟨y, hy⟩ := hname
      rw [hy]

end TypeAtlas.NameSet
