namespace TypeAtlas

-- Entries with strictly rising names.
def Rising {α : Type} (entries : List (String × α)) : Prop :=
  entries.Pairwise fun a b => a.1 < b.1

-- Names rise character by character, by code point. Equal contents make equal maps.
structure NameMap (α : Type) where
  entries : List (String × α)
  rising : Rising entries

namespace NameMap

variable {α β : Type}

-- Puts a value at its name's place and replaces the value that stood there.
def insertEntry (name : String) (value : α) : List (String × α) → List (String × α)
  | [] => [(name, value)]
  | entry :: rest =>
    if name < entry.1 then (name, value) :: entry :: rest
    else if entry.1 < name then entry :: insertEntry name value rest
    else (name, value) :: rest

theorem mem_insertEntry {name : String} {value : α} {entries : List (String × α)}
    {entry : String × α} (h : entry ∈ insertEntry name value entries) :
    entry = (name, value) ∨ entry ∈ entries := by
  induction entries with
  | nil => simpa [insertEntry] using h
  | cons head rest ih =>
    simp only [insertEntry] at h
    split at h
    · simpa using h
    · split at h
      · rcases List.mem_cons.mp h with h | h
        · exact Or.inr (h ▸ List.mem_cons_self)
        · exact (ih h).imp_right (List.mem_cons_of_mem head)
      · rcases List.mem_cons.mp h with h | h
        · exact Or.inl h
        · exact Or.inr (List.mem_cons_of_mem head h)

theorem rising_insertEntry (name : String) (value : α) {entries : List (String × α)}
    (h : Rising entries) : Rising (insertEntry name value entries) := by
  induction entries with
  | nil => simp [insertEntry, Rising]
  | cons head rest ih =>
    obtain ⟨hhead, hrest⟩ := List.pairwise_cons.mp h
    simp only [insertEntry]
    split
    · rename_i hlt
      refine List.pairwise_cons.mpr ⟨fun entry he => ?_, h⟩
      rcases List.mem_cons.mp he with he | he
      · exact he ▸ hlt
      · exact String.lt_trans hlt (hhead entry he)
    · rename_i hnot
      split
      · rename_i hlt
        refine List.pairwise_cons.mpr ⟨fun entry he => ?_, ih hrest⟩
        rcases mem_insertEntry he with he | he
        · exact he ▸ hlt
        · exact hhead entry he
      · rename_i hnot'
        have heq : name = head.1 := String.le_antisymm hnot' hnot
        exact List.pairwise_cons.mpr ⟨fun entry he => heq ▸ hhead entry he, hrest⟩

def empty : NameMap α :=
  ⟨[], List.Pairwise.nil⟩

instance : Inhabited (NameMap α) := ⟨empty⟩

def insert (map : NameMap α) (name : String) (value : α) : NameMap α :=
  ⟨insertEntry name value map.entries, rising_insertEntry name value map.rising⟩

-- The last of several values for one name counts.
def ofList (entries : List (String × α)) : NameMap α :=
  entries.foldl (fun map entry => map.insert entry.1 entry.2) empty

def get? (map : NameMap α) (name : String) : Option α :=
  (map.entries.find? fun entry => entry.1 == name).map Prod.snd

def contains (map : NameMap α) (name : String) : Bool :=
  map.entries.any fun entry => entry.1 == name

def names (map : NameMap α) : List String :=
  map.entries.map Prod.fst

def values (map : NameMap α) : List α :=
  map.entries.map Prod.snd

def size (map : NameMap α) : Nat :=
  map.entries.length

def isEmpty (map : NameMap α) : Bool :=
  map.entries.isEmpty

def map (f : String → α → β) (map : NameMap α) : NameMap β where
  entries := map.entries.map fun entry => (entry.1, f entry.1 entry.2)
  rising := by
    simp only [Rising, List.pairwise_map]
    exact map.rising

def filter (keep : String → α → Bool) (map : NameMap α) : NameMap α :=
  ⟨map.entries.filter fun entry => keep entry.1 entry.2,
    List.Pairwise.filter _ map.rising⟩

-- The first entry, and the map of the others.
def pop? (map : NameMap α) : Option ((String × α) × NameMap α) :=
  match map with
  | ⟨[], _⟩ => none
  | ⟨entry :: rest, rising⟩ => some (entry, ⟨rest, (List.pairwise_cons.mp rising).2⟩)

theorem size_of_pop? {map rest : NameMap α} {entry : String × α}
    (h : map.pop? = some (entry, rest)) : map.size = rest.size + 1 := by
  obtain ⟨entries, rising⟩ := map
  cases entries with
  | nil => cases h
  | cons head tail =>
    cases h
    rfl

theorem ext {a b : NameMap α} (h : a.entries = b.entries) : a = b := by
  cases a
  cases b
  cases h
  rfl

instance [DecidableEq α] : DecidableEq (NameMap α) := fun a b =>
  if h : a.entries = b.entries then isTrue (ext h) else isFalse fun hab => h (hab ▸ rfl)

end NameMap

abbrev NameSet := NameMap Unit

namespace NameSet

def ofNames (names : List String) : NameSet :=
  NameMap.ofList (names.map fun name => (name, ()))

def add (set : NameSet) (name : String) : NameSet :=
  set.insert name ()

-- The names of a map.
def domain {α : Type} (map : NameMap α) : NameSet :=
  map.map fun _ _ => ()

-- All names of some sets.
def union (sets : List NameSet) : NameSet :=
  ofNames (sets.flatMap NameMap.names)

end NameSet

end TypeAtlas
