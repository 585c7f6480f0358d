import Mathlib.Data.Finset.Card
import TypeAtlas.Proofs.Diff.Mirror
import TypeAtlas.Proofs.Text.ByteOrder

namespace TypeAtlas.Diff

variable {α : Type}

-- The entries with some property, in the order of the bytes of their names and each name once.
structure InOrder (holds : String → α → Prop) (entries : List (String × α)) : Prop where
  rising : entries.Pairwise fun a b => Text.encode a.1.toList < Text.encode b.1.toList
  complete : ∀ name value, (name, value) ∈ entries ↔ holds name value

namespace InOrder

variable {holds : String → α → Prop} {entries : List (String × α)}

-- Maps go by characters, and so do the bytes of names.
theorem of_rising (h : Rising entries)
    (hcomplete : ∀ name value, (name, value) ∈ entries ↔ holds name value) :
    InOrder holds entries :=
  ⟨h.imp Text.encode_lt_encode, hcomplete⟩

theorem names_nodup (h : InOrder holds entries) : (entries.map Prod.fst).Nodup := by
  rw [List.Nodup, List.pairwise_map]
  refine h.rising.imp fun hlt hsame => ?_
  rw [hsame] at hlt
  exact List.lt_irrefl _ hlt

theorem mem_names_iff (h : InOrder holds entries) {name : String} :
    name ∈ entries.map Prod.fst ↔ ∃ value, holds name value := by
  simp only [List.mem_map, Prod.exists, h.complete, exists_and_right, exists_eq_right]

-- There are as many entries as names.
theorem length_eq_card (h : InOrder holds entries) {names : Finset String}
    (hnames : ∀ name, name ∈ names ↔ ∃ value, holds name value) :
    entries.length = names.card := by
  have hset : (entries.map Prod.fst).toFinset = names := by
    ext name
    rw [List.mem_toFinset, h.mem_names_iff, hnames]
  rw [← hset, List.toFinset_card_of_nodup h.names_nodup, List.length_map]

-- Properties that exclude each other have different names.
theorem names_disjoint {β : Type} {excluded : String → β → Prop} {others : List (String × β)}
    (h : InOrder holds entries) (hothers : InOrder excluded others)
    (hapart : ∀ name value other, holds name value → ¬excluded name other) :
    (entries.map Prod.fst).Disjoint (others.map Prod.fst) := by
  intro name hname hother
  obtain ⟨value, hvalue⟩ := h.mem_names_iff.mp hname
  obtain ⟨other, hexcluded⟩ := hothers.mem_names_iff.mp hother
  exact hapart name value other hvalue hexcluded

end InOrder

theorem inOrder_onlyIn (map other : NameMap α) :
    InOrder (fun name value => map.get? name = some value ∧ other.get? name = none)
      (onlyIn map other) :=
  .of_rising (map.rising.filter _) fun _ _ => mem_onlyIn_iff

theorem inOrder_common (old new : NameMap α) :
    InOrder (fun name values => old.get? name = some values.1 ∧ new.get? name = some values.2)
      (common old new) :=
  .of_rising (rising_common old new) fun _ _ => mem_common_iff

theorem inOrder_filter_common {old new : NameMap α} {keep : String × α × α → Bool}
    {holds : String → α × α → Prop}
    (hholds : ∀ name was now,
      (name, was, now) ∈ (common old new).filter keep ↔ holds name (was, now)) :
    InOrder holds ((common old new).filter keep) :=
  .of_rising ((rising_common old new).filter _) fun name (was, now) => hholds name was now

-- A line that says how many others follow it, and these; none if none would follow.
def counted (severity : Severity) (what : String) (lines : List String) :
    List (Record Severity) :=
  if lines = [] then []
  else ⟨severity, toString lines.length ++ what⟩ :: lines.map fun line => ⟨.info, line⟩

theorem map_record_group {count : Nat → Change} {each : String × α → Change}
    {names : List (String × α)} {severity : Severity} {what : String}
    {line : String × α → String}
    (hcount : ∀ n, (count n).record = ⟨severity, toString n ++ what⟩)
    (heach : ∀ entry, (each entry).record = ⟨.info, line entry⟩) :
    (group count each names).map Change.record = counted severity what (names.map line) := by
  cases names with
  | nil => rfl
  | cons head rest =>
      simp [group, counted, hcount, heach]

-- Names that only one side has are counted and listed.
theorem map_record_addedAndRemoved {grain : Grain} {each : String × α → Change}
    {line : String × α → String} (heach : ∀ entry, (each entry).record = ⟨.info, line entry⟩)
    {old new : NameMap α} :
    (addedAndRemoved grain each old new).map Change.record =
      counted .add (" new " ++ grain.label) ((onlyIn new old).map line) ++
        counted .del (" removed " ++ grain.label)
          ((onlyIn old new).map fun entry => "  - " ++ entry.1) := by
  have hadded (n : Nat) : (Change.added grain n).record =
      ⟨.add, toString n ++ (" new " ++ grain.label)⟩ :=
    congrArg (Record.mk _) String.append_assoc
  have hremoved (n : Nat) : (Change.removed grain n).record =
      ⟨.del, toString n ++ (" removed " ++ grain.label)⟩ :=
    congrArg (Record.mk _) String.append_assoc
  have hgone (entry : String × α) : (Change.gone entry.1).record = ⟨.info, "  - " ++ entry.1⟩ :=
    rfl
  rw [addedAndRemoved, List.map_append, map_record_group hadded heach,
    map_record_group hremoved hgone]

theorem flatMap_filter_of_nil {β γ : Type} {f : β → List γ} {keep : β → Bool}
    (h : ∀ x, keep x = false → f x = []) (xs : List β) :
    (xs.filter keep).flatMap f = xs.flatMap f := by
  induction xs with
  | nil => rfl
  | cons x xs ih =>
      rw [List.filter_cons, List.flatMap_cons, ← ih]
      split
      · rfl
      · rename_i hdropped
        rw [h x (Bool.eq_false_iff.mpr hdropped), List.nil_append]

end TypeAtlas.Diff
