import TypeAtlas.Json.Record

namespace TypeAtlas.Json

-- Trees in which reading never stopped.
inductive Node.Whole : Node → Prop
  | null : Whole .null
  | bool (value : Bool) : Whole (.bool value)
  | num (numeral : Numeral) : Whole (.num numeral)
  | str (text : Option String) : Whole (.str text)
  | arr {items : List Node} : (∀ item ∈ items, Whole item) → Whole (.arr items .closed)
  | obj {members : List (Option String × Node)} :
      (∀ member ∈ members, Whole member.2) → Whole (.obj members .closed)

-- Whatever is whole can be passed over, also where reading it would fail.
theorem Node.Whole.skip {node : Node} (h : node.Whole) : node.skip = .ok () := by
  cases h <;> rfl

theorem scalar_whole {text rest : List Char} {node : Node} (h : scalar text = (node, .ok rest)) :
    node.Whole := by
  have hword {word : Node} {text : List Char} {found : Except Fault (List Char)}
      (hword : word.Whole) (h : Reading.ofWord word text found = (node, .ok rest)) :
      node.Whole := by
    cases found with
    | ok => cases h; exact hword
    | error => cases h
  have hleaf {α : Type} {make : α → Node} {text : List Char}
      {found : Except Fault (α × List Char)} (hmake : ∀ value, (make value).Whole)
      (h : Reading.ofLeaf make text found = (node, .ok rest)) : node.Whole := by
    cases found with
    | ok => cases h; exact hmake _
    | error => cases h
  unfold scalar at h
  split at h
  · cases h
  · exact hword .null h
  · exact hword (.bool true) h
  · exact hword (.bool false) h
  · exact hleaf .str h
  · split at h
    · exact hleaf .num h
    · cases h

mutual

-- A value that reading came to the end of is whole.
theorem value_whole {fuel : Nat} {text rest : List Char} {node : Node}
    (h : value fuel text = (node, .ok rest)) : node.Whole := by
  cases fuel with
  | zero => cases h
  | succ fuel =>
      rw [value] at h
      split at h
      · exact items_whole (List.forall_mem_nil _) h
      · exact members_whole (List.forall_mem_nil _) h
      · exact scalar_whole h

theorem items_whole {fuel : Nat} {done : List Node} {text rest : List Char} {node : Node}
    (hdone : ∀ item ∈ done, item.Whole) (h : items fuel done text = (node, .ok rest)) :
    node.Whole := by
  cases fuel with
  | zero => cases h
  | succ fuel =>
      rw [items] at h
      split at h
      · cases h
        exact .arr fun item hitem => hdone item (List.mem_reverse.mp hitem)
      · cases h
      · split at h
        · rename_i item _ hitem
          exact items_whole (List.forall_mem_cons.mpr ⟨value_whole hitem, hdone⟩) h
        · cases h

theorem members_whole {fuel : Nat} {done : List (Option String × Node)} {text rest : List Char}
    {node : Node} (hdone : ∀ member ∈ done, member.2.Whole)
    (h : members fuel done text = (node, .ok rest)) : node.Whole := by
  cases fuel with
  | zero => cases h
  | succ fuel =>
      rw [members] at h
      split at h
      · cases h
        exact .obj fun member hmember => hdone member (List.mem_reverse.mp hmember)
      · cases h
      · split at h
        · cases h
        · cases h
        · split at h
          · rename_i item _ hitem
            exact members_whole (List.forall_mem_cons.mpr ⟨value_whole hitem, hdone⟩) h
          · cases h

end

theorem whole_of_read {text : List Char} {node : Node}
    (h : Document.read text = ⟨node, true⟩) : node.Whole := by
  unfold Document.read at h
  split at h
  · rename_i hread
    cases congrArg Document.root h
    exact value_whole hread
  · cases congrArg Document.clean h

end TypeAtlas.Json
