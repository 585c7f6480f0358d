import TypeAtlas.Files.Access

namespace TypeAtlas.FileAccess

-- An action after which every file is as it was.
def OnlyReads {α : Type} (action : StateM FileTree α) : Prop :=
  ∀ tree, (action.run tree).2 = tree

namespace OnlyReads

variable {ε α β : Type}

theorem pure (value : α) : OnlyReads (Pure.pure value) := fun _ => rfl

theorem bind {action : StateM FileTree α} {next : α → StateM FileTree β} (h : OnlyReads action)
    (hnext : ∀ value, OnlyReads (next value)) : OnlyReads (action >>= next) := by
  intro tree
  have hrun : (action >>= next).run tree = (next (action.run tree).1).run (action.run tree).2 := rfl
  rw [hrun, h tree]
  exact hnext _ tree

theorem run_eq {action : StateM FileTree α} {tree : FileTree} {value : α} (h : OnlyReads action)
    (hvalue : (action.run tree).1 = value) : action.run tree = (value, tree) :=
  Prod.ext hvalue (h tree)

-- The same of actions that can fail.
theorem lift {action : StateM FileTree α} (h : OnlyReads action) :
    OnlyReads (liftM action : ExceptT ε (StateM FileTree) α).run :=
  h.bind fun _ => pure _

theorem bindExcept {action : ExceptT ε (StateM FileTree) α}
    {next : α → ExceptT ε (StateM FileTree) β} (h : OnlyReads action.run)
    (hnext : ∀ value, OnlyReads (next value).run) : OnlyReads (action >>= next).run := by
  rw [ExceptT.run_bind]
  refine h.bind fun result => ?_
  cases result with
  | ok value => exact hnext value
  | error error => exact pure _

end OnlyReads

theorem exists?_onlyReads (path : String) : OnlyReads (exists? path) :=
  fun _ => rfl

theorem readText_onlyReads (path : String) : OnlyReads (readText path) := by
  refine OnlyReads.bind (fun _ => rfl) fun result => ?_
  cases result with
  | error fault => exact OnlyReads.pure _
  | ok bytes =>
      dsimp only
      cases Text.decode? bytes with
      | none => exact OnlyReads.pure _
      | some text => exact OnlyReads.pure _

end TypeAtlas.FileAccess
