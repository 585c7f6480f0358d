import TypeAtlas.Command.Run
import TypeAtlas.Proofs.Files.Reading
import TypeAtlas.Proofs.Schema.RoundTrip

namespace TypeAtlas.Command

open FileAccess

theorem require_onlyReads (what path : String) :
    OnlyReads (require what path : Action (StateM FileTree) Unit).run := by
  refine OnlyReads.bindExcept (exists?_onlyReads path).lift fun found => ?_
  cases found with
  | true => exact OnlyReads.pure _
  | false => exact OnlyReads.pure _

theorem orFail_onlyReads {ε α : Type} {failure : ε → Failure} {result : StateM FileTree (Except ε α)}
    (h : OnlyReads result) : OnlyReads (orFail failure result).run := by
  refine OnlyReads.bindExcept h.lift fun found => ?_
  cases found with
  | ok value => exact OnlyReads.pure _
  | error error => exact OnlyReads.pure _

theorem loadFile_onlyReads (path : String) :
    OnlyReads (Schema.loadFile path : StateM FileTree _) := by
  refine OnlyReads.bind (readText_onlyReads path) fun found => ?_
  cases found with
  | error fault => exact OnlyReads.pure _
  | ok text =>
      dsimp only
      cases Schema.readText text with
      | ok schema => exact OnlyReads.pure _
      | error problem => exact OnlyReads.pure _

theorem loadSchema_onlyReads (path : String) :
    OnlyReads (loadSchema path : Action (StateM FileTree) Schema).run :=
  OnlyReads.bindExcept (require_onlyReads _ path) fun _ => orFail_onlyReads (loadFile_onlyReads path)

-- Steps that succeed are passed.
theorem run_bind_of_ok {α β : Type} {action : Action (StateM FileTree) α}
    {next : α → Action (StateM FileTree) β} {value : α} {tree after : FileTree}
    (h : action.run.run tree = (.ok value, after)) :
    (action >>= next).run.run tree = (next value).run.run after := by
  rw [ExceptT.run_bind, StateT.run_bind, h]
  rfl

theorem run_lift {α : Type} {action : StateM FileTree α} {value : α} {tree after : FileTree}
    (h : action.run tree = (value, after)) :
    (liftM action : Action (StateM FileTree) α).run.run tree = (.ok value, after) := by
  have hrun : (liftM action : Action (StateM FileTree) α).run.run tree =
      (.ok (action.run tree).1, (action.run tree).2) := rfl
  rw [hrun, h]

theorem run_require {path : String} {tree : FileTree} (what : String)
    (h : (tree.kind? path).isSome = true) :
    (require what path : Action (StateM FileTree) Unit).run.run tree = (.ok (), tree) := by
  have hfound : (exists? path : StateM FileTree Bool).run tree = (true, tree) := by
    rw [← h]
    rfl
  rw [require, run_bind_of_ok (run_lift hfound)]
  rfl

theorem run_orFail {ε α : Type} {result : StateM FileTree (Except ε α)} {value : α}
    {tree after : FileTree} (failure : ε → Failure) (h : result.run tree = (.ok value, after)) :
    (orFail failure result).run.run tree = (.ok value, after) := by
  rw [orFail, run_bind_of_ok (run_lift h)]
  rfl

-- A file with the text of a schema is loaded as the schema.
theorem loadSchema_of_read {schema : Schema} {path : String} {tree : FileTree}
    (hthere : (tree.kind? path).isSome = true)
    (hread : tree.read path = .ok (Text.encode schema.fileText.toList)) :
    (loadSchema path : Action (StateM FileTree) Schema).run.run tree = (.ok schema, tree) := by
  have hload : (Schema.loadFile path : StateM FileTree _) tree = (.ok schema, tree) :=
    Schema.loadFile_of_readText (readText_of_read hread) (Schema.readText_fileText schema)
  rw [loadSchema, run_bind_of_ok (run_require _ hthere)]
  exact run_orFail _ hload

end TypeAtlas.Command
