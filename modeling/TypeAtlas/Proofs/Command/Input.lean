import TypeAtlas.Proofs.Command.Loading
import TypeAtlas.Proofs.Files.Change

namespace TypeAtlas.FileTree

theorem read_eq_ok_iff {tree : FileTree} {path : String} {bytes : List UInt8} :
    tree.read path = .ok bytes ↔
      ∃ place, tree.locate path = .ok place ∧ tree.file? place = some bytes := by
  simp only [read, bind, Except.bind]
  cases tree.locate path with
  | error fault => simp
  | ok place =>
      simp only [Except.ok.injEq, exists_eq_left', file?]
      cases tree.entry? place with
      | none => simp
      | some entry => cases entry <;> simp

theorem kind?_of_read {tree : FileTree} {path : String} {bytes : List UInt8}
    (h : tree.read path = .ok bytes) : tree.kind? path = some .file := by
  obtain ⟨place, hplace, hfile⟩ := read_eq_ok_iff.mp h
  simp only [kind?, hplace]
  unfold file? at hfile
  split at hfile
  · rename_i hentry
    rw [hentry]
    rfl
  · cases hfile

end TypeAtlas.FileTree

namespace TypeAtlas.FileAccess

-- A file is read as a text if its bytes are the encoding of one.
theorem readText_eq_ok_iff {tree after : FileTree} {path : String} {text : List Char} :
    (readText path : StateM FileTree _) tree = (.ok text, after) ↔
      tree.read path = .ok (Text.encode text) ∧ after = tree := by
  constructor
  · intro h
    have htree : after = tree := by
      have honly := readText_onlyReads path tree
      rwa [show (readText path : StateM FileTree _).run tree = (.ok text, after) from h] at honly
    refine ⟨?_, htree⟩
    simp only [readText, bind, StateT.bind, read] at h
    cases hread : tree.read path with
    | error fault =>
        rw [hread] at h
        cases h
    | ok bytes =>
        rw [hread] at h
        dsimp only at h
        cases hdecode : Text.decode? bytes with
        | none =>
            rw [hdecode] at h
            cases h
        | some found =>
            rw [hdecode] at h
            cases h
            rw [Text.decode?_eq_some_iff.mp hdecode]
  · rintro ⟨hread, rfl⟩
    rw [← String.toList_ofList (l := text)] at hread ⊢
    exact readText_of_read hread

end TypeAtlas.FileAccess

namespace TypeAtlas.Command

open FileAccess

-- The file that a path leads to holds the text of a schema.
def HoldsSchema (tree : FileTree) (path : String) (schema : Schema) : Prop :=
  ∃ text, tree.read path = .ok (Text.encode text) ∧ Schema.readText text = .ok schema

-- The configuration of a run: the standard one, or what the text of the given file says in the format
-- of its name.
inductive Configured [Config.YamlReader] (tree : FileTree) : Option String → Config → Prop
  | standard : Configured tree none .standard
  | file {path : String} {text : List Char} {format : Config.Format} {config : Config} :
      Config.Format.ofPath? path = some format → tree.read path = .ok (Text.encode text) →
      Config.ofText path text format = .ok config → Configured tree (some path) config

variable {α β : Type} {tree after : FileTree} {path : String}

section

variable {action : Action (StateM FileTree) α} {next : α → Action (StateM FileTree) β}

theorem run_bind_of_error {failure : Failure} (h : action.run.run tree = (.error failure, after)) :
    (action >>= next).run.run tree = (.error failure, after) := by
  rw [ExceptT.run_bind, StateT.run_bind, h]
  rfl

-- Steps succeed together if each does where the one before has left off.
theorem run_bind_eq_ok_iff {value : β} :
    (action >>= next).run.run tree = (.ok value, after) ↔
      ∃ first middle, action.run.run tree = (.ok first, middle) ∧
        (next first).run.run middle = (.ok value, after) := by
  constructor
  · intro h
    cases haction : action.run.run tree with
    | mk result middle =>
        cases result with
        | error failure => cases (run_bind_of_error haction).symm.trans h
        | ok first => exact ⟨first, middle, rfl, (run_bind_of_ok haction).symm.trans h⟩
  · rintro ⟨first, middle, haction, hnext⟩
    rw [run_bind_of_ok haction, hnext]

theorem run_bind_eq_error {failure : Failure}
    (h : (action >>= next).run.run tree = (.error failure, after)) :
    action.run.run tree = (.error failure, after) ∨
      ∃ first middle, action.run.run tree = (.ok first, middle) ∧
        (next first).run.run middle = (.error failure, after) := by
  cases haction : action.run.run tree with
  | mk result middle =>
      cases result with
      | error other =>
          cases (run_bind_of_error haction).symm.trans h
          exact Or.inl rfl
      | ok first =>
          exact Or.inr ⟨first, middle, rfl, (run_bind_of_ok haction).symm.trans h⟩

end

theorem run_require_eq_ok_iff {what : String} :
    (require what path : Action (StateM FileTree) Unit).run.run tree = (.ok (), after) ↔
      (tree.kind? path).isSome = true ∧ after = tree := by
  constructor
  · intro h
    have hfound : (exists? path : StateM FileTree Bool).run tree =
        ((tree.kind? path).isSome, tree) := rfl
    rw [require, run_bind_of_ok (run_lift hfound)] at h
    cases hkind : (tree.kind? path).isSome with
    | true =>
        rw [hkind] at h
        cases h
        exact ⟨rfl, rfl⟩
    | false =>
        rw [hkind] at h
        cases h
  · rintro ⟨hkind, rfl⟩
    exact run_require what hkind

theorem run_orFail_eq_ok_iff {ε : Type} {failure : ε → Failure}
    {result : StateM FileTree (Except ε α)} {value : α} :
    (orFail failure result).run.run tree = (.ok value, after) ↔
      result.run tree = (.ok value, after) := by
  constructor
  · intro h
    cases hresult : result.run tree with
    | mk found middle =>
        rw [orFail, run_bind_of_ok (run_lift hresult)] at h
        cases found with
        | ok other =>
            cases h
            rfl
        | error error => cases h
  · exact run_orFail failure

theorem run_orFail_eq_error {ε : Type} {failure : ε → Failure} {found : Failure}
    {result : StateM FileTree (Except ε α)}
    (h : (orFail failure result).run.run tree = (.error found, after)) :
    ∃ error, result.run tree = (.error error, after) := by
  cases hresult : result.run tree with
  | mk first middle =>
      rw [orFail, run_bind_of_ok (run_lift hresult)] at h
      cases first with
      | ok other => cases h
      | error error =>
          cases h
          exact ⟨error, rfl⟩

theorem loadFile_eq_ok_iff {schema : Schema} :
    (Schema.loadFile path : StateM FileTree _) tree = (.ok schema, after) ↔
      HoldsSchema tree path schema ∧ after = tree := by
  constructor
  · intro h
    have honly := loadFile_onlyReads path tree
    cases hfile : (readText path : StateM FileTree _) tree with
    | mk found middle =>
        simp only [Schema.loadFile, bind, StateT.bind, hfile] at h
        cases found with
        | error fault => cases h
        | ok text =>
            obtain ⟨hread, rfl⟩ := readText_eq_ok_iff.mp hfile
            dsimp only at h
            cases hschema : Schema.readText text with
            | error problem =>
                rw [hschema] at h
                cases h
            | ok loaded =>
                rw [hschema] at h
                cases h
                exact ⟨⟨text, hread, hschema⟩, rfl⟩
  · rintro ⟨⟨text, hread, hschema⟩, rfl⟩
    exact Schema.loadFile_of_readText (readText_eq_ok_iff.mpr ⟨hread, rfl⟩) hschema

theorem loadSchema_eq_ok_iff {schema : Schema} :
    (loadSchema path : Action (StateM FileTree) Schema).run.run tree = (.ok schema, after) ↔
      HoldsSchema tree path schema ∧ after = tree := by
  rw [loadSchema, run_bind_eq_ok_iff]
  constructor
  · rintro ⟨_, middle, hrequire, hload⟩
    obtain ⟨-, rfl⟩ := run_require_eq_ok_iff.mp hrequire
    exact loadFile_eq_ok_iff.mp (run_orFail_eq_ok_iff.mp hload)
  · rintro ⟨hholds, rfl⟩
    obtain ⟨text, hread, -⟩ := id hholds
    have hthere : (after.kind? path).isSome = true := by rw [FileTree.kind?_of_read hread]; rfl
    exact ⟨(), after, run_require _ hthere,
      run_orFail _ (loadFile_eq_ok_iff.mpr ⟨hholds, rfl⟩)⟩

theorem Config.loadFile_eq_ok_iff [Config.YamlReader] {config : Config} :
    (Config.loadFile path : StateM FileTree _) tree = (.ok config, after) ↔
      Configured tree (some path) config ∧ after = tree := by
  unfold Config.loadFile
  constructor
  · intro h
    cases hformat : Config.Format.ofPath? path with
    | none =>
        rw [hformat] at h
        cases h
    | some format =>
        rw [hformat] at h
        cases hfile : (readText path : StateM FileTree _) tree with
        | mk found middle =>
            simp only [bind, StateT.bind, hfile] at h
            cases found with
            | error fault => cases h
            | ok text =>
                obtain ⟨hread, rfl⟩ := readText_eq_ok_iff.mp hfile
                obtain ⟨htext, rfl⟩ := Prod.mk.inj h
                exact ⟨.file hformat hread htext, rfl⟩
  · rintro ⟨hconfigured, rfl⟩
    cases hconfigured with
    | file hformat hread htext =>
        have hfile := readText_eq_ok_iff.mpr ⟨hread, rfl⟩
        simp only [hformat, bind, StateT.bind, hfile, htext]
        rfl

theorem loadConfig_eq_ok_iff [Config.YamlReader] {option : Option String} {config : Config} :
    (loadConfig option : Action (StateM FileTree) Config).run.run tree = (.ok config, after) ↔
      Configured tree option config ∧ after = tree := by
  cases option with
  | none =>
      have hrun : (loadConfig none : Action (StateM FileTree) Config).run.run tree =
          (.ok .standard, tree) := rfl
      rw [hrun]
      constructor
      · intro h
        cases h
        exact ⟨.standard, rfl⟩
      · rintro ⟨hconfigured, rfl⟩
        cases hconfigured
        rfl
  | some path =>
      simp only [loadConfig]
      rw [run_bind_eq_ok_iff]
      constructor
      · rintro ⟨_, middle, hrequire, hload⟩
        obtain ⟨-, rfl⟩ := run_require_eq_ok_iff.mp hrequire
        exact Config.loadFile_eq_ok_iff.mp (run_orFail_eq_ok_iff.mp hload)
      · rintro ⟨hconfigured, rfl⟩
        cases hconfigured with
        | file hformat hread htext =>
            have hthere : (after.kind? path).isSome = true := by
              rw [FileTree.kind?_of_read hread]
              rfl
            have hload := Config.loadFile_eq_ok_iff.mpr ⟨.file hformat hread htext, rfl⟩
            exact ⟨(), after, run_require _ hthere, run_orFail _ hload⟩

theorem readDump_eq_ok_iff {bytes : List UInt8} :
    (readDump path : Action (StateM FileTree) (List UInt8)).run.run tree = (.ok bytes, after) ↔
      tree.read path = .ok bytes ∧ after = tree := by
  rw [readDump, run_bind_eq_ok_iff]
  constructor
  · rintro ⟨_, middle, hrequire, hload⟩
    obtain ⟨-, rfl⟩ := run_require_eq_ok_iff.mp hrequire
    have hread : (middle.read path, middle) = (.ok bytes, after) := run_orFail_eq_ok_iff.mp hload
    obtain ⟨hbytes, rfl⟩ := Prod.mk.inj hread
    exact ⟨hbytes, rfl⟩
  · rintro ⟨hread, rfl⟩
    have hthere : (after.kind? path).isSome = true := by rw [FileTree.kind?_of_read hread]; rfl
    have hload : (FileAccess.read path : StateM FileTree _).run after = (.ok bytes, after) :=
      congrArg (·, after) hread
    exact ⟨(), after, run_require _ hthere, run_orFail _ hload⟩

theorem loadConfig_onlyReads [Config.YamlReader] (option : Option String) :
    OnlyReads (loadConfig option : Action (StateM FileTree) Config).run := by
  cases option with
  | none => exact OnlyReads.pure _
  | some path =>
      refine OnlyReads.bindExcept (require_onlyReads _ path) fun _ => orFail_onlyReads ?_
      unfold Config.load Config.loadFile
      dsimp only
      split
      · exact OnlyReads.pure _
      · refine OnlyReads.bind (readText_onlyReads path) fun found => ?_
        split
        · exact OnlyReads.pure _
        · exact OnlyReads.pure _

theorem readDump_onlyReads (path : String) :
    OnlyReads (readDump path : Action (StateM FileTree) (List UInt8)).run :=
  OnlyReads.bindExcept (require_onlyReads _ path) fun _ => orFail_onlyReads fun _ => rfl

end TypeAtlas.Command
