import TypeAtlas.Proofs.Command.Input

namespace TypeAtlas.Command

open FileAccess
open FileTree (KeepsFiles)

variable {tree after : FileTree} {outcome : Outcome}

theorem saveFile_eq_ok {schema : Schema} {output : String}
    (h : (schema.saveFile output : StateM FileTree _) tree = (.ok (), after)) :
    ∃ place bytes, after.locate output = .ok place ∧ after.file? place = some bytes ∧
      KeepsFiles [place] tree after := by
  cases hsave : (saveBytes output (Text.encode schema.fileText.toList) : StateM FileTree _) tree with
  | mk result written =>
      simp only [Schema.saveFile, save, bind, StateT.bind, hsave] at h
      cases result with
      | error fault => cases h
      | ok =>
          cases h
          obtain ⟨place, hplace, hfile, hkept⟩ := saveBytes_ok hsave
          exact ⟨place, _, hplace, hfile, hkept⟩

theorem saveFile_eq_error {schema : Schema} {output : String} {error : Schema.FileError}
    (h : (schema.saveFile output : StateM FileTree _) tree = (.error error, after)) :
    KeepsFiles [] tree after := by
  cases hsave : (saveBytes output (Text.encode schema.fileText.toList) : StateM FileTree _) tree with
  | mk result written =>
      simp only [Schema.saveFile, save, bind, StateT.bind, hsave] at h
      cases result with
      | error fault =>
          cases h
          exact saveBytes_error hsave
      | ok => cases h

theorem buildSchema_eq_ok_iff {rules : Rules} {dump output : String} :
    (buildSchema rules dump output : Action (StateM FileTree) Outcome).run.run tree =
        (.ok outcome, after) ↔
      ∃ bytes, tree.read dump = .ok bytes ∧
        ((Schema.ofDumpBytes rules bytes).saveFile output : StateM FileTree _) tree =
          (.ok (), after) ∧
        outcome = ⟨0, "Schema written to " ++ output ++ "\n" ++
          (Schema.ofDumpBytes rules bytes).summaryText, ""⟩ := by
  rw [buildSchema, run_bind_eq_ok_iff]
  constructor
  · rintro ⟨bytes, middle, hdump, hbuild⟩
    obtain ⟨hread, rfl⟩ := readDump_eq_ok_iff.mp hdump
    obtain ⟨_, written, hsave, hprint⟩ := run_bind_eq_ok_iff.mp hbuild
    cases hprint
    exact ⟨bytes, hread, run_orFail_eq_ok_iff.mp hsave, rfl⟩
  · rintro ⟨bytes, hread, hsave, rfl⟩
    refine ⟨bytes, tree, readDump_eq_ok_iff.mpr ⟨hread, rfl⟩, ?_⟩
    exact run_bind_of_ok (run_orFail _ hsave)

theorem buildSchema_eq_error {rules : Rules} {dump output : String} {failure : Failure}
    (h : (buildSchema rules dump output : Action (StateM FileTree) Outcome).run.run tree =
      (.error failure, after)) : KeepsFiles [] tree after := by
  have honly := readDump_onlyReads dump tree
  rcases run_bind_eq_error h with hdump | ⟨bytes, middle, hdump, hbuild⟩
  · have hsame : after = tree := by rwa [hdump] at honly
    exact hsame ▸ KeepsFiles.refl [] tree
  · obtain ⟨-, rfl⟩ := readDump_eq_ok_iff.mp hdump
    rcases run_bind_eq_error hbuild with hsave | ⟨_, written, -, hprint⟩
    · obtain ⟨error, hsave⟩ := run_orFail_eq_error hsave
      exact saveFile_eq_error hsave
    · cases hprint

theorem diffSchemas_eq_ok_iff {oldPath newPath : String} {json : Bool} :
    (diffSchemas oldPath newPath json : Action (StateM FileTree) Outcome).run.run tree =
        (.ok outcome, after) ↔
      ∃ old new, HoldsSchema tree oldPath old ∧ HoldsSchema tree newPath new ∧ after = tree ∧
        outcome = ⟨if (Diff.between old new).hasCritical then 2 else 0,
          if json then (Diff.between old new).value.pretty ++ "\n"
          else (Diff.between old new).text oldPath newPath, ""⟩ := by
  rw [diffSchemas, run_bind_eq_ok_iff]
  constructor
  · rintro ⟨old, middle, hold, hrest⟩
    obtain ⟨hold, rfl⟩ := loadSchema_eq_ok_iff.mp hold
    obtain ⟨new, last, hnew, hprint⟩ := run_bind_eq_ok_iff.mp hrest
    obtain ⟨hnew, rfl⟩ := loadSchema_eq_ok_iff.mp hnew
    cases hprint
    exact ⟨old, new, hold, hnew, rfl, rfl⟩
  · rintro ⟨old, new, hold, hnew, rfl, rfl⟩
    refine ⟨old, after, loadSchema_eq_ok_iff.mpr ⟨hold, rfl⟩, ?_⟩
    exact run_bind_of_ok (loadSchema_eq_ok_iff.mpr ⟨hnew, rfl⟩)

theorem inspectSchema_eq_ok_iff {path : String} {json : Bool} :
    (inspectSchema path json : Action (StateM FileTree) Outcome).run.run tree =
        (.ok outcome, after) ↔
      ∃ schema, HoldsSchema tree path schema ∧ after = tree ∧
        outcome = ⟨0, if json then schema.summaryValue.pretty ++ "\n"
          else "Schema: " ++ path ++ "\n" ++ schema.summaryText, ""⟩ := by
  rw [inspectSchema, run_bind_eq_ok_iff]
  constructor
  · rintro ⟨schema, middle, hload, hprint⟩
    obtain ⟨hholds, rfl⟩ := loadSchema_eq_ok_iff.mp hload
    cases hprint
    exact ⟨schema, hholds, rfl, rfl⟩
  · rintro ⟨schema, hholds, rfl, rfl⟩
    exact ⟨schema, after, loadSchema_eq_ok_iff.mpr ⟨hholds, rfl⟩, rfl⟩

theorem load_onlyReads (directory : Validation.Directory) (template : String) :
    OnlyReads (directory.load template : StateM FileTree _) := by
  refine OnlyReads.bind (fun _ => rfl) fun kind => ?_
  split
  · refine OnlyReads.bind (readText_onlyReads _) fun found => ?_
    split
    · exact OnlyReads.pure _
    · exact OnlyReads.pure _
  · exact OnlyReads.pure _

theorem loadAll_onlyReads (directory : Validation.Directory) (templates : List String) :
    OnlyReads (directory.loadAll templates : StateM FileTree _) := by
  induction templates with
  | nil => exact OnlyReads.pure _
  | cons template rest ih =>
      refine OnlyReads.bind (load_onlyReads directory template) fun file => ?_
      refine OnlyReads.bind ih fun files => ?_
      split
      · exact OnlyReads.pure _
      · exact OnlyReads.pure _

theorem validate_onlyReads (directory : Validation.Directory) (schema : Schema)
    (thresholds : Thresholds) :
    OnlyReads (directory.validate schema thresholds : StateM FileTree _) :=
  (loadAll_onlyReads directory schema.concrete.names).bind fun files =>
    OnlyReads.pure (Validation.run schema files.get? thresholds)

theorem run_open (path : String) (tree : FileTree) :
    (Validation.Directory.open path : StateM FileTree _).run tree =
      (match tree.kind? path with
        | none => .error (.missing path)
        | some .file => .error (.notADirectory path)
        | some .directory => .ok ⟨path⟩, tree) := by
  simp only [Validation.Directory.open, bind, StateT.run, StateT.bind, FileAccess.kind?]
  cases tree.kind? path with
  | none => rfl
  | some kind =>
      cases kind with
      | file => rfl
      | directory => rfl

theorem open_eq_ok_iff {path : String} {directory : Validation.Directory} :
    (Validation.Directory.open path : StateM FileTree _).run tree = (.ok directory, after) ↔
      tree.kind? path = some .directory ∧ directory = ⟨path⟩ ∧ after = tree := by
  rw [run_open]
  constructor
  · intro h
    obtain ⟨hfound, rfl⟩ := Prod.mk.inj h
    split at hfound
    · cases hfound
    · cases hfound
    · rename_i hkind
      cases hfound
      exact ⟨hkind, rfl, rfl⟩
  · rintro ⟨hkind, rfl, rfl⟩
    rw [hkind]

theorem validateData_onlyReads (thresholds : Thresholds) (schema data : String) (json : Bool) :
    OnlyReads (validateData thresholds schema data json :
      Action (StateM FileTree) Outcome).run := by
  refine OnlyReads.bindExcept (loadSchema_onlyReads schema) fun loaded => ?_
  refine OnlyReads.bindExcept (require_onlyReads _ data) fun _ => ?_
  have hopen : OnlyReads (Validation.Directory.open data : StateM FileTree _) :=
    fun tree => congrArg Prod.snd (run_open data tree)
  refine OnlyReads.bindExcept (orFail_onlyReads hopen) fun directory => ?_
  exact OnlyReads.bindExcept (validate_onlyReads directory loaded thresholds).lift fun _ =>
    OnlyReads.pure _

-- A validation that finds its schema and its directory ends with a verdict.
theorem validateData_eq_ok_iff {thresholds : Thresholds} {schema data : String} {json : Bool} :
    (validateData thresholds schema data json : Action (StateM FileTree) Outcome).run.run tree =
        (.ok outcome, after) ↔
      ∃ loaded, HoldsSchema tree schema loaded ∧ tree.kind? data = some .directory ∧ after = tree ∧
        ∃ report : Validation,
          ((⟨data⟩ : Validation.Directory).validate loaded thresholds : StateM FileTree _).run tree =
            (report, tree) ∧
          outcome = ⟨report.verdict.exitCode,
            if json then report.value.pretty ++ "\n" else report.text schema data, ""⟩ := by
  rw [validateData, run_bind_eq_ok_iff]
  constructor
  · rintro ⟨loaded, middle, hload, hrest⟩
    obtain ⟨hholds, rfl⟩ := loadSchema_eq_ok_iff.mp hload
    obtain ⟨_, middle, hrequire, hbehind⟩ := run_bind_eq_ok_iff.mp hrest
    obtain ⟨-, rfl⟩ := run_require_eq_ok_iff.mp hrequire
    obtain ⟨directory, middle, hopen, hlast⟩ := run_bind_eq_ok_iff.mp hbehind
    obtain ⟨hkind, rfl, rfl⟩ := open_eq_ok_iff.mp (run_orFail_eq_ok_iff.mp hopen)
    rw [run_bind_of_ok (run_lift ((validate_onlyReads ⟨data⟩ loaded thresholds).run_eq rfl))] at hlast
    cases hlast
    exact ⟨loaded, hholds, hkind, rfl, _, (validate_onlyReads ⟨data⟩ loaded thresholds).run_eq rfl, rfl⟩
  · rintro ⟨loaded, hholds, hkind, rfl, report, hreport, rfl⟩
    have hthere : (after.kind? data).isSome = true := by rw [hkind]; rfl
    have hopen := open_eq_ok_iff.mpr ⟨hkind, rfl, rfl⟩
    refine ⟨loaded, after, loadSchema_eq_ok_iff.mpr ⟨hholds, rfl⟩, ?_⟩
    rw [run_bind_of_ok (run_require _ hthere), run_bind_of_ok (run_orFail _ hopen),
      run_bind_of_ok (run_lift hreport)]
    rfl

end TypeAtlas.Command
