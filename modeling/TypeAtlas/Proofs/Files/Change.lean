import TypeAtlas.Proofs.Files.Reading
import TypeAtlas.Proofs.Files.Tree

namespace TypeAtlas.FileTree

-- The contents of the file at a place, if a file stands there.
def file? (tree : FileTree) (place : List String) : Option (List UInt8) :=
  match tree.entry? place with
  | some (.file bytes) => some bytes
  | _ => none

-- Every path leads where it led, and the same files stand in both trees with the same contents, except
-- at the places `apart`.
structure KeepsFiles (apart : List (List String)) (tree after : FileTree) : Prop where
  paths : ∀ path place, tree.locate path = .ok place → after.locate path = .ok place
  files : ∀ place, place ∉ apart → after.file? place = tree.file? place

namespace KeepsFiles

variable {apart : List (List String)} {tree middle after : FileTree}

theorem refl (apart : List (List String)) (tree : FileTree) : KeepsFiles apart tree tree :=
  ⟨fun _ _ h => h, fun _ _ => rfl⟩

theorem trans (hfirst : KeepsFiles apart tree middle) (hsecond : KeepsFiles apart middle after) :
    KeepsFiles apart tree after := by
  constructor
  · intro path place h
    exact hsecond.paths path place (hfirst.paths path place h)
  · intro place h
    rw [hsecond.files place h, hfirst.files place h]

theorem mono {others : List (List String)} (h : KeepsFiles apart tree after)
    (hothers : ∀ place ∈ apart, place ∈ others) : KeepsFiles others tree after := by
  refine ⟨h.paths, ?_⟩
  intro place hplace
  exact h.files place fun hmem => hplace (hothers place hmem)

end KeepsFiles

theorem locate_put {tree : FileTree} {place goal : List String} {path : String} (entry : FileEntry)
    (hplace : tree.entry? place ≠ some .directory) (h : tree.locate path = .ok goal) :
    (tree.put place entry).locate path = .ok goal := by
  unfold locate at h ⊢
  split at h
  · cases h
  · exact walk_put entry hplace h

theorem file?_put_other {tree : FileTree} {place other : List String} (entry : FileEntry)
    (h : other ≠ place) : (tree.put place entry).file? other = tree.file? other := by
  rw [file?, file?, entry?_put_other tree entry h]

-- Whatever comes to stand where no directory stood, nothing changes elsewhere.
theorem keepsFiles_put {tree : FileTree} {place : List String} (entry : FileEntry)
    (hplace : tree.entry? place ≠ some .directory) :
    KeepsFiles [place] tree (tree.put place entry) := by
  constructor
  · intro path goal h
    exact locate_put entry hplace h
  · intro other hother
    exact file?_put_other entry (List.ne_of_not_mem_cons hother)

theorem makeDirectory_keepsFiles {tree after : FileTree} {path : String}
    (h : tree.makeDirectory path = .ok after) : KeepsFiles [] tree after := by
  obtain ⟨place, hnone, rfl⟩ : ∃ place, tree.entry? place = none ∧
      after = tree.put place .directory := by
    simp only [makeDirectory, find?, bind, Except.bind] at h
    split at h
    · cases h
    rename_i found hlocate
    split at h
    · cases h
    split at h
    · cases h
    rename_i hfind
    split at hfind
    · cases hfind
    cases hfind
    split at h
    · cases h
    · rename_i hentry
      cases h
      exact ⟨_, hentry, rfl⟩
  have hfree : tree.entry? place ≠ some .directory := by simp [hnone]
  have hput := keepsFiles_put .directory hfree
  refine ⟨hput.paths, ?_⟩
  intro other _
  by_cases hother : other = place
  · -- A new directory stands where nothing stood.
    have hold : tree.file? place = none := by simp [file?, hnone]
    have hnew : (tree.put place .directory).file? place = none := by
      by_cases hfixed : isFixed place = true
      · simp [file?, entry?_fixed _ hfixed]
      · simp [file?, entry?_put_self tree .directory (Bool.eq_false_iff.mpr hfixed)]
    rw [hother, hnew, hold]
  · exact hput.files other (by simpa using hother)

theorem write_keepsFiles {tree after : FileTree} {path : String} {bytes : List UInt8}
    (h : tree.write path bytes = .ok after) :
    ∃ place, after.locate path = .ok place ∧ after.file? place = some bytes ∧
      KeepsFiles [place] tree after := by
  obtain ⟨place, hgoal, hfree, hentry, rfl⟩ := locate_of_write h
  refine ⟨place, hgoal, ?_, keepsFiles_put _ hentry⟩
  rw [file?, entry?_put_self tree _ hfree]

end TypeAtlas.FileTree

namespace TypeAtlas.FileAccess

open FileTree (KeepsFiles)

-- An action that may make directories but changes no file.
def OnlyMakesDirectories {α : Type} (action : StateM FileTree α) : Prop :=
  ∀ tree, KeepsFiles [] tree (action.run tree).2

namespace OnlyMakesDirectories

variable {α β : Type}

theorem of_onlyReads {action : StateM FileTree α} (h : OnlyReads action) :
    OnlyMakesDirectories action := by
  intro tree
  rw [h tree]
  exact KeepsFiles.refl [] tree

theorem bind {action : StateM FileTree α} {next : α → StateM FileTree β}
    (h : OnlyMakesDirectories action) (hnext : ∀ value, OnlyMakesDirectories (next value)) :
    OnlyMakesDirectories (action >>= next) :=
  fun tree => (h tree).trans (hnext _ _)

end OnlyMakesDirectories

theorem makeDirectory_onlyMakesDirectories (path : String) :
    OnlyMakesDirectories (makeDirectory path : StateM FileTree _) := by
  intro tree
  have hrun : (makeDirectory path : StateM FileTree _).run tree =
      FileTree.change (fun tree => tree.makeDirectory path) tree := rfl
  rw [hrun, FileTree.change]
  cases hmake : tree.makeDirectory path with
  | error fault => exact KeepsFiles.refl [] tree
  | ok made => exact FileTree.makeDirectory_keepsFiles hmake

theorem ensureDirectory_onlyMakesDirectories (path : String) :
    OnlyMakesDirectories (ensureDirectory path : StateM FileTree _) := by
  refine (makeDirectory_onlyMakesDirectories path).bind fun result => ?_
  cases result with
  | ok => exact .of_onlyReads (.pure _)
  | error fault =>
      refine .of_onlyReads (OnlyReads.bind (fun _ => rfl) fun kind => ?_)
      split
      · exact .pure _
      · exact .pure _

theorem makeNested_onlyMakesDirectories (paths : List String) :
    OnlyMakesDirectories (makeNested paths : StateM FileTree _) := by
  induction paths with
  | nil => exact .of_onlyReads (.pure _)
  | cons path parents ih =>
      refine (ensureDirectory_onlyMakesDirectories path).bind fun result => ?_
      split
      · refine ih.bind fun made => ?_
        cases made with
        | ok => exact ensureDirectory_onlyMakesDirectories path
        | error fault => exact .of_onlyReads (.pure _)
      · exact .of_onlyReads (.pure _)

-- A file that cannot be saved leaves every file as it was.
theorem saveBytes_error {tree after : FileTree} {path : String} {bytes : List UInt8}
    {fault : FileFault}
    (h : (saveBytes path bytes : StateM FileTree _) tree = (.error fault, after)) :
    KeepsFiles [] tree after := by
  obtain ⟨made, hmade, ⟨hok, -⟩ | ⟨-, rfl⟩⟩ := saveBytes_cases h
  · cases hok
  · exact hmade ▸ makeNested_onlyMakesDirectories (Path.parents path) tree

-- A file that is saved stands where its path leads, and all other files are as they were.
theorem saveBytes_ok {tree after : FileTree} {path : String} {bytes : List UInt8}
    (h : (saveBytes path bytes : StateM FileTree _) tree = (.ok (), after)) :
    ∃ place, after.locate path = .ok place ∧ after.file? place = some bytes ∧
      KeepsFiles [place] tree after := by
  obtain ⟨made, hmade, ⟨-, hwrite⟩ | ⟨⟨fault, herror⟩, -⟩⟩ := saveBytes_cases h
  · have hkept : KeepsFiles [] tree made :=
      hmade ▸ makeNested_onlyMakesDirectories (Path.parents path) tree
    obtain ⟨place, hgoal, hfile, hwritten⟩ := FileTree.write_keepsFiles hwrite
    exact ⟨place, hgoal, hfile, (hkept.mono nofun).trans hwritten⟩
  · cases herror

end TypeAtlas.FileAccess
