import TypeAtlas.Files.Access
import TypeAtlas.Proofs.Text.Utf8

namespace TypeAtlas.FileTree

-- Places that are always directories.
def isFixed (place : List String) : Bool :=
  place = root || isAround place

theorem entry?_fixed (tree : FileTree) {place : List String} (h : isFixed place = true) :
    tree.entry? place = some .directory := by
  simp only [isFixed] at h
  simp only [ entry?, h, ite_true]

theorem entry?_put_self (tree : FileTree) {place : List String} (entry : FileEntry)
    (h : isFixed place = false) : entry? (tree.put place entry) place = some entry := by
  simp only [isFixed] at h
  simp [ entry?, h, put]

theorem entry?_put_other (tree : FileTree) {place other : List String} (entry : FileEntry)
    (h : other ≠ place) : entry? (tree.put place entry) other = tree.entry? other := by
  have hfind : (tree.entries.filter fun e => e.1 != place).find? (fun e => e.1 == other) =
      tree.entries.find? fun e => e.1 == other := by
    rw [List.find?_filter]
    congr 1
    funext e
    by_cases he : e.1 = other <;> simp [he, h]
  simp [ entry?, put, hfind, Ne.symm h]

-- Where one piece of a path leads from a directory.
def follow? (place : List String) (piece : String) : Option (List String) :=
  if Path.isIdle piece then some place
  else if piece = ".." then some (above place)
  else if Path.nameLimit < piece.utf8ByteSize then none
  else some (place ++ [piece])

theorem walk_cons_eq_ok_iff {tree : FileTree} {place goal : List String} {piece : String}
    {rest : List String} :
    tree.walk place (piece :: rest) = .ok goal ↔ tree.entry? place = some .directory ∧
      ∃ next, follow? place piece = some next ∧ tree.walk next rest = .ok goal := by
  simp only [walk, follow?]
  cases tree.entry? place with
  | none => simp
  | some entry =>
      cases entry with
      | file bytes => simp
      | directory =>
          by_cases hidle : Path.isIdle piece
          · simp [hidle]
          by_cases hup : piece = ".."
          · simp only [hidle, if_pos hup]
            simp
          by_cases hlong : Path.nameLimit < piece.utf8ByteSize <;> simp [hidle, hup, hlong]

-- A walk passes directories only, so what stands elsewhere does not matter to it.
theorem walk_put {tree : FileTree} {place start goal : List String} (entry : FileEntry)
    {pieces : List String} (hplace : tree.entry? place ≠ some .directory)
    (h : tree.walk start pieces = .ok goal) :
    (tree.put place entry).walk start pieces = .ok goal := by
  induction pieces generalizing start with
  | nil => exact h
  | cons piece rest ih =>
      obtain ⟨hdirectory, next, hnext, hrest⟩ := walk_cons_eq_ok_iff.mp h
      have hne : start ≠ place := fun he => hplace (he ▸ hdirectory)
      refine walk_cons_eq_ok_iff.mpr ⟨?_, next, hnext, ih hrest⟩
      rw [entry?_put_other tree entry hne, hdirectory]

theorem walk_append {tree : FileTree} {start middle goal : List String} {front back : List String}
    (hfront : tree.walk start front = .ok middle) (hback : tree.walk middle back = .ok goal) :
    tree.walk start (front ++ back) = .ok goal := by
  induction front generalizing start with
  | nil => cases hfront; exact hback
  | cons piece rest ih =>
      obtain ⟨hdirectory, next, hnext, hrest⟩ := walk_cons_eq_ok_iff.mp hfront
      exact walk_cons_eq_ok_iff.mpr ⟨hdirectory, next, hnext, ih hrest⟩

-- A new name without a slash behind it stands at the end of its path, and the pieces before it lead
-- to a directory.
theorem locateNew_eq_ok {tree : FileTree} {path name : String} {place : List String}
    (h : tree.locateNew path = .ok (place, name, false)) :
    FileFault.ofPath? path = none ∧ name ≠ "" ∧ ∃ front, Path.pieces path = front ++ [name] ∧
      tree.walk (origin path) front = .ok place ∧ tree.entry? place = some .directory := by
  unfold locateNew at h
  cases hfault : FileFault.ofPath? path with
  | some fault => simp [hfault, bind, Except.bind] at h
  | none =>
      simp only [hfault, bind, Except.bind] at h
      have hhead := List.head?_dropWhile_not (fun piece => piece == "") (Path.pieces path).reverse
      have hsuffix := List.dropWhile_suffix (fun piece => piece == "") (l := (Path.pieces path).reverse)
      cases hnames : (Path.pieces path).reverse.dropWhile fun piece => piece == "" with
      | nil => simp [hnames] at h
      | cons last parents =>
          rw [hnames] at h hhead hsuffix
          dsimp only at h
          split at h
          · cases h
          split at h
          · rename_i goal hwalk _ hdirectory
            simp only [Except.ok.injEq, Prod.mk.injEq, decide_eq_false_iff_not, Nat.not_lt] at h
            obtain ⟨rfl, rfl, hlength⟩ := h
            have hpieces := hsuffix.eq_of_length_le hlength
            refine ⟨rfl, by simpa using hhead, parents.reverse, ?_, hwalk, hdirectory⟩
            rw [← List.reverse_reverse (Path.pieces path), ← hpieces, List.reverse_cons]
          · cases h
          · cases h

theorem write_eq_ok {tree after : FileTree} {path : String} {bytes : List UInt8}
    (h : tree.write path bytes = .ok after) :
    ∃ place name, tree.locateNew path = .ok (place, name, false) ∧ name ≠ "." ∧ name ≠ ".." ∧
      ¬Path.nameLimit < name.utf8ByteSize ∧
      tree.entry? (place ++ [name]) ≠ some .directory ∧
      after = tree.put (place ++ [name]) (.file bytes) := by
  simp only [write, bind, Except.bind] at h
  split at h
  · cases h
  rename_i found hlocate
  obtain ⟨place, name, slash⟩ := found
  dsimp only at h
  split at h
  · cases h
  rename_i hname
  simp only [Bool.or_eq_true, decide_eq_true_eq, not_or, Bool.not_eq_true] at hname
  obtain ⟨⟨rfl, hdot⟩, hup⟩ := hname
  refine ⟨place, name, hlocate, hdot, hup, ?_⟩
  simp only [find?] at h
  split at h
  · cases h
  · rename_i hfind
    split at hfind
    · cases hfind
    rename_i hlong
    cases hfind
    split at h
    · cases h
    · rename_i hentry
      cases h
      exact ⟨hlong, hentry, rfl⟩

-- What is written to a path comes to stand where the path leads, and no directory stood there.
theorem locate_of_write {tree after : FileTree} {path : String} {bytes : List UInt8}
    (h : tree.write path bytes = .ok after) :
    ∃ place, after.locate path = .ok place ∧ isFixed place = false ∧
      tree.entry? place ≠ some .directory ∧ after = tree.put place (.file bytes) := by
  obtain ⟨place, name, hlocate, hdot, hup, hlong, hentry, rfl⟩ := write_eq_ok h
  obtain ⟨hfault, hempty, front, hpieces, hwalk, hdirectory⟩ := locateNew_eq_ok hlocate
  have hidle : Path.isIdle name = false := by simp [Path.isIdle, hempty, hdot]
  have hfree : isFixed (place ++ [name]) = false := by
    apply Bool.eq_false_iff.mpr
    intro hfixed
    exact hentry (tree.entry?_fixed hfixed)
  have hlast : tree.walk place [name] = .ok (place ++ [name]) := by
    refine walk_cons_eq_ok_iff.mpr ⟨hdirectory, _, ?_, rfl⟩
    simp [follow?, hidle, hup, hlong]
  refine ⟨place ++ [name], ?_, hfree, hentry, rfl⟩
  simp only [locate, hfault, hpieces]
  exact walk_put _ hentry (walk_append hwalk hlast)

-- What is written to a path is read back from it.
theorem read_of_write {tree after : FileTree} {path : String} {bytes : List UInt8}
    (h : tree.write path bytes = .ok after) : after.read path = .ok bytes := by
  obtain ⟨place, hgoal, hfree, -, rfl⟩ := locate_of_write h
  simp [read, hgoal, bind, Except.bind, entry?_put_self tree _ hfree]

end TypeAtlas.FileTree

namespace TypeAtlas.FileAccess

-- Saving makes directories first, and then writes the file or finds that it cannot.
theorem saveBytes_cases {tree after : FileTree} {path : String} {bytes : List UInt8}
    {result : Except FileFault Unit}
    (h : (saveBytes path bytes : StateM FileTree _) tree = (result, after)) :
    ∃ made, ((makeNested (Path.parents path) : StateM FileTree _).run tree).2 = made ∧
      (result = .ok () ∧ made.write path bytes = .ok after ∨
        (∃ fault, result = .error fault) ∧ after = made) := by
  refine ⟨_, rfl, ?_⟩
  cases hmake : (makeNested (Path.parents path) : StateM FileTree _).run tree with
  | mk found made =>
      have hrun : (makeNested (Path.parents path) : StateM FileTree _) tree = (found, made) := hmake
      simp only [saveBytes, bind, StateT.bind, hrun] at h
      cases found with
      | error fault =>
          cases h
          exact .inr ⟨⟨fault, rfl⟩, rfl⟩
      | ok =>
          simp only [write, FileTree.change] at h
          split at h
          · rename_i hwrite
            cases h
            exact .inl ⟨rfl, hwrite⟩
          · rename_i fault hwrite
            cases h
            exact .inr ⟨⟨fault, rfl⟩, rfl⟩

theorem readText_of_read {tree : FileTree} {path text : String}
    (h : tree.read path = .ok (Text.encode text.toList)) :
    (readText path : StateM FileTree _) tree = (.ok text.toList, tree) := by
  simp only [readText, bind, StateT.bind, read, h, Text.decode?_encode]
  rfl

-- A text that was saved is read back.
theorem readText_of_save {tree after : FileTree} {path text : String}
    (h : (save path text : StateM FileTree _) tree = (.ok (), after)) :
    (readText path : StateM FileTree _) after = (.ok text.toList, after) := by
  obtain ⟨made, -, ⟨-, hwrite⟩ | ⟨⟨fault, herror⟩, -⟩⟩ := saveBytes_cases h
  · exact readText_of_read (FileTree.read_of_write hwrite)
  · cases herror

end TypeAtlas.FileAccess
