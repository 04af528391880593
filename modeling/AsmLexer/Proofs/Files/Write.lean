import AsmLexer.Files.FileTree

/-!
# Writing a file

A file is written at a place where nothing is, or a file that may be written, and then something
else is at that place and nowhere else (`entry?_insert_of_ne`). A path is followed through directories
only, and these are still there, so after the write it leads where it led before
(`follow_of_directories`) and the new bytes are read at it (`write_of_writable`).
-/

set_option autoImplicit false

namespace AsmLexer.FileTree

/-- A place at which a file can be written: nothing is there, or a file that may be written. -/
def Open (t : FileTree) (place : List String) : Prop :=
  ∀ entry ∈ t.entry? place, ∃ bytes, entry = .file bytes

/-- A path at which a file can be written: it leads to an open place. -/
def Writable (t : FileTree) (path : Path) : Prop :=
  ∃ place, t.locate path = .ok place ∧ t.Open place

/-- A tree in which these bytes are in the file at a path, and all else is as before. -/
structure Gains (before after : FileTree) (path : Path) (bytes : List UInt8) : Prop where
  workingDirectory_eq : after.workingDirectory = before.workingDirectory
  read_eq : after.read path = .ok bytes
  /-- No other place has changed. -/
  entry?_eq : ∀ place, before.locate path ≠ .ok place → after.entry? place = before.entry? place

/-- The tree with an entry at a place. -/
def insert (t : FileTree) (place : List String) (entry : FileEntry) : FileTree :=
  { t with entries := (place, entry) :: t.entries }

section

variable {t t' : FileTree} {place target names : List String}

/-- An open place holds no directory, so names that lead through it are not followed. -/
theorem Open.ne_directory (h : t.Open place) : t.entry? place ≠ some .directory := by
  intro hentry
  obtain ⟨bytes, hbytes⟩ := h _ hentry
  cases hbytes

/-- The root is a directory and so not open. -/
theorem Open.ne_nil (h : t.Open place) : place ≠ [] := by
  rintro rfl
  exact h.ne_directory rfl

/-- What is put at a place is found there. -/
theorem entry?_insert_self (h : place ≠ []) (entry : FileEntry) :
    FileTree.entry? (t.insert place entry) place = some entry := by
  unfold entry?
  rw [if_neg h, insert, List.lookup_cons_self]

/-- At any other place there is what was there. -/
theorem entry?_insert_of_ne {other : List String} (h : other ≠ place) (entry : FileEntry) :
    FileTree.entry? (t.insert place entry) other = t.entry? other := by
  have hskip : (other == place) = false := by simpa using h
  unfold entry?
  rw [insert, List.lookup_cons, hskip]

/-- A file is read at every path that leads to it. -/
theorem read_of_locate {path : Path} {bytes : List UInt8} (hlocate : t.locate path = .ok place)
    (hentry : t.entry? place = some (.file bytes)) : t.read path = .ok bytes := by
  rw [read, hlocate]
  dsimp only [bind, Except.bind]
  rw [hentry]

/-- At an open place the bytes are put in front of what was there. -/
theorem write_of_locate {path : Path} (hlocate : t.locate path = .ok place)
    (hopen : t.Open place) (bytes : List UInt8) :
    t.write path bytes = .ok (t.insert place (.file bytes)) := by
  rw [write, hlocate]
  dsimp only [bind, Except.bind]
  cases hentry : t.entry? place with
  | none => rfl
  | some entry =>
    obtain ⟨before, rfl⟩ := hopen entry hentry
    rfl

/-- A place at which a write succeeds is open. -/
theorem open_of_write {path : Path} {bytes : List UInt8} {after : FileTree}
    (hlocate : t.locate path = .ok place) (h : t.write path bytes = .ok after) : t.Open place := by
  intro entry hentry
  rw [write, hlocate] at h
  dsimp only [bind, Except.bind] at h
  rw [Option.mem_def.mp hentry] at h
  cases entry with
  | file bytes => exact ⟨bytes, rfl⟩
  | directory => cases h
  | readOnly bytes => cases h
  | locked => cases h

/-- Names lead through directories, so they lead to the same place while these are there. -/
theorem follow_of_directories
    (h : ∀ place, t.entry? place = some .directory → t'.entry? place = some .directory)
    (hfollow : t.follow place names = .ok target) : t'.follow place names = .ok target := by
  induction names generalizing place with
  | nil => exact hfollow
  | cons name names ih =>
    rw [follow] at hfollow ⊢
    cases hentry : t.entry? place with
    | none =>
      rw [hentry] at hfollow
      cases hfollow
    | some entry =>
      rw [hentry] at hfollow
      cases entry with
      | file bytes => cases hfollow
      | readOnly bytes => cases hfollow
      | locked => cases hfollow
      | directory =>
        rw [h place hentry]
        dsimp only at hfollow ⊢
        split at hfollow
        · cases hfollow
        · rename_i hshort
          rw [if_neg hshort]
          exact ih hfollow

/-- A path leads to the same place while the directories are there. -/
theorem locate_of_directories {path : Path}
    (h : ∀ place, t.entry? place = some .directory → t'.entry? place = some .directory)
    (hworking : t'.workingDirectory = t.workingDirectory) (hlocate : t.locate path = .ok target) :
    t'.locate path = .ok target := by
  rw [locate] at hlocate ⊢
  split at hlocate
  · cases hlocate
  rename_i hnull
  rw [if_neg hnull]
  split at hlocate
  · cases hlocate
  rename_i hshort
  rw [if_neg hshort, hworking]
  exact follow_of_directories h hlocate

/-- A file is written at every path that can have one. -/
theorem write_of_writable {path : Path} (h : t.Writable path) (bytes : List UInt8) :
    ∃ after, t.write path bytes = .ok after ∧ t.Gains after path bytes := by
  obtain ⟨place, hlocate, hopen⟩ := h
  have hdirectories : ∀ other, t.entry? other = some .directory →
      FileTree.entry? (t.insert place (.file bytes)) other = some .directory := by
    intro other hother
    rw [entry?_insert_of_ne _ _]
    · exact hother
    · rintro rfl
      exact hopen.ne_directory hother
  refine ⟨t.insert place (.file bytes), ?_, rfl, ?_, ?_⟩
  · exact write_of_locate hlocate hopen bytes
  · apply read_of_locate (locate_of_directories hdirectories rfl hlocate)
    exact entry?_insert_self hopen.ne_nil _
  · intro other hother
    apply entry?_insert_of_ne
    rintro rfl
    exact hother hlocate

/-- What a write has made is the tree with the file, and no other place has changed. -/
theorem gains_of_write {path : Path} {bytes : List UInt8} {after : FileTree}
    (h : t.write path bytes = .ok after) : t.Gains after path bytes := by
  have hwritable : t.Writable path := by
    cases hlocate : t.locate path with
    | error e =>
      rw [write, hlocate] at h
      cases h
    | ok place => exact ⟨place, hlocate, open_of_write hlocate h⟩
  obtain ⟨written, hwrite, hgains⟩ := write_of_writable hwritable bytes
  rw [h] at hwrite
  cases hwrite
  exact hgains

end

end AsmLexer.FileTree
