import PlumosBubble.Sequence.Separators
import PlumosBubble.Frontend.CString

/-! The file system as the frontend's scans see it: `stat`, `realpath` and `readdir` by
path, and the searches of `plumos_path.h` on top of them. The tree has no second name for
a directory other than through symbolic links; files may have hard links. -/

namespace PlumosBubble.Frontend

open Sequence

/-- The fields of `struct stat` that the scans read. -/
structure Stat where
  isDir : Bool
  isReg : Bool
  device : ℕ
  inode : ℕ
  deriving DecidableEq

/-- `st_dev` and `st_ino`. -/
def Stat.identity (st : Stat) : ℕ × ℕ := (st.device, st.inode)

/-- A file system that does not change during a scan. -/
structure Disk where
  stat : CString → Option Stat
  realpath : CString → Option CString
  /-- The names in a directory, in the order `readdir` returns them. -/
  readdir : CString → Option (List CString)
  /-- A resolved path names the same file. -/
  stat_realpath : ∀ path resolved, realpath path = some resolved → stat resolved = stat path
  /-- `realpath` writes at most `PATH_MAX` bytes. -/
  realpath_fits : ∀ path resolved, realpath path = some resolved → resolved.length + 1 ≤ pathMax
  /-- Every directory can be resolved. -/
  realpath_dir : ∀ path st, stat path = some st → st.isDir → ∃ resolved,
    realpath path = some resolved
  /-- A directory has one resolved path. -/
  realpath_unique : ∀ path path' st st', stat path = some st → stat path' = some st' →
    st.isDir → st'.isDir → st.identity = st'.identity → realpath path = realpath path'
  /-- Nothing is a directory and a regular file. -/
  not_both : ∀ path st, stat path = some st → ¬(st.isDir ∧ st.isReg)
  /-- A name in a directory is a path component of at most `NAME_MAX` bytes. -/
  readdir_name : ∀ path names name, readdir path = some names → name ∈ names →
    name ≠ [] ∧ slash ∉ name ∧ name.length ≤ 255
  /-- Only directories have entries. -/
  readdir_dir : ∀ path names, readdir path = some names → ∃ st, stat path = some st ∧ st.isDir
  /-- What stands before a slash in the path of a file is a directory. -/
  stat_parent : ∀ parent rest st, parent ≠ [] → rest ≠ [] →
    stat (parent ++ separator parent ++ rest) = some st → ∃ st', stat parent = some st' ∧ st'.isDir
  /-- A slash may follow the path of a directory. -/
  stat_trailing : ∀ path st, stat path = some st → st.isDir → stat (path ++ [slash]) = some st

namespace Disk

variable (disk : Disk)

/-- `is_regular_file`. -/
def isRegularFile (path : CString) : Bool := (disk.stat path).any (·.isReg)

/-- `is_directory`. -/
def isDirectory (path : CString) : Bool := (disk.stat path).any (·.isDir)

/-- `canonical_path`, in a buffer of `PATH_MAX` bytes. -/
def canonicalPath (path : CString) : CString :=
  copied pathMax ((disk.realpath path).getD path)

/-- `find_case_insensitive_file`, in a buffer of `size` bytes. -/
def findCaseInsensitiveFile (size : ℕ) (candidate : CString) : Option CString :=
  if disk.isRegularFile candidate then copyString size candidate
  else
    match pathParent pathMax candidate with
    | none => none
    | some parent =>
      match disk.readdir parent with
      | none => none
      | some names =>
        let found := names.findSome? fun name =>
          if ignoredSidecarName name || !equalCi name (pathBasename candidate) then none
          else (joinPath pathMax parent name).filter disk.isRegularFile
        found.bind (copyString size)

variable {disk}

theorem isDirectory_iff {path : CString} :
    disk.isDirectory path = true ↔ ∃ st, disk.stat path = some st ∧ st.isDir = true := by
  simp [isDirectory, Option.any_eq_true]

theorem isRegularFile_iff {path : CString} :
    disk.isRegularFile path = true ↔ ∃ st, disk.stat path = some st ∧ st.isReg = true := by
  simp [isRegularFile, Option.any_eq_true]

theorem not_isDirectory_of_isRegularFile {path : CString} (h : disk.isRegularFile path = true) :
    ¬disk.isDirectory path = true := by
  intro hdir
  obtain ⟨st, hst, hreg⟩ := isRegularFile_iff.mp h
  obtain ⟨st', hst', hdir⟩ := isDirectory_iff.mp hdir
  rw [hst] at hst'
  cases hst'
  exact disk.not_both path st hst ⟨hdir, hreg⟩

theorem stat_eq_of_canonicalPath_eq {path path' : CString} (hfits : path.length + 1 ≤ pathMax)
    (hfits' : path'.length + 1 ≤ pathMax)
    (h : disk.canonicalPath path = disk.canonicalPath path') :
    disk.stat path = disk.stat path' := by
  have hcanonical : ∀ {p : CString}, p.length + 1 ≤ pathMax →
      disk.stat (disk.canonicalPath p) = disk.stat p := by
    intro p hp
    unfold canonicalPath copied copyString
    cases hreal : disk.realpath p with
    | none =>
      rw [Option.getD_none, if_pos hp]
      rfl
    | some resolved =>
      rw [Option.getD_some, if_pos (disk.realpath_fits p resolved hreal)]
      exact disk.stat_realpath p resolved hreal
  rw [← hcanonical hfits, h, hcanonical hfits']

theorem canonicalPath_eq_of_identity {path path' : CString} {st st' : Stat}
    (hst : disk.stat path = some st) (hst' : disk.stat path' = some st') (hdir : st.isDir = true)
    (hdir' : st'.isDir = true) (h : st.identity = st'.identity) :
    disk.canonicalPath path = disk.canonicalPath path' := by
  obtain ⟨resolved, hreal⟩ := disk.realpath_dir path st hst hdir
  have hsame := disk.realpath_unique path path' st st' hst hst' hdir hdir' h
  unfold canonicalPath
  rw [← hsame, hreal]
  rfl

end Disk

/-- The components of a path. -/
def pathParts (path : CString) : List CString := (path.splitOn slash).filter (· ≠ [])

/-- The absolute path with these components. -/
def absolutePath (parts : List CString) : CString :=
  if parts = [] then [slash] else parts.flatMap (slash :: ·)

theorem pathParts_append (a b : CString) : pathParts (a ++ slash :: b) = pathParts a ++ pathParts b := by
  unfold pathParts
  rw [List.splitOn_append_cons_self, List.filter_append]

theorem pathParts_separator {a : CString} (ha : a ≠ []) (b : CString) :
    pathParts (a ++ separator a ++ b) = pathParts a ++ pathParts b := by
  unfold separator
  split_ifs with h
  · rw [List.append_assoc, List.singleton_append, pathParts_append]
  · have hlast : a.getLast? = some slash := by
      by_contra hne
      exact h ⟨ha, hne⟩
    obtain ⟨p, rfl⟩ := List.getLast?_eq_some_iff.mp hlast
    rw [List.append_nil, List.append_assoc, List.singleton_append, pathParts_append,
      pathParts_append, show pathParts [] = [] from rfl, List.append_nil]

theorem eq_slash_of_pathParts {s : CString} (h : pathParts s = []) : ∀ c ∈ s, c = slash := by
  induction s using separated_induction slash with
  | single s hs =>
    unfold pathParts at h
    rw [List.splitOn_eq_singleton hs] at h
    have hnil : s = [] := by
      by_contra hne
      simp [hne] at h
    rw [hnil]
    exact fun c hc => absurd hc List.not_mem_nil
  | cons piece s hpiece ih =>
    rw [pathParts_append, List.append_eq_nil_iff] at h
    have hnil : piece = [] := by
      by_contra hne
      have hparts := h.1
      unfold pathParts at hparts
      rw [List.splitOn_eq_singleton hpiece] at hparts
      simp [hne] at hparts
    rw [hnil, List.nil_append]
    intro c hc
    rcases List.mem_cons.mp hc with rfl | hmem
    · rfl
    · exact ih h.2 c hmem

/-- A path of a disk that is listed path by path. -/
structure DiskRow where
  parts : List CString
  resolved : List CString
  st : Stat
  names : List CString

/-- The row of an absolute path; only a directory may have a slash behind it. -/
def findRow (rows : List DiskRow) (path : CString) : Option DiskRow :=
  if path.head? = some slash then
    (rows.find? fun row => row.parts = pathParts path).filter fun row =>
      row.st.isDir || path.getLast? ≠ some slash
  else none

/-- Each row agrees with the row of its resolved path, with those of its parents and with
the rest of the table. -/
def DiskRow.Fits (rows : List DiskRow) (row : DiskRow) : Prop :=
  (findRow rows (absolutePath row.resolved)).map DiskRow.st = some row.st ∧
    (absolutePath row.resolved).length + 1 ≤ pathMax ∧ ¬(row.st.isDir ∧ row.st.isReg) ∧
    (∀ name ∈ row.names, name ≠ [] ∧ slash ∉ name ∧ name.length ≤ 255) ∧
    (∀ k < row.parts.length, (rows.find? fun row' => row'.parts = row.parts.take k).any fun row' =>
      row'.st.isDir) ∧
    ∀ row' ∈ rows, row.st.isDir → row'.st.isDir → row.st.identity = row'.st.identity →
      row.resolved = row'.resolved

instance (rows : List DiskRow) (row : DiskRow) : Decidable (row.Fits rows) :=
  inferInstanceAs (Decidable (_ ∧ _ ∧ _ ∧ _ ∧ _ ∧ _))

theorem findRow_eq_some {rows : List DiskRow} {path : CString} {row : DiskRow} :
    findRow rows path = some row ↔ path.head? = some slash ∧
      (rows.find? fun row => row.parts = pathParts path) = some row ∧
      (row.st.isDir = true ∨ path.getLast? ≠ some slash) := by
  unfold findRow
  split_ifs with hhead
  · simp [Option.filter_eq_some_iff, hhead]
  · simp [hhead]

theorem mem_of_findRow {rows : List DiskRow} {path : CString} {row : DiskRow}
    (h : findRow rows path = some row) : row ∈ rows ∧ row.parts = pathParts path := by
  obtain ⟨-, hfind, -⟩ := findRow_eq_some.mp h
  exact ⟨List.mem_of_find?_eq_some hfind, by simpa using List.find?_some hfind⟩

/-- The disk of a table. -/
def Disk.ofRows (rows : List DiskRow) (h : ∀ row ∈ rows, row.Fits rows) : Disk where
  stat path := (findRow rows path).map DiskRow.st
  realpath path := (findRow rows path).map fun row => absolutePath row.resolved
  readdir path := (findRow rows path).bind fun row =>
    if row.st.isDir then some row.names else none
  stat_realpath path resolved hreal := by
    obtain ⟨row, hrow, rfl⟩ := Option.map_eq_some_iff.mp hreal
    rw [(h row (mem_of_findRow hrow).1).1, hrow]
    rfl
  realpath_fits path resolved hreal := by
    obtain ⟨row, hrow, rfl⟩ := Option.map_eq_some_iff.mp hreal
    exact (h row (mem_of_findRow hrow).1).2.1
  realpath_dir path st hst _ := by
    obtain ⟨row, hrow, rfl⟩ := Option.map_eq_some_iff.mp hst
    exact ⟨absolutePath row.resolved, by rw [hrow]; rfl⟩
  realpath_unique path path' st st' hst hst' hdir hdir' hsame := by
    obtain ⟨row, hrow, rfl⟩ := Option.map_eq_some_iff.mp hst
    obtain ⟨row', hrow', rfl⟩ := Option.map_eq_some_iff.mp hst'
    rw [hrow, hrow', Option.map_some, Option.map_some,
      (h row (mem_of_findRow hrow).1).2.2.2.2.2 row' (mem_of_findRow hrow').1 hdir hdir' hsame]
  not_both path st hst := by
    obtain ⟨row, hrow, rfl⟩ := Option.map_eq_some_iff.mp hst
    exact (h row (mem_of_findRow hrow).1).2.2.1
  readdir_name path names name hnames hname := by
    obtain ⟨row, hrow, hentries⟩ := Option.bind_eq_some_iff.mp hnames
    split_ifs at hentries
    cases hentries
    exact (h row (mem_of_findRow hrow).1).2.2.2.1 name hname
  readdir_dir path names hnames := by
    obtain ⟨row, hrow, hentries⟩ := Option.bind_eq_some_iff.mp hnames
    split_ifs at hentries with hdir
    exact ⟨row.st, by rw [hrow]; rfl, hdir⟩
  stat_parent parent rest st hparent hrest hst := by
    obtain ⟨row, hrow, rfl⟩ := Option.map_eq_some_iff.mp hst
    obtain ⟨hhead, hfind, hlast⟩ := findRow_eq_some.mp hrow
    obtain ⟨hmem, hparts⟩ := mem_of_findRow hrow
    rw [pathParts_separator hparent] at hparts hfind
    have hhead' : parent.head? = some slash := by
      rwa [List.append_assoc, List.head?_append_of_ne_nil _ hparent] at hhead
    suffices hdir : ∃ row', (rows.find? fun row => row.parts = pathParts parent) = some row' ∧
        row'.st.isDir = true by
      obtain ⟨row', hrow', hdir'⟩ := hdir
      refine ⟨row'.st, ?_, hdir'⟩
      rw [findRow_eq_some.mpr ⟨hhead', hrow', Or.inl hdir'⟩]
      rfl
    by_cases hnil : pathParts rest = []
    · -- the rest is slashes, which only a directory may have behind it
      rw [hnil, List.append_nil] at hfind
      refine ⟨row, hfind, hlast.resolve_right ?_⟩
      rw [ne_eq, not_not, List.getLast?_append_of_ne_nil _ hrest]
      have hend := List.getLast?_eq_getLast_of_ne_nil hrest
      rw [hend, eq_slash_of_pathParts hnil _ (List.getLast_mem hrest)]
    · have hlt : (pathParts parent).length < row.parts.length := by
        have hpos := List.length_pos_iff.mpr hnil
        rw [hparts, List.length_append]
        omega
      have hdir := (h row hmem).2.2.2.2.1 _ hlt
      rw [hparts, List.take_left] at hdir
      exact Option.any_eq_true _ _ |>.mp hdir
  stat_trailing path st hst hdir := by
    obtain ⟨row, hrow, rfl⟩ := Option.map_eq_some_iff.mp hst
    obtain ⟨hhead, hfind, -⟩ := findRow_eq_some.mp hrow
    have hparts : pathParts (path ++ [slash]) = pathParts path := by
      rw [pathParts_append, show pathParts [] = [] from rfl, List.append_nil]
    have hhead' : (path ++ [slash]).head? = some slash := by
      cases path with
      | nil => rfl
      | cons c path => exact hhead
    rw [findRow_eq_some.mpr ⟨hhead', by rw [hparts]; exact hfind, Or.inl hdir⟩]
    rfl

/-- A directory that is no link. -/
def DiskRow.dir (parts : List CString) (inode : ℕ) (names : List CString) : DiskRow :=
  ⟨parts, parts, ⟨true, false, 1, inode⟩, names⟩

/-- A regular file that is no link. -/
def DiskRow.file (parts : List CString) (inode : ℕ) : DiskRow :=
  ⟨parts, parts, ⟨false, true, 1, inode⟩, []⟩

/-- The rows of `/`, of the SD card and of its ROM root. -/
def cardRows : List DiskRow :=
  [.dir [] 1 [lit "sd"], .dir [lit "sd"] 2 [lit "Roms"],
    .dir [lit "sd", lit "Roms"] 3 []]

end PlumosBubble.Frontend
