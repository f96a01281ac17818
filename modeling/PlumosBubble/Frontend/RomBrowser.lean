import Mathlib.Data.List.Sort
import PlumosBubble.Frontend.Favorites
import PlumosBubble.Sequence.Separators

/-! The list of ROMs in directories, `load_rom_entries` of `plumos_controller_ui.c`. A directory
is not stored: each listing makes the entries of its directories from the paths of the ROMs that
it looks through. At the top the directories of all aliases are listed as one. -/

namespace PlumosBubble.Frontend.ControllerUi

/-- `struct rom_entry`, with what the browser adds. -/
structure BrowserEntry extends RomEntry where
  extension : Buffer 32
  detail : Buffer 256
  isNavigationDirectory : Bool
  deriving DecidableEq

/-- What a ROM is to a directory: listed in it, or below an entry of it. -/
inductive Child where
  | file
  | directory (relativePath name : CString)
  deriving DecidableEq

/-- What stands before and after the first `/`, as `strchr` finds it. -/
def splitFirst (s : CString) : Option (CString × CString) :=
  if slash ∈ s then
    some (s.takeWhile (· ≠ slash), (s.dropWhile (· ≠ slash)).tail)
  else none

/-- The `base_len` bytes and the `tail` of a path. -/
def baseAndTail (relativePath currentDir : CString) : Option (CString × CString) :=
  if currentDir ≠ [] then
    (afterStart (currentDir ++ [slash]) relativePath).map fun tail => (currentDir, tail)
  else
    match splitFirst relativePath with
    | some (base, tail) => if tail ≠ [] then some (base, tail) else some ([], relativePath)
    | none => some ([], relativePath)

/-- `rom_browser_child_for_path`. -/
def romBrowserChildForPath (relativePath currentDir : CString) : Option Child :=
  if relativePath = [] then none
  else
    (baseAndTail relativePath currentDir).bind fun (base, tail) =>
      if tail = [] then none
      else
        match splitFirst tail with
        | none => some .file
        | some (segment, _) =>
          if segment = [] || 256 ≤ segment.length then none
          else if segment = [dot] || segment = [dot, dot] then none
          else
            let dirRelativePath := if base ≠ [] then base ++ slash :: segment else segment
            if 1024 ≤ dirRelativePath.length then none
            else some (.directory dirRelativePath segment)

/-- `copy_string` into an array. -/
def copyInto (size : ℕ) [NeZero size] (s : CString) : Buffer size :=
  if s.length < size then .cut s else .empty

/-- `dirname_path`, in an empty array. -/
def dirnamePath (path : CString) : Buffer 1024 :=
  if path = [] then .empty
  else
    match splitLast slash path with
    | none => copyInto 1024 [dot]
    | some ([], _) => copyInto 1024 [slash]
    | some (dir, _) => copyInto 1024 dir

/-- `build_navigation_directory_path`, in an empty array. -/
def buildNavigationDirectoryPath (source : RomEntry) (dirRelativePath : CString) : Buffer 1024 :=
  if source.path.text = [] || source.relativePath.text = [] || dirRelativePath = [] then .empty
  else if source.relativePath.text <:+ source.path.text then
    copyInto 1024 (source.path.text.take
      (source.path.text.length - source.relativePath.text.length) ++ dirRelativePath)
  else dirnamePath source.path.text

/-- The entry of a directory. -/
def navigationDirectory (source : RomEntry) (relativePath displayName : CString) :
    BrowserEntry where
  systemId := source.systemId
  title :=
    if (lit "[DIR] " ++ displayName).length < 256 then copyInto 256 (lit "[DIR] " ++ displayName)
    else copyInto 256 (lit "[DIR]")
  relativePath := copyInto 1024 relativePath
  path := buildNavigationDirectoryPath source relativePath
  thumbnail := .empty
  extension := copyInto 32 (lit "dir")
  detail := copyInto 256 (lit "Directory")
  isNavigationDirectory := true

/-- `rom_navigation_directory_exists`. -/
def romNavigationDirectoryExists (entries : List BrowserEntry) (relativePath : CString) : Bool :=
  relativePath ≠ [] && entries.any fun entry =>
    entry.isNavigationDirectory && entry.relativePath.text = relativePath

/-- `add_navigation_directory_entry`. -/
def addNavigationDirectoryEntry (entries : List BrowserEntry) (source : RomEntry)
    (relativePath displayName : CString) : List BrowserEntry :=
  if relativePath = [] || displayName = [] ||
      romNavigationDirectoryExists entries relativePath then entries
  else entries ++ [navigationDirectory source relativePath displayName]

/-- A ROM of the index, with its extension. -/
structure IndexedRom extends RomEntry where
  extension : Buffer 32
  deriving DecidableEq

def IndexedRom.entry (rom : IndexedRom) : BrowserEntry :=
  { rom.toRomEntry with
    extension := rom.extension
    detail := .empty
    isNavigationDirectory := false }

/-- What the loop of `load_rom_entries` does with a ROM. -/
def listRom (romDirectory : CString) (entries : List BrowserEntry) (rom : IndexedRom) :
    List BrowserEntry :=
  match romBrowserChildForPath rom.relativePath.text romDirectory with
  | none => entries
  | some (.directory relativePath name) =>
    addNavigationDirectoryEntry entries rom.toRomEntry relativePath name
  | some .file => entries ++ [rom.entry]

/-- `compare_text_ci`. -/
def compareTextCi : CString → CString → ℤ
  | [], [] => 0
  | a :: _, [] => a.toNat
  | [], b :: _ => -b.toNat
  | a :: s, b :: t =>
    if toLower a ≠ toLower b then (toLower a).toNat - (toLower b).toNat else compareTextCi s t

/-- `cmp_rom_entry_path` and `cmp_rom_entry_name`. -/
def cmpRomEntry (byPath : Bool) (a b : BrowserEntry) : ℤ :=
  let title := compareTextCi a.title.text b.title.text
  let path := compareTextCi a.relativePath.text b.relativePath.text
  let (first, second) := if byPath then (path, title) else (title, path)
  if a.isNavigationDirectory ≠ b.isNavigationDirectory then
    b.isNavigationDirectory.toNat - a.isNavigationDirectory.toNat
  else if first ≠ 0 then first
  else second

/-- The entries of a directory, in the order of the setting. -/
def romEntries (byPath : Bool) (roms : List IndexedRom) (romDirectory : CString) :
    List BrowserEntry :=
  (roms.foldl (listRom romDirectory) []).mergeSort fun a b => cmpRomEntry byPath a b ≤ 0

/-- A ROM of the index, as it is read. -/
def readRom (systemId : Buffer 64) (object : CString) : IndexedRom :=
  let title := (jsonGetString 256 (lit "title") object).into .empty
  let relativePath := (jsonGetString 1024 (lit "relative_path") object).into .empty
  { systemId
    title := if title.nonempty then title else relativePath.copy
    relativePath
    path := (jsonGetString 1024 (lit "path") object).into .empty
    thumbnail :=
      match jsonFindObject (lit "media") object with
      | none => .empty
      | some media => (jsonGetString 1024 (lit "thumbnail") media).into .empty
    extension := (jsonGetString 32 (lit "extension") object).into .empty }

/-- `load_rom_entries`, from the index of a system. -/
def loadRomEntries (byPath : Bool) (systemId : Buffer 64) (json romDirectory : CString) :
    Option (List BrowserEntry) :=
  (jsonFindArray (lit "roms") json).map fun body =>
    romEntries byPath ((jsonObjects body).map (readRom systemId)) romDirectory

section Paths

theorem splitFirst_eq_none {s : CString} : splitFirst s = none ↔ slash ∉ s := by
  simp [splitFirst]

theorem takeWhile_before {before : CString} (h : slash ∉ before) (after : CString) :
    (before ++ slash :: after).takeWhile (· ≠ slash) = before ∧
      (before ++ slash :: after).dropWhile (· ≠ slash) = slash :: after := by
  have hfree : ∀ c ∈ before, (decide (c ≠ slash)) = true := by
    intro c hc
    rw [decide_eq_true_eq]
    rintro rfl
    exact h hc
  rw [List.takeWhile_append_of_pos hfree, List.dropWhile_append_of_pos hfree]
  simp

theorem splitFirst_eq_some {s before after : CString} :
    splitFirst s = some (before, after) ↔ s = before ++ slash :: after ∧ slash ∉ before := by
  unfold splitFirst
  constructor
  · intro h
    split at h
    · rename_i hmem
      obtain ⟨rfl, rfl⟩ := Prod.mk.inj (Option.some.inj h)
      obtain ⟨piece, rest, rfl, hpiece⟩ := List.eq_append_cons_of_mem hmem
      rw [(takeWhile_before hpiece rest).1, (takeWhile_before hpiece rest).2]
      exact ⟨rfl, hpiece⟩
    · cases h
  · rintro ⟨rfl, hbefore⟩
    rw [if_pos (by simp), (takeWhile_before hbefore after).1, (takeWhile_before hbefore after).2]
    rfl

/-- A name that a component of a path has. -/
def PlainName (name : CString) : Prop :=
  name ≠ [] ∧ name ≠ [dot] ∧ name ≠ [dot, dot] ∧ name.length < 256

/-- A path of such names. -/
def PlainPath (path : CString) : Prop := ∀ name ∈ path.splitOn slash, PlainName name

theorem plainPath_append {before after : CString} :
    PlainPath (before ++ slash :: after) ↔ PlainPath before ∧ PlainPath after := by
  unfold PlainPath
  rw [List.splitOn_append_cons_self]
  simp only [List.mem_append, or_imp, forall_and]

theorem plainPath_name {name : CString} (h : slash ∉ name) : PlainPath name ↔ PlainName name := by
  unfold PlainPath
  rw [List.splitOn_eq_singleton h]
  simp

theorem PlainPath.ne_nil {path : CString} (h : PlainPath path) : path ≠ [] := by
  rintro rfl
  exact (h [] (by simp)).1 rfl

/-- How a directory cuts the paths below it: behind itself, at the top behind the alias. -/
def Cuts (romDirectory path base tail : CString) : Prop :=
  path = base ++ slash :: tail ∧ if romDirectory = [] then slash ∉ base else base = romDirectory

theorem baseAndTail_eq_some {path romDirectory base tail : CString} (hslash : slash ∈ path)
    (hpath : PlainPath path) :
    baseAndTail path romDirectory = some (base, tail) ↔ Cuts romDirectory path base tail := by
  unfold baseAndTail Cuts
  by_cases hdir : romDirectory = []
  · rw [if_neg (not_not_intro hdir), if_pos hdir]
    cases hsplit : splitFirst path with
    | none => exact absurd hslash (splitFirst_eq_none.mp hsplit)
    | some parts =>
      obtain ⟨before, after⟩ := parts
      obtain ⟨rfl, hbefore⟩ := splitFirst_eq_some.mp hsplit
      have hafter : after ≠ [] := (plainPath_append.mp hpath).2.ne_nil
      simp only [if_pos hafter, Option.some.injEq, Prod.mk.injEq]
      constructor
      · rintro ⟨rfl, rfl⟩
        exact ⟨rfl, hbefore⟩
      · rintro ⟨heq, hbase⟩
        have hother := splitFirst_eq_some.mpr ⟨heq, hbase⟩
        rw [hsplit] at hother
        exact Prod.mk.inj (Option.some.inj hother)
  · rw [if_pos hdir, if_neg hdir]
    unfold afterStart
    constructor
    · intro h
      split at h
      · rename_i hstart
        obtain ⟨rest, rfl⟩ := hstart
        obtain ⟨rfl, rfl⟩ := Prod.mk.inj (Option.some.inj h)
        simp
      · cases h
    · rintro ⟨rfl, rfl⟩
      rw [if_pos ⟨tail, by simp⟩]
      simp

variable {path romDirectory : CString}

theorem child_of_cuts (hpath : PlainPath path) (hfits : path.length < 1024)
    {base tail : CString} (hcuts : Cuts romDirectory path base tail) :
    romBrowserChildForPath path romDirectory =
      match splitFirst tail with
      | none => some .file
      | some (segment, _) => some (.directory (base ++ slash :: segment) segment) := by
  have hslash : slash ∈ path := by simp [hcuts.1]
  have hplain := hpath
  rw [hcuts.1, plainPath_append] at hplain
  unfold romBrowserChildForPath
  rw [if_neg hpath.ne_nil, (baseAndTail_eq_some hslash hpath).mpr hcuts, Option.bind_some]
  simp only [if_neg hplain.2.ne_nil]
  cases hsplit : splitFirst tail with
  | none => rfl
  | some parts =>
    obtain ⟨segment, more⟩ := parts
    obtain ⟨rfl, hsegment⟩ := splitFirst_eq_some.mp hsplit
    obtain ⟨hne, hdot, hdots, hlength⟩ :=
      (plainPath_name hsegment).mp (plainPath_append.mp hplain.2).1
    have hroom : (base ++ slash :: segment).length < 1024 := by
      rw [hcuts.1] at hfits
      simp only [List.length_append, List.length_cons] at hfits ⊢
      omega
    rw [List.length_append, List.length_cons] at hroom
    simp [hne, hdot, hdots, Nat.not_le_of_lt hlength, hplain.1.ne_nil, hroom]

theorem child_of_not_cut (hslash : slash ∈ path) (hpath : PlainPath path)
    (hcuts : ∀ base tail, ¬Cuts romDirectory path base tail) :
    romBrowserChildForPath path romDirectory = none := by
  have hnone : baseAndTail path romDirectory = none := by
    cases h : baseAndTail path romDirectory with
    | none => rfl
    | some parts => exact absurd ((baseAndTail_eq_some hslash hpath).mp h) (hcuts _ _)
  unfold romBrowserChildForPath
  rw [if_neg hpath.ne_nil, hnone, Option.bind_none]

theorem child_eq_file (hslash : slash ∈ path) (hpath : PlainPath path)
    (hfits : path.length < 1024) :
    romBrowserChildForPath path romDirectory = some .file ↔
      ∃ base tail, Cuts romDirectory path base tail ∧ slash ∉ tail := by
  constructor
  · intro h
    by_cases hcuts : ∃ base tail, Cuts romDirectory path base tail
    · obtain ⟨base, tail, hcuts⟩ := hcuts
      rw [child_of_cuts hpath hfits hcuts] at h
      cases hsplit : splitFirst tail with
      | none => exact ⟨base, tail, hcuts, splitFirst_eq_none.mp hsplit⟩
      | some parts =>
        rw [hsplit] at h
        cases h
    · rw [child_of_not_cut hslash hpath fun base tail h => hcuts ⟨base, tail, h⟩] at h
      cases h
  · rintro ⟨base, tail, hcuts, htail⟩
    rw [child_of_cuts hpath hfits hcuts, splitFirst_eq_none.mpr htail]

theorem child_eq_directory (hslash : slash ∈ path) (hpath : PlainPath path)
    (hfits : path.length < 1024) {relativePath name : CString} :
    romBrowserChildForPath path romDirectory = some (.directory relativePath name) ↔
      ∃ base more, Cuts romDirectory path base (name ++ slash :: more) ∧ slash ∉ name ∧
        relativePath = base ++ slash :: name := by
  constructor
  · intro h
    by_cases hcuts : ∃ base tail, Cuts romDirectory path base tail
    · obtain ⟨base, tail, hcuts⟩ := hcuts
      rw [child_of_cuts hpath hfits hcuts] at h
      cases hsplit : splitFirst tail with
      | none =>
        rw [hsplit] at h
        cases h
      | some parts =>
        obtain ⟨segment, more⟩ := parts
        rw [hsplit] at h
        cases h
        obtain ⟨rfl, hsegment⟩ := splitFirst_eq_some.mp hsplit
        exact ⟨base, more, hcuts, hsegment, rfl⟩
    · rw [child_of_not_cut hslash hpath fun base tail h => hcuts ⟨base, tail, h⟩] at h
      cases h
  · rintro ⟨base, more, hcuts, hname, rfl⟩
    rw [child_of_cuts hpath hfits hcuts, splitFirst_eq_some.mpr ⟨rfl, hname⟩]

end Paths

section Listing

variable {romDirectory : CString} {roms : List IndexedRom}

/-- The entries before they are sorted. -/
def listed (romDirectory : CString) (roms : List IndexedRom) : List BrowserEntry :=
  roms.foldl (listRom romDirectory) []

theorem romEntries_perm (byPath : Bool) (roms : List IndexedRom) (romDirectory : CString) :
    (romEntries byPath roms romDirectory).Perm (listed romDirectory roms) :=
  List.mergeSort_perm _ _

theorem listed_append (roms : List IndexedRom) (rom : IndexedRom) :
    listed romDirectory (roms ++ [rom]) = listRom romDirectory (listed romDirectory roms) rom := by
  simp [listed]

theorem copyInto_text {size : ℕ} [NeZero size] {s : CString} (hfits : s.length < size)
    (hnul : 0 ∉ s) : (copyInto size s).text = s := by
  unfold copyInto
  rw [if_pos hfits]
  show (s.take (size - 1)).takeWhile (· ≠ 0) = s
  rw [List.take_of_length_le (by omega), List.takeWhile_eq_self_iff]
  intro c hc
  rw [decide_eq_true_eq]
  rintro rfl
  exact hnul hc

/-- The paths that the scanner emits: an alias, and plain names behind it. -/
def Emitted (roms : List IndexedRom) : Prop :=
  ∀ rom ∈ roms, slash ∈ rom.relativePath.text ∧ PlainPath rom.relativePath.text

theorem navigationDirectory_relativePath {rom : IndexedRom} {base name more : CString}
    (hcuts : Cuts romDirectory rom.relativePath.text base (name ++ slash :: more)) :
    (navigationDirectory rom.toRomEntry (base ++ slash :: name) name).relativePath.text =
      base ++ slash :: name := by
  have hpath : rom.relativePath.text = (base ++ slash :: name) ++ slash :: more := by
    rw [hcuts.1]
    simp
  have hfits := rom.relativePath.fits
  have hnul := rom.relativePath.noNul
  rw [hpath] at hfits hnul
  apply copyInto_text
  · rw [List.length_append] at hfits
    omega
  · exact fun h => hnul (List.mem_append_left _ h)

theorem listRom_cases (entries : List BrowserEntry) {rom : IndexedRom}
    (hslash : slash ∈ rom.relativePath.text) (hpath : PlainPath rom.relativePath.text) :
    (romBrowserChildForPath rom.relativePath.text romDirectory = some .file ∧
        listRom romDirectory entries rom = entries ++ [rom.entry]) ∨
      (∃ relativePath name entry,
        romBrowserChildForPath rom.relativePath.text romDirectory =
            some (.directory relativePath name) ∧
          entry.isNavigationDirectory = true ∧ entry.relativePath.text = relativePath ∧
          ((∀ other ∈ entries, other.isNavigationDirectory = true →
              other.relativePath.text ≠ relativePath) ∧
            listRom romDirectory entries rom = entries ++ [entry] ∨
          (∃ other ∈ entries, other.isNavigationDirectory = true ∧
            other.relativePath.text = relativePath) ∧
            listRom romDirectory entries rom = entries)) ∨
      (romBrowserChildForPath rom.relativePath.text romDirectory = none ∧
        listRom romDirectory entries rom = entries) := by
  unfold listRom
  cases hchild : romBrowserChildForPath rom.relativePath.text romDirectory with
  | none => exact Or.inr (Or.inr ⟨rfl, rfl⟩)
  | some child =>
    cases child with
    | file => exact Or.inl ⟨rfl, rfl⟩
    | directory relativePath name =>
      right
      left
      obtain ⟨base, more, hcuts, hname, rfl⟩ :=
        (child_eq_directory hslash hpath rom.relativePath.fits).mp hchild
      have hnonempty : name ≠ [] := by
        rw [hcuts.1, plainPath_append, plainPath_append] at hpath
        exact hpath.2.1.ne_nil
      refine ⟨_, name, navigationDirectory rom.toRomEntry (base ++ slash :: name) name, rfl, rfl,
        navigationDirectory_relativePath hcuts, ?_⟩
      unfold addNavigationDirectoryEntry romNavigationDirectoryExists
      by_cases hexists : ∃ other ∈ entries, other.isNavigationDirectory = true ∧
          other.relativePath.text = base ++ slash :: name
      · right
        refine ⟨hexists, if_pos ?_⟩
        simpa [hnonempty] using hexists
      · left
        refine ⟨fun other hother hnav hrel => hexists ⟨other, hother, hnav, hrel⟩, if_neg ?_⟩
        simpa [hnonempty] using hexists

theorem listed_files (hroms : Emitted roms) :
    (listed romDirectory roms).filter (fun entry => !entry.isNavigationDirectory) =
      (roms.filter fun rom => romBrowserChildForPath rom.relativePath.text romDirectory =
        some .file).map IndexedRom.entry := by
  induction roms using List.reverseRecOn with
  | nil => rfl
  | append_singleton roms rom ih =>
    have hprevious := ih fun other h => hroms other (List.mem_append_left _ h)
    obtain ⟨hslash, hpath⟩ := hroms rom (by simp)
    rw [listed_append, List.filter_append, List.map_append, ← hprevious]
    rcases listRom_cases (listed romDirectory roms) hslash hpath with
      ⟨hchild, hlist⟩ | ⟨relativePath, name, entry, hchild, hnav, -, ⟨-, hlist⟩ | ⟨-, hlist⟩⟩ |
        ⟨hchild, hlist⟩
    · rw [hlist, List.filter_append]
      simp [hchild, IndexedRom.entry]
    · rw [hlist, List.filter_append]
      simp [hchild, hnav]
    · rw [hlist]
      simp [hchild]
    · rw [hlist]
      simp [hchild]

/-- The paths of the directories of a listing. -/
def directoriesOf (entries : List BrowserEntry) : List CString :=
  (entries.filter fun entry => entry.isNavigationDirectory).map fun entry =>
    entry.relativePath.text

theorem mem_directoriesOf {entries : List BrowserEntry} {relativePath : CString} :
    relativePath ∈ directoriesOf entries ↔ ∃ entry ∈ entries,
      entry.isNavigationDirectory = true ∧ entry.relativePath.text = relativePath := by
  simp [directoriesOf, and_assoc]

theorem listed_directories (hroms : Emitted roms) :
    (∀ relativePath, relativePath ∈ directoriesOf (listed romDirectory roms) ↔
      ∃ rom ∈ roms, ∃ name, romBrowserChildForPath rom.relativePath.text romDirectory =
        some (.directory relativePath name)) ∧
      (directoriesOf (listed romDirectory roms)).Nodup := by
  induction roms using List.reverseRecOn with
  | nil => exact ⟨by simp [listed, directoriesOf], List.nodup_nil⟩
  | append_singleton roms rom ih =>
    obtain ⟨hmem, hnodup⟩ := ih fun other h => hroms other (List.mem_append_left _ h)
    obtain ⟨hslash, hpath⟩ := hroms rom (by simp)
    rw [listed_append]
    rcases listRom_cases (listed romDirectory roms) hslash hpath with
      ⟨hchild, hlist⟩ | ⟨relativePath, name, entry, hchild, hnav, hrel, ⟨hnew, hlist⟩ |
        ⟨hold, hlist⟩⟩ | ⟨hchild, hlist⟩
    · have hsame : directoriesOf (listed romDirectory roms ++ [rom.entry]) =
          directoriesOf (listed romDirectory roms) := by
        simp [directoriesOf, IndexedRom.entry]
      rw [hlist, hsame]
      refine ⟨fun path => ?_, hnodup⟩
      rw [hmem]
      simp [or_and_right, exists_or, hchild]
    · have hadd : directoriesOf (listed romDirectory roms ++ [entry]) =
          directoriesOf (listed romDirectory roms) ++ [relativePath] := by
        simp [directoriesOf, hnav, hrel]
      rw [hlist, hadd]
      constructor
      · intro path
        rw [List.mem_append, hmem, List.mem_singleton]
        simp only [List.mem_append, List.mem_singleton, or_and_right, exists_or,
          exists_eq_left, hchild, Option.some.injEq, Child.directory.injEq, exists_eq_right']
        exact or_congr_right eq_comm
      · rw [List.nodup_append_comm, List.singleton_append, List.nodup_cons]
        refine ⟨fun hin => ?_, hnodup⟩
        obtain ⟨other, hother, hnav', hrel'⟩ := mem_directoriesOf.mp hin
        exact hnew other hother hnav' hrel'
    · rw [hlist]
      refine ⟨fun path => ?_, hnodup⟩
      rw [hmem]
      have hin := (hmem relativePath).mp (mem_directoriesOf.mpr hold)
      constructor
      · rintro ⟨other, hother, h⟩
        exact ⟨other, List.mem_append_left _ hother, h⟩
      · rintro ⟨other, hother, name', h⟩
        rcases List.mem_append.mp hother with hother | hother
        · exact ⟨other, hother, name', h⟩
        · rw [List.mem_singleton.mp hother, hchild] at h
          cases h
          exact hin
    · rw [hlist]
      refine ⟨fun path => ?_, hnodup⟩
      rw [hmem]
      simp [or_and_right, exists_or, hchild]

end Listing

end PlumosBubble.Frontend.ControllerUi
