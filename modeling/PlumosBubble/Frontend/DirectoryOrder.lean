import PlumosBubble.Frontend.ThumbnailOrder
import PlumosBubble.Sequence.FirstOfKey
import PlumosBubble.Sequence.StableSort

/-! Whether the index depends on the order in which `readdir` returns the names of a directory.
The walk of a directory finds the same files in every order; of a file with several names the
first is kept, and the sort does not tell apart what differs in case only. -/

namespace PlumosBubble.Frontend

open Sequence

section Rows

/-- What the index says of an entry. -/
structure LibraryRow where
  title : CString
  path : CString
  relativePath : CString
  extension : CString
  thumbnail : Option CString
  deriving DecidableEq

def IndexRom.row (rom : IndexRom) : LibraryRow :=
  ⟨rom.title, rom.path, rom.relativePath, rom.extension, rom.thumbnail⟩

def RomEntry.row (rom : RomEntry) : LibraryRow :=
  ⟨rom.title, rom.path, rom.relativePath, rom.extension,
    if rom.thumbnail = [] then none else some rom.thumbnail⟩

/-- The entries that are written, system by system. -/
def indexRows (disk : Disk) (config : ScanConfig) : List (List LibraryRow) :=
  (libraryScan disk config).systems.map fun system => system.roms.map IndexRom.row

/-- Any two runs over this tree write the same entries, in whatever orders they read its
directories. -/
def OrderIndependent (disk : Disk) (config : ScanConfig) : Prop :=
  ∀ disk₁ disk₂, Reordered disk disk₁ → Reordered disk disk₂ →
    indexRows disk₁ config = indexRows disk₂ config

end Rows

section Conditions

variable (disk : Disk) (config : ScanConfig)

/-- What a visit asks `add_rom_entry` to add. -/
def Visit.listed (visit : Visit) : List Found :=
  (visit.found disk config).filter (isListed disk visit.system visit.filterSharedArchives)

/-- `st_dev` and `st_ino` of what was found. -/
def fileId (found : Found) : Option (ℕ × ℕ) := (disk.stat found.path).map Stat.identity

/-- The paths at which `add_rom_entry` looks for a thumbnail. -/
def Visit.candidates (visit : Visit) (found : Found) : List CString :=
  let isDirEntry := disk.isDirectory found.path
  let fileName := copied 256 (pathBasename found.path)
  let relStem :=
    if isDirEntry then copied pathMax found.relPath
    else stemFromRelativePath pathMax found.relPath
  let flatStem := if isDirEntry then copied 256 fileName else stemFromName 256 fileName
  thumbnailCandidates config.plumosRoot config.sdcardRoot visit.system.artwork visit.aliasName
    relStem flatStem

/-- The visit lists a file that no visit of its system before it lists. -/
structure Fresh (before : List Visit) (visit : Visit) (found : Found) : Prop where
  listed : found ∈ visit.listed disk config
  first : ∀ earlier ∈ before, earlier.systemIndex = visit.systemIndex →
    ∀ other ∈ earlier.listed disk config, fileId disk other ≠ fileId disk found

/-- In the first visit that lists a file it has one name, as far as the index tells; no other file
that is first listed there has the same title and relative path but for case; and no search for
an image comes down to a choice between names that differ in case. -/
structure OrderFree : Prop where
  names : ∀ before visit after, visited disk [] (visits disk config) = before ++ visit :: after →
    ∀ found other, Fresh disk config before visit found → Fresh disk config before visit other →
      fileId disk found = fileId disk other →
        (visit.entry disk config found).row = (visit.entry disk config other).row
  titles : ∀ before visit after, visited disk [] (visits disk config) = before ++ visit :: after →
    ∀ found other, Fresh disk config before visit found → Fresh disk config before visit other →
      fileId disk found ≠ fileId disk other →
        ¬(equalCi (visit.entry disk config found).title (visit.entry disk config other).title =
            true ∧
          equalCi (visit.entry disk config found).relativePath
            (visit.entry disk config other).relativePath = true)
  images : config.resolveThumbnails = true →
    ∀ before visit after, visited disk [] (visits disk config) = before ++ visit :: after →
      ∀ found, Fresh disk config before visit found →
        disk.Clear (visit.candidates disk config found)

end Conditions

section Comparing

theorem caseLe_cons {x y : UInt8} {a b : CString} : caseLe (x :: a) (y :: b) = true ↔
    (toLower x).toNat < (toLower y).toNat ∨
      (toLower x).toNat = (toLower y).toNat ∧ caseLe a b = true := by
  rw [caseLe, Bool.or_eq_true, Bool.and_eq_true, decide_eq_true_eq, decide_eq_true_eq,
    UInt8.lt_iff_toNat_lt, ← UInt8.toNat_inj]

theorem comparison_caseLe : Comparison caseLe := by
  constructor
  · intro a
    induction a with
    | nil => exact fun _ _ _ _ => rfl
    | cons x a ih =>
      intro b c hab hbc
      cases b with
      | nil => cases hab
      | cons y b =>
        cases c with
        | nil => cases hbc
        | cons z c =>
          rw [caseLe_cons] at hab hbc ⊢
          rcases hab with hab | ⟨hxy, hab⟩
          · rcases hbc with hbc | ⟨hyz, -⟩
            · exact Or.inl (lt_trans hab hbc)
            · exact Or.inl (hyz ▸ hab)
          · rcases hbc with hbc | ⟨hyz, hbc⟩
            · exact Or.inl (hxy ▸ hbc)
            · exact Or.inr ⟨hxy.trans hyz, ih b c hab hbc⟩
  · intro a
    induction a with
    | nil => exact fun _ => rfl
    | cons x a ih =>
      intro b
      cases b with
      | nil => exact Bool.or_true _
      | cons y b =>
        have hrest := ih b
        rw [Bool.or_eq_true] at hrest ⊢
        rw [caseLe_cons, caseLe_cons]
        rcases lt_trichotomy (toLower x).toNat (toLower y).toNat with hlt | heq | hgt
        · exact Or.inl (Or.inl hlt)
        · rcases hrest with hab | hba
          · exact Or.inl (Or.inr ⟨heq, hab⟩)
          · exact Or.inr (Or.inr ⟨heq.symm, hba⟩)
        · exact Or.inr (Or.inl hgt)

theorem tied_caseLe (a b : CString) : tied caseLe a b = equalCi a b := by
  have hiff : ∀ a b : CString, tied caseLe a b = true ↔ lowerString a = lowerString b := by
    intro a
    induction a with
    | nil =>
      intro b
      cases b with
      | nil => simp [tied, caseLe]
      | cons y b => simp [tied, caseLe, lowerString]
    | cons x a ih =>
      intro b
      cases b with
      | nil => simp [tied, caseLe, lowerString]
      | cons y b =>
        have hrest := ih b
        rw [tied_iff] at hrest ⊢
        rw [caseLe_cons, caseLe_cons]
        simp only [lowerString, List.map_cons, List.cons.injEq] at hrest ⊢
        rw [← hrest, ← UInt8.toNat_inj]
        constructor
        · rintro ⟨hab | ⟨heq, hab⟩, hba | ⟨heq', hba⟩⟩
          · omega
          · omega
          · omega
          · exact ⟨heq, hab, hba⟩
        · rintro ⟨heq, hab, hba⟩
          exact ⟨Or.inr ⟨heq, hab⟩, Or.inr ⟨heq.symm, hba⟩⟩
  rw [Bool.eq_iff_iff, hiff]
  unfold equalCi
  exact decide_eq_true_iff.symm

/-- An entry, as far as the sort and the index look at it. -/
def RomEntry.place (rom : RomEntry) : ℕ × LibraryRow := (rom.systemIndex, rom.row)

/-- `cmp_rom_entries`, of these. -/
def placeLe : ℕ × LibraryRow → ℕ × LibraryRow → Bool :=
  lexLe (fun a b => decide (a.1 ≤ b.1))
    (lexLe (fun a b => caseLe a.2.title b.2.title)
      fun a b => caseLe a.2.relativePath b.2.relativePath)

theorem comparison_le : Comparison fun a b : ℕ => decide (a ≤ b) :=
  ⟨fun a b c hab hbc => by simp at hab hbc ⊢; omega, fun a b => by simp; omega⟩

theorem comparison_placeLe : Comparison placeLe :=
  (comparison_le.comap Prod.fst).lex
    ((comparison_caseLe.comap fun a : ℕ × LibraryRow => a.2.title).lex
      (comparison_caseLe.comap fun a : ℕ × LibraryRow => a.2.relativePath))

theorem tied_place {a b : ℕ × LibraryRow} : tied placeLe a b = true ↔
    a.1 = b.1 ∧ equalCi a.2.title b.2.title = true ∧
      equalCi a.2.relativePath b.2.relativePath = true := by
  have hindex : tied (fun a b : ℕ × LibraryRow => decide (a.1 ≤ b.1)) a b = true ↔
      a.1 = b.1 := by
    rw [tied_iff, decide_eq_true_eq, decide_eq_true_eq]
    exact le_antisymm_iff.symm
  unfold placeLe
  rw [tied_lex, tied_lex, hindex, ← tied_caseLe, ← tied_caseLe]
  rfl

theorem romEntryLe_eq (a b : RomEntry) : romEntryLe a b = placeLe a.place b.place := by
  have hindex : tied (fun a b : ℕ × LibraryRow => decide (a.1 ≤ b.1)) a.place b.place = true ↔
      a.systemIndex = b.systemIndex := by
    rw [tied_iff, decide_eq_true_eq, decide_eq_true_eq]
    exact le_antisymm_iff.symm
  have htitle : tied (fun a b : ℕ × LibraryRow => caseLe a.2.title b.2.title) a.place b.place =
      equalCi a.title b.title := tied_caseLe a.title b.title
  unfold romEntryLe placeLe lexLe
  by_cases hsame : a.systemIndex = b.systemIndex
  · rw [if_neg (not_not.mpr hsame), if_pos (hindex.mpr hsame), htitle]
    cases equalCi a.title b.title <;> rfl
  · rw [if_pos hsame, if_neg (hindex.not.mpr hsame)]
    show decide (a.systemIndex < b.systemIndex) = decide (a.systemIndex ≤ b.systemIndex)
    rw [decide_eq_decide]
    omega

theorem map_place_mergeSort (roms : List RomEntry) :
    (roms.mergeSort romEntryLe).map RomEntry.place =
      (roms.map RomEntry.place).mergeSort placeLe :=
  List.map_mergeSort fun a _ b _ => romEntryLe_eq a b

end Comparing

section Lists

variable {disk disk' : Disk} {config : ScanConfig}

/-- What the scan takes for one file of one system. -/
def romKey (rom : RomEntry) : ℕ × Option (ℕ × ℕ) := (rom.systemIndex, rom.identity)

theorem entry_key (visit : Visit) (found : Found) :
    romKey (visit.entry disk config found) = (visit.systemIndex, fileId disk found) := rfl

theorem entries_eq (visit : Visit) :
    visit.entries disk config = (visit.listed disk config).map (visit.entry disk config) := rfl

theorem stat_of_mem_reach {listDirectories : Bool} {fuel : ℕ} {dirPath relDir : CString}
    {found : Found} (h : found ∈ reach disk config listDirectories fuel dirPath relDir) :
    ∃ st, disk.stat found.path = some st := by
  induction fuel generalizing dirPath relDir with
  | zero => exact absurd h List.not_mem_nil
  | succ fuel ih =>
    rw [reach_succ] at h
    obtain ⟨name, -, h⟩ := List.mem_flatMap.mp h
    obtain ⟨-, childPath, childRel', -, -, hcase⟩ := mem_reachChild.mp h
    rcases hcase with ⟨hdir, -, ⟨-, rfl⟩ | ⟨-, hmem⟩⟩ | ⟨-, hregular, rfl⟩
    · obtain ⟨st, hst, -⟩ := Disk.isDirectory_iff.mp hdir
      exact ⟨st, hst⟩
    · exact ih hmem
    · obtain ⟨st, hst, -⟩ := Disk.isRegularFile_iff.mp hregular
      exact ⟨st, hst⟩

theorem listed_found {visit : Visit} {found : Found} (h : found ∈ visit.listed disk config) :
    found ∈ visit.found disk config := (List.mem_filter.mp h).1

theorem fileId_of_path {visit visit' : Visit} {found found' : Found}
    (h : found ∈ visit.listed disk config) (h' : found' ∈ visit'.listed disk config)
    (hpath : disk.canonicalPath found.path = disk.canonicalPath found'.path) :
    fileId disk found = fileId disk found' := by
  unfold fileId
  rw [Disk.stat_eq_of_canonicalPath_eq (found_fits (listed_found h)) (found_fits (listed_found h'))
    hpath]

theorem sameRom_iff {visit visit' : Visit} {found found' : Found}
    (h : found ∈ visit.listed disk config) (h' : found' ∈ visit'.listed disk config) :
    sameRom (visit.entry disk config found) (visit'.entry disk config found') = true ↔
      romKey (visit.entry disk config found) = romKey (visit'.entry disk config found') := by
  obtain ⟨st, hst⟩ := stat_of_mem_reach (listed_found h)
  have hsome : (fileId disk found).isSome = true := by
    unfold fileId
    rw [hst]
    rfl
  have hpath := fileId_of_path h h'
  have hsame : sameRom (visit.entry disk config found) (visit'.entry disk config found') =
      (decide (visit'.systemIndex = visit.systemIndex) &&
        (((fileId disk found).isSome && decide (fileId disk found' = fileId disk found)) ||
          decide (disk.canonicalPath found'.path = disk.canonicalPath found.path))) := rfl
  rw [entry_key, entry_key, Prod.mk.injEq, hsame, hsome]
  simp only [Bool.and_eq_true, Bool.or_eq_true, decide_eq_true_eq, Bool.true_and]
  constructor
  · rintro ⟨hindex, hid | hcanonical⟩
    · exact ⟨hindex.symm, hid.symm⟩
    · exact ⟨hindex.symm, hpath hcanonical.symm⟩
  · rintro ⟨hindex, hid⟩
    exact ⟨hindex.symm, Or.inl hid.symm⟩

/-- The entries of the visits that are made, visit by visit. -/
def visitEntries (disk : Disk) (config : ScanConfig) : List (List RomEntry) :=
  (visited disk [] (visits disk config)).map (Visit.entries disk config)

theorem mem_visitEntries {rom : RomEntry} (h : rom ∈ (visitEntries disk config).flatten) :
    ∃ visit ∈ visited disk [] (visits disk config), ∃ found ∈ visit.listed disk config,
      visit.entry disk config found = rom := by
  obtain ⟨entries, hentries, hrom⟩ := List.mem_flatten.mp h
  obtain ⟨visit, hvisit, rfl⟩ := List.mem_map.mp hentries
  rw [entries_eq] at hrom
  obtain ⟨found, hfound, rfl⟩ := List.mem_map.mp hrom
  exact ⟨visit, hvisit, found, hfound, rfl⟩

theorem roms_eq_firsts :
    (scanSystems disk config).roms = firsts romKey [] (visitEntries disk config).flatten := by
  have hlist : (visited disk [] (visits disk config)).flatMap (Visit.entries disk config) =
      (visitEntries disk config).flatten := rfl
  rw [scanSystems_roms, hlist, @keepNew_eq_firsts _ _ _ romKey]
  · rfl
  · intro x hx y hy
    rw [List.nil_append] at hx hy
    obtain ⟨visit, -, found, hfound, rfl⟩ := mem_visitEntries hx
    obtain ⟨visit', -, found', hfound', rfl⟩ := mem_visitEntries hy
    exact sameRom_iff hfound hfound'

theorem Reordered.visits (h : Reordered disk disk') : visits disk' config = visits disk config := by
  have hdir : disk'.isDirectory = disk.isDirectory := funext h.isDirectory
  have hvisit : aliasVisit disk' = aliasVisit disk := by
    funext systemIndex system root aliasDef a
    unfold aliasVisit
    rw [hdir]
  unfold Frontend.visits systemVisits
  rw [hvisit]

theorem Reordered.visited (h : Reordered disk disk') (dirs : List ScannedDir) (vs : List Visit) :
    visited disk' dirs vs = visited disk dirs vs := by
  have hseen : ∀ (visit : Visit) dirs, visit.seen disk' dirs = visit.seen disk dirs := by
    intro visit dirs
    unfold Visit.seen
    rw [h.canonicalPath, h.stat]
  have hdir : ∀ visit : Visit, visit.scannedDir disk' = visit.scannedDir disk := by
    intro visit
    unfold Visit.scannedDir
    rw [h.canonicalPath, h.stat]
  induction vs generalizing dirs with
  | nil => rfl
  | cons visit vs ih =>
    unfold Frontend.visited
    rw [hseen, hdir, ih, ih]

theorem Reordered.fileId (h : Reordered disk disk') (found : Found) :
    fileId disk' found = fileId disk found := by
  unfold Frontend.fileId
  rw [h.stat]

theorem Reordered.listed (h : Reordered disk disk') (visit : Visit) :
    (visit.listed disk config).Perm (visit.listed disk' config) := by
  have hlisted : isListed disk' visit.system visit.filterSharedArchives =
      isListed disk visit.system visit.filterSharedArchives := by
    funext found
    unfold isListed
    rw [h.isDirectory]
  unfold Visit.listed Visit.found
  rw [hlisted, h.canonicalPath]
  exact (reach_perm h _ _ _).filter _

theorem Reordered.candidates (h : Reordered disk disk') (visit : Visit) (found : Found) :
    visit.candidates disk' config found = visit.candidates disk config found := by
  unfold Visit.candidates
  rw [h.isDirectory]

theorem entry_thumbnail (visit : Visit) (found : Found) :
    (visit.entry disk config found).thumbnail =
      if config.resolveThumbnails = true then
        ((visit.candidates disk config found).findSome?
          (disk.findCaseInsensitiveFile pathMax)).getD []
      else [] := by
  show (if config.resolveThumbnails = true then
    (romThumbnail disk config visit.system visit.aliasName found.path found.relPath).getD []
    else []) = _
  unfold romThumbnail
  dsimp only
  rw [findThumbnail_eq]
  rfl

theorem Reordered.entry (h : Reordered disk disk') (visit : Visit) (found : Found) :
    visit.entry disk' config found =
      { visit.entry disk config found with
        thumbnail := (visit.entry disk' config found).thumbnail } := by
  unfold Visit.entry makeRomEntry
  rw [h.isDirectory, h.canonicalPath, h.stat]

theorem candidates_fit {visit : Visit} {found : Found} :
    ∀ candidate ∈ visit.candidates disk config found, candidate.length + 1 ≤ pathMax :=
  fun _ h => thumbnailCandidates_fit h

theorem Reordered.entry_eq (h : Reordered disk disk') {visit : Visit} {found : Found}
    (hclear : config.resolveThumbnails = true → disk.Clear (visit.candidates disk config found)) :
    visit.entry disk' config found = visit.entry disk config found := by
  rw [h.entry, entry_thumbnail, h.candidates]
  have hsame : (if config.resolveThumbnails = true then
      ((visit.candidates disk config found).findSome?
        (disk'.findCaseInsensitiveFile pathMax)).getD [] else []) =
      (visit.entry disk config found).thumbnail := by
    rw [entry_thumbnail]
    split_ifs with hresolve
    · rw [(hclear hresolve).find h candidates_fit]
    · rfl
  rw [hsame]

theorem fresh_iff {before : List Visit} {visit : Visit} {found : Found}
    (h : found ∈ visit.listed disk config) : Fresh disk config before visit found ↔
      romKey (visit.entry disk config found) ∉
        ((before.map (Visit.entries disk config)).flatten).map romKey := by
  have hkey : romKey (visit.entry disk config found) ∈
      ((before.map (Visit.entries disk config)).flatten).map romKey ↔
        ∃ earlier ∈ before, earlier.systemIndex = visit.systemIndex ∧
          ∃ other ∈ earlier.listed disk config, fileId disk other = fileId disk found := by
    simp only [List.mem_map, List.mem_flatten]
    constructor
    · rintro ⟨rom, ⟨entries, ⟨earlier, hearlier, rfl⟩, hrom⟩, hrom'⟩
      obtain ⟨other, hother, rfl⟩ := List.mem_map.mp hrom
      rw [entry_key, entry_key, Prod.mk.injEq] at hrom'
      exact ⟨earlier, hearlier, hrom'.1, other, hother, hrom'.2⟩
    · rintro ⟨earlier, hearlier, hindex, other, hother, hid⟩
      exact ⟨_, ⟨_, ⟨earlier, hearlier, rfl⟩, List.mem_map_of_mem hother⟩,
        by rw [entry_key, entry_key, hindex, hid]⟩
  rw [hkey]
  constructor
  · rintro ⟨-, hfirst⟩ ⟨earlier, hearlier, hindex, other, hother, hid⟩
    exact hfirst earlier hearlier hindex other hother hid
  · intro hnone
    exact ⟨h, fun earlier hearlier hindex other hother hid =>
      hnone ⟨earlier, hearlier, hindex, other, hother, hid⟩⟩

end Lists

section Enough

variable {disk disk' : Disk} {config : ScanConfig}

theorem indexRows_eq : indexRows disk config =
    (config.systems.zipIdx.filter fun (system, _) => config.selects system).map fun (_, s) =>
      ((((scanSystems disk config).roms.map RomEntry.place).mergeSort placeLe).filter fun place =>
        place.1 = s).map Prod.snd := by
  unfold indexRows libraryScan writeLibraryIndex
  rw [List.map_map]
  apply List.map_congr_left
  rintro ⟨system, s⟩ -
  rw [← map_place_mergeSort]
  show ((((scanSystems disk config).roms.mergeSort romEntryLe).filter fun rom =>
      rom.systemIndex = s).map (indexRom system)).map IndexRom.row =
    ((((scanSystems disk config).roms.mergeSort romEntryLe).map RomEntry.place).filter
      fun place => place.1 = s).map Prod.snd
  rw [List.map_map, List.filter_map, List.map_map]
  rfl

theorem Reordered.mem_keys (h : Reordered disk disk') (vs : List Visit) (key : ℕ × Option (ℕ × ℕ)) :
    key ∈ ((vs.map (Visit.entries disk' config)).flatten).map romKey ↔
      key ∈ ((vs.map (Visit.entries disk config)).flatten).map romKey := by
  have hkeys : ∀ visit : Visit, ((visit.entries disk config).map romKey).Perm
      ((visit.entries disk' config).map romKey) := by
    intro visit
    have hsame : romKey ∘ visit.entry disk' config = romKey ∘ visit.entry disk config := by
      funext found
      show romKey _ = romKey _
      rw [entry_key, entry_key, h.fileId]
    rw [entries_eq, entries_eq, List.map_map, List.map_map, hsame]
    exact (h.listed visit).map _
  induction vs with
  | nil => rfl
  | cons visit vs ih =>
    rw [List.map_cons, List.map_cons, List.flatten_cons, List.flatten_cons, List.map_append,
      List.map_append, List.mem_append, List.mem_append]
    exact or_congr (hkeys visit).mem_iff.symm ih

theorem OrderFree.block (hfree : OrderFree disk config) (h : Reordered disk disk')
    {before after : List Visit} {visit : Visit}
    (hsplit : visited disk [] (visits disk config) = before ++ visit :: after)
    {seen : List (ℕ × Option (ℕ × ℕ))}
    (hseen : seen = ((before.map (Visit.entries disk config)).flatten).map romKey) :
    ((firsts romKey seen (visit.entries disk config)).map RomEntry.place).Perm
        ((firsts romKey seen (visit.entries disk' config)).map RomEntry.place) ∧
      ((firsts romKey seen (visit.entries disk config)).map RomEntry.place).Pairwise
        fun x y => tied placeLe x y = false := by
  have hfresh : ∀ {found}, found ∈ visit.listed disk config →
      romKey (visit.entry disk config found) ∉ seen → Fresh disk config before visit found := by
    intro found hfound hkey
    rw [hseen] at hkey
    exact (fresh_iff hfound).mpr hkey
  have hrow : ∀ found ∈ visit.listed disk config, ∀ other ∈ visit.listed disk config,
      romKey (visit.entry disk config found) ∉ seen →
      romKey (visit.entry disk config other) = romKey (visit.entry disk config found) →
        (visit.entry disk' config other).place = (visit.entry disk config found).place := by
    intro found hfound other hother hkey hsame
    have hfound' := hfresh hfound hkey
    have hother' := hfresh hother (hsame ▸ hkey)
    have hid : fileId disk other = fileId disk found := (Prod.mk.inj hsame).2
    rw [h.entry_eq fun hresolve => hfree.images hresolve before visit after hsplit other hother']
    unfold RomEntry.place
    rw [hfree.names before visit after hsplit other found hother' hfound' hid]
    rfl
  constructor
  · rw [entries_eq, entries_eq]
    refine firsts_map_perm (h.listed visit) (fun found _ => ?_) hrow
    rw [entry_key, entry_key, h.fileId]
  · rw [List.pairwise_map]
    have hne : (firsts romKey seen (visit.entries disk config)).Pairwise
        fun x y => romKey x ≠ romKey y :=
      List.pairwise_map.mp (nodup_firsts (visit.entries disk config))
    refine hne.imp_of_mem fun {x y} hx hy hxy => ?_
    obtain ⟨hxmem, hxseen⟩ := mem_of_mem_firsts hx
    obtain ⟨hymem, hyseen⟩ := mem_of_mem_firsts hy
    obtain ⟨found, hfound, rfl⟩ := List.mem_map.mp hxmem
    obtain ⟨other, hother, rfl⟩ := List.mem_map.mp hymem
    have hid : fileId disk found ≠ fileId disk other := fun heq =>
      hxy (by rw [entry_key, entry_key, heq])
    have htitles := hfree.titles before visit after hsplit found other (hfresh hfound hxseen)
      (hfresh hother hyseen) hid
    rw [← Bool.not_eq_true, tied_place]
    exact fun htied => htitles htied.2

theorem OrderFree.rows (hfree : OrderFree disk config) (h : Reordered disk disk') :
    indexRows disk' config = indexRows disk config := by
  have hblocks : ∀ rest before : List Visit,
      visited disk [] (visits disk config) = before ++ rest →
      ∀ {seen seen' : List (ℕ × Option (ℕ × ℕ))},
      seen = ((before.map (Visit.entries disk config)).flatten).map romKey →
      seen' = ((before.map (Visit.entries disk' config)).flatten).map romKey →
      List.Forall₂ (fun b b' : List (ℕ × LibraryRow) => b.Perm b' ∧
          b.Pairwise fun x y => tied placeLe x y = false)
        ((firstsIn romKey seen (rest.map (Visit.entries disk config))).map
          (List.map RomEntry.place))
        ((firstsIn romKey seen' (rest.map (Visit.entries disk' config))).map
          (List.map RomEntry.place)) := by
    intro rest
    induction rest with
    | nil => exact fun _ _ _ _ _ _ => .nil
    | cons visit rest ih =>
      intro before hsplit seen seen' hseen hseen'
      have hsame : ∀ key, key ∈ seen' ↔ key ∈ seen := by
        intro key
        rw [hseen, hseen']
        exact h.mem_keys before key
      refine .cons ?_ (ih (before ++ [visit]) (by rw [hsplit]; simp) ?_ ?_)
      · rw [firsts_congr hsame]
        exact hfree.block h hsplit hseen
      · rw [hseen]
        simp
      · rw [hseen']
        simp
  have hplaces : ((scanSystems disk config).roms.map RomEntry.place).mergeSort placeLe =
      ((scanSystems disk' config).roms.map RomEntry.place).mergeSort placeLe := by
    have hvisited : visited disk' [] (visits disk' config) =
        visited disk [] (visits disk config) := by
      rw [h.visits, h.visited]
    rw [roms_eq_firsts, roms_eq_firsts, visitEntries, visitEntries, hvisited, firsts_flatten,
      firsts_flatten, List.map_flatten, List.map_flatten]
    exact comparison_placeLe.mergeSort_flatten (hblocks _ [] rfl rfl rfl)
  rw [indexRows_eq, indexRows_eq, hplaces]

end Enough

end PlumosBubble.Frontend
