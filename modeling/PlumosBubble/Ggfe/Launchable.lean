import PlumosBubble.Frontend.Completeness
import PlumosBubble.Ggfe.Library

/-! Which of the cartridges that GGFE shows are in the scan cache. A file has one entry for
a system, under the path of the first place where the scan accepts it; GGFE knows neither
the archive rule of shared aliases, nor excluded directories, nor files with two places. -/

namespace PlumosBubble.Ggfe

open Frontend Sequence

section Places

variable (disk : Disk) (scan : ScanConfig)

/-- A file that the scan reaches, and the visit in which it does. -/
abbrev Place := Visit × Found

/-- All that the scan reaches, in the order of the scan. -/
def places : List Place :=
  (visited disk [] (visits disk scan)).flatMap fun visit =>
    (visit.found disk scan).map fun found => (visit, found)

/-- The entry of a place. -/
def placeEntry (place : Place) : RomEntry := place.1.entry disk scan place.2

/-- The entry of a place is one that `add_rom_entry` is asked to add. -/
def placeListed (place : Place) : Bool :=
  isListed disk place.1.system place.1.filterSharedArchives place.2

/-- The archive rule of a shared alias keeps the file of the place out. -/
def ruledOut (place : Place) : Bool :=
  !disk.isDirectory place.2.path && place.1.filterSharedArchives &&
    archiveExtensionIsAmbiguous (fileExtension place.2.name)

/-- The two paths lead to one file. -/
def SameFile (path path' : CString) : Prop :=
  (disk.stat path).map Stat.identity = (disk.stat path').map Stat.identity

/-- The entries of a system in the scan cache. -/
def cachedRoms (s : ℕ) : List RomEntry :=
  ((scanSystems disk scan).roms.mergeSort romEntryLe).filter fun rom => rom.systemIndex = s

/-- `find_rom_by_relative_path`. -/
def findRomByRelativePath (entries : List RomEntry) (relativePath : CString) :
    Option RomEntry :=
  entries.find? fun rom => rom.relativePath = relativePath

/-- The scan cache has the file of the cartridge under the path it is launched by. -/
structure Launchable (s : ℕ) (entry : GgfeEntry) : Prop where
  listed : ∃ rom ∈ cachedRoms disk scan s, rom.relativePath = entry.rel ∧
    represents disk entry.rom rom = true
  found : (findRomByRelativePath (cachedRoms disk scan s) entry.rel).isSome = true

/-- The scan reaches the file of the cartridge under the path it is launched by, the
archive rule there does not keep it out, and it is listed nowhere before. -/
def ReachedFirst (s : ℕ) (entry : GgfeEntry) : Prop :=
  ∃ before place after, places disk scan = before ++ place :: after ∧
    place.1.systemIndex = s ∧ SameFile disk place.2.path entry.rom ∧
    (placeEntry disk scan place).relativePath = entry.rel ∧ ruledOut disk place = false ∧
    ∀ earlier ∈ before, earlier.1.systemIndex = s → SameFile disk earlier.2.path entry.rom →
      placeListed disk earlier = false

variable {disk scan}

theorem entries_eq : (visited disk [] (visits disk scan)).flatMap (Visit.entries disk scan) =
    ((places disk scan).filter (placeListed disk)).map (placeEntry disk scan) := by
  unfold places
  rw [List.filter_flatMap, List.map_flatMap]
  congr
  funext visit
  rw [List.filter_map, List.map_map]
  rfl

theorem placeVisit_of_mem {place : Place} (h : place ∈ places disk scan) :
    place.1 ∈ visits disk scan ∧ place.2 ∈ place.1.found disk scan := by
  obtain ⟨visit, hvisit, hplace⟩ := List.mem_flatMap.mp h
  obtain ⟨found, hfound, rfl⟩ := List.mem_map.mp hplace
  exact ⟨(visited_sublist _ _).subset hvisit, hfound⟩

theorem exists_stat_of_mem_reach {listDirectories : Bool} {fuel : ℕ} {found : Found} :
    ∀ {dirPath relDir}, found ∈ reach disk scan listDirectories fuel dirPath relDir →
      ∃ st, disk.stat found.path = some st := by
  induction fuel with
  | zero => exact fun hmem => absurd hmem List.not_mem_nil
  | succ fuel ih =>
    intro dirPath relDir hmem
    obtain ⟨names, -, name, -, hmem⟩ := mem_reach_succ.mp hmem
    obtain ⟨-, childPath, childRel', -, -, hmem⟩ := mem_reachChild.mp hmem
    rcases hmem with ⟨hdir, -, ⟨-, rfl⟩ | ⟨-, hmem⟩⟩ | ⟨-, hregular, rfl⟩
    · obtain ⟨st, hst, -⟩ := Disk.isDirectory_iff.mp hdir
      exact ⟨st, hst⟩
    · exact ih hmem
    · obtain ⟨st, hst, -⟩ := Disk.isRegularFile_iff.mp hregular
      exact ⟨st, hst⟩

theorem sameRom_placeEntry {place place' : Place} (h : place ∈ places disk scan)
    (h' : place' ∈ places disk scan) :
    sameRom (placeEntry disk scan place) (placeEntry disk scan place') = true ↔
      place'.1.systemIndex = place.1.systemIndex ∧ SameFile disk place'.2.path place.2.path := by
  have hfound := (placeVisit_of_mem h).2
  have hfound' := (placeVisit_of_mem h').2
  obtain ⟨st, hst⟩ := exists_stat_of_mem_reach hfound
  simp only [sameRom, placeEntry, Visit.entry, makeRomEntry, SameFile, hst, Option.map_some,
    Option.isSome_some, Bool.true_and, Bool.and_eq_true, Bool.or_eq_true, decide_eq_true_eq]
  constructor
  · rintro ⟨hindex, hidentity | hpath⟩
    · exact ⟨hindex, hidentity⟩
    · rw [Disk.stat_eq_of_canonicalPath_eq (found_fits hfound') (found_fits hfound) hpath, hst]
      exact ⟨hindex, rfl⟩
  · rintro ⟨hindex, hidentity⟩
    exact ⟨hindex, Or.inl hidentity⟩

theorem represents_placeEntry {place : Place} (h : place ∈ places disk scan) {path : CString}
    (hfits : path.length + 1 ≤ pathMax) (hpath : disk.isRegularFile path = true) :
    represents disk path (placeEntry disk scan place) = true ↔
      SameFile disk place.2.path path := by
  have hfound := (placeVisit_of_mem h).2
  obtain ⟨st, hst, -⟩ := Disk.isRegularFile_iff.mp hpath
  simp only [represents, placeEntry, Visit.entry, makeRomEntry, SameFile, hst, Option.map_some,
    Option.isSome_some, Bool.true_and, Bool.or_eq_true, decide_eq_true_eq]
  constructor
  · rintro (hsame | hsame)
    · rw [Disk.stat_eq_of_canonicalPath_eq (found_fits hfound) hfits (of_decide_eq_true hsame),
        hst, Option.map_some]
    · exact hsame
  · exact Or.inr

theorem basename_placeEntry {place : Place} (h : place ∈ places disk scan)
    (hne : pathBasename (placeEntry disk scan place).relativePath ≠ []) :
    pathBasename (placeEntry disk scan place).relativePath = place.2.name := by
  obtain ⟨hvisit, hfound⟩ := placeVisit_of_mem h
  obtain ⟨-, -, ⟨aliasDef, -, halias, -⟩, -⟩ := visit_of_mem_visits hvisit
  have hlocated := located_of_mem_found hfound
  obtain ⟨dir, hrel⟩ := hlocated.rel_eq
  have hfits : place.1.aliasName.length + 1 ≤ 64 := by
    rw [← halias]
    exact aliasDef.fits
  have hname : appended pathMax [] place.1.aliasName = place.1.aliasName := by
    unfold appended appendString
    rw [if_pos (by show 0 + place.1.aliasName.length + 1 ≤ 4096; omega)]
    rfl
  have hbegin : appended pathMax place.1.aliasName [slash] = place.1.aliasName ++ [slash] := by
    unfold appended appendString
    rw [if_pos (by show place.1.aliasName.length + 1 + 1 ≤ 4096; omega)]
    rfl
  have hentry : (placeEntry disk scan place).relativePath =
      appended pathMax (place.1.aliasName ++ [slash]) place.2.relPath := by
    rw [← hbegin]
    nth_rewrite 1 [← hname]
    rfl
  have hend : (place.1.aliasName ++ [slash]).getLast? = some slash := List.getLast?_concat ..
  rw [hentry] at hne ⊢
  unfold appended appendString at hne ⊢
  split_ifs at hne ⊢ with hfit
  · rw [Option.getD_some, hrel, ← List.append_assoc]
    apply pathBasename_append _ hlocated.slash_notMem
    rcases append_separator dir with hnil | hlast
    · rw [hnil, List.append_nil]
      exact Or.inr hend
    · apply Or.inr
      rwa [List.getLast?_append_of_ne_nil _ (by intro hnil; simp [hnil] at hlast)]
  · have hnil := @pathBasename_append _ [] (Or.inr hend) List.not_mem_nil
    rw [List.append_nil] at hnil
    exact absurd hnil hne

theorem fileExtension_of_hasRomExt {config : GgfeConfig} {system : SystemDef} {name : CString}
    (hslash : slash ∉ name) (hexts : ∀ ext ∈ config.romExts, lowerString ext ∈ system.extensions)
    (h : ggfeHasRomExt config.romExts name = true) :
    systemExtMatches system (fileExtension name) = true := by
  unfold ggfeHasRomExt at h
  cases hsplit : splitLast dot name with
  | none => simp [hsplit] at h
  | some parts =>
    obtain ⟨stem, ext⟩ := parts
    rw [hsplit] at h
    simp only [Bool.and_eq_true, decide_eq_true_eq, List.any_eq_true] at h
    obtain ⟨hne, romExt, hromExt, hsame⟩ := h
    have hlower : lowerString ext = lowerString romExt := by simpa [equalCi] using hsame
    have hlength : ext.length = romExt.length := by
      simpa [lowerString] using congrArg List.length hlower
    have hfits := config.romExts_fit romExt hromExt
    have hext : slash ∉ ext := by
      intro hmem
      apply hslash
      rw [(splitLast_eq_some.mp hsplit).1]
      simp [hmem]
    have hcopied : copied 24 ext = ext := by
      rw [copied, copyString, if_pos (by omega), Option.getD_some]
    simp [fileExtension, hsplit, hext, systemExtMatches, hne, hcopied, hlower,
      hexts romExt hromExt]

theorem placeListed_iff {place : Place}
    (hext : systemExtMatches place.1.system (fileExtension place.2.name) = true) :
    placeListed disk place = true ↔ ruledOut disk place = false := by
  simp only [placeListed, ruledOut, isListed, scanExtMatches, hext, Bool.and_true]
  cases disk.isDirectory place.2.path <;> cases place.1.filterSharedArchives <;> simp

theorem mem_cachedRoms {s : ℕ} {rom : RomEntry} :
    rom ∈ cachedRoms disk scan s ↔ rom ∈ (scanSystems disk scan).roms ∧ rom.systemIndex = s := by
  unfold cachedRoms
  rw [List.mem_filter, List.mem_mergeSort, decide_eq_true_eq]

end Places

/-- A card with `Roms/GG/a.gg` and `Roms/MD/b.zip`. -/
def cartridgeDisk : Disk :=
  .ofRows
    (cardRows ++
      [.dir [lit "sd", lit "Roms", lit "GG"] 4 [lit "a.gg"],
      .file [lit "sd", lit "Roms", lit "GG", lit "a.gg"] 5,
      .dir [lit "sd", lit "Roms", lit "MD"] 6
        [lit "b.zip"],
      .file [lit "sd", lit "Roms", lit "MD",
        lit "b.zip"] 7])
    (by decide +kernel)

theorem gg_fits : (lit "GG").length + 1 ≤ 64 := by decide

theorem md_fits : (lit "MD").length + 1 ≤ 64 := by decide

/-- The launch system, with a directory of its own and a shared one. -/
def cartridgeSystem : SystemDef where
  id := lit "gg"
  displayName := lit "gg"
  shortName := lit "gg"
  sortOrder := 0
  enabled := true
  pinned := false
  scanDirectories := false
  aliases := [⟨lit "GG", false, gg_fits⟩, ⟨lit "MD", true, md_fits⟩]
  extensions := [lit "gg", lit "zip"]
  artwork := []
  defaultLaunchProfile := []

def cartridgeScan : ScanConfig where
  sdcardRoot := lit "/sd"
  plumosRoot := lit "/sd/p"
  systemFilter := none
  resolveThumbnails := false
  systems := [cartridgeSystem]
  excludedDirectories := []

/-- GGFE with the directories and the extensions of the launch system. -/
def cartridgeConfig : GgfeConfig where
  exts := imageExts
  prefer := []
  sources := []
  lookups := []
  usePlumosLookup := true
  romDirs := [lit "GG", lit "MD"]
  romExts := [lit "gg", lit "zip"]
  romExts_fit := by decide

/-- The cartridge of this name in this directory. -/
def sampleCartridge (dir stem ext : CString) : GgfeEntry where
  title := stem
  rom := lit "/sd/Roms/" ++ dir ++ slash :: stem ++ dot :: ext
  rel := dir ++ slash :: stem ++ dot :: ext
  aliasName := dir
  art := []
  rule := []
  kind := .unknown

def ownCartridge : GgfeEntry := sampleCartridge (lit "GG") (lit "a") (lit "gg")

def sharedCartridge : GgfeEntry :=
  sampleCartridge (lit "MD") (lit "b") (lit "zip")

theorem mem_ggfeScan_cartridgeDisk :
    ownCartridge ∈ ggfeScan cartridgeDisk cartridgeConfig (.ofScan cartridgeScan) ∧
      sharedCartridge ∈ ggfeScan cartridgeDisk cartridgeConfig (.ofScan cartridgeScan) := by
  rw [mem_ggfeScan, mem_ggfeScan]
  decide +kernel

end PlumosBubble.Ggfe
