import PlumosBubble.Sequence.KeepNew
import PlumosBubble.Frontend.Scan

/-! The ROM list of a scan, taken apart: the directories the aliases name in the order of
the scan, those that are visited, what the walk reaches in each, and the entries that are
kept. -/

namespace PlumosBubble.Frontend

open Sequence

/-- What the walk of a directory reaches: a regular file, or a directory that is listed as
it stands. -/
structure Found where
  path : CString
  relPath : CString
  name : CString
  deriving DecidableEq

/-- A directory that an alias of a system names under a ROM root. -/
structure Visit where
  systemIndex : ℕ
  system : SystemDef
  aliasName : CString
  filterSharedArchives : Bool
  path : CString
  deriving DecidableEq

section Walk

variable (disk : Disk) (config : ScanConfig)

/-- What a walk reaches through one name, where `descend` walks a directory. -/
def reachChild (listDirectories : Bool) (descend : (dirPath relDir : CString) → List Found)
    (dirPath relDir name : CString) : List Found :=
  if isHidden name then []
  else
    match joinPath pathMax dirPath name, childRel relDir name with
    | some childPath, some childRel =>
      if disk.isDirectory childPath then
        if config.directoryIsExcluded name then []
        else if listDirectories && relDir = [] then [⟨childPath, childRel, name⟩]
        else descend childPath childRel
      else if disk.isRegularFile childPath then [⟨childPath, childRel, name⟩]
      else []
    | _, _ => []

/-- The regular files below a directory, through directories that are neither hidden nor
excluded, in the order of the walk. With `listDirectories`, the directories at the top are
not entered. -/
def reach (listDirectories : Bool) : ℕ → (dirPath relDir : CString) → List Found
  | 0, _, _ => []
  | fuel + 1, dirPath, relDir =>
    ((disk.readdir dirPath).getD []).flatMap
      (reachChild disk config listDirectories (reach listDirectories fuel) dirPath relDir)

/-- The ROM root of this name, where its path fits. -/
def romRoot (rootName : CString) : Option CString := joinPath pathMax config.sdcardRoot rootName

/-- What `scan_alias_dir` is called with, where the alias names a directory. -/
def aliasVisit (systemIndex : ℕ) (system : SystemDef) (root : CString) (aliasDef : AliasDef)
    (a : ℕ) : Option Visit :=
  if aliasDef.name = [] then none
  else
    ((joinPath pathMax root aliasDef.name).filter disk.isDirectory).map fun path =>
      { systemIndex, system, aliasName := aliasDef.name
        filterSharedArchives := 0 < a && aliasDef.shared
        path }

/-- The directories of one system, in the order of the scan. -/
def systemVisits (systemIndex : ℕ) (system : SystemDef) : List Visit :=
  if !config.selects system then []
  else
    romRootNames.flatMap fun rootName =>
      match romRoot config rootName with
      | none => []
      | some root => system.aliases.zipIdx.flatMap fun (aliasDef, a) =>
          (aliasVisit disk systemIndex system root aliasDef a).toList

/-- The directories of all systems, in the order of the scan. -/
def visits : List Visit :=
  config.systems.zipIdx.flatMap fun (system, s) => systemVisits disk config s system

/-- What `remember_scanned_dir` stores for a visit. -/
def Visit.scannedDir (visit : Visit) : ScannedDir :=
  ⟨visit.systemIndex, disk.canonicalPath visit.path, (disk.stat visit.path).map Stat.identity⟩

/-- The directory of the visit is one of those remembered. -/
def Visit.seen (visit : Visit) (dirs : List ScannedDir) : Bool :=
  scannedDirAlreadySeen dirs visit.systemIndex (disk.canonicalPath visit.path)
    ((disk.stat visit.path).map Stat.identity)

/-- The visits that are not skipped. -/
def visited : List ScannedDir → List Visit → List Visit
  | _, [] => []
  | dirs, visit :: rest =>
    if visit.seen disk dirs then visited dirs rest
    else visit :: visited (rememberScannedDir dirs (visit.scannedDir disk)) rest

/-- What the walk of a visit reaches. -/
def Visit.found (visit : Visit) : List Found :=
  reach disk config visit.system.scanDirectories pathMax (disk.canonicalPath visit.path) []

/-- A walk asks `add_rom_entry` to add this. -/
def isListed (system : SystemDef) (filterSharedArchives : Bool) (found : Found) : Bool :=
  disk.isDirectory found.path ||
    scanExtMatches system (fileExtension found.name) filterSharedArchives

/-- The entry `add_rom_entry` builds for something the visit reaches. -/
def Visit.entry (visit : Visit) (found : Found) : RomEntry :=
  makeRomEntry disk config visit.systemIndex visit.system visit.aliasName found.path found.relPath

/-- The entries `add_rom_entry` is asked to add during a visit. -/
def Visit.entries (visit : Visit) : List RomEntry :=
  ((visit.found disk config).filter
    (isListed disk visit.system visit.filterSharedArchives)).map (visit.entry disk config)

/-- `rom_already_seen`, between the entry to be added and one of the list. -/
def sameRom (entry rom : RomEntry) : Bool :=
  rom.systemIndex = entry.systemIndex &&
    ((entry.identity.isSome && rom.identity = entry.identity) || rom.path = entry.path)

variable {disk config}

theorem addRomEntry_roms (systemIndex : ℕ) (system : SystemDef)
    (aliasName absPath relPath : CString) (st : ScanState) :
    (addRomEntry disk config systemIndex system aliasName absPath relPath st).roms =
      addNew sameRom st.roms
        (makeRomEntry disk config systemIndex system aliasName absPath relPath) := by
  unfold addRomEntry addNew
  dsimp only
  split_ifs <;> first | rfl | contradiction

theorem addRomEntry_scannedDirs (systemIndex : ℕ) (system : SystemDef)
    (aliasName absPath relPath : CString) (st : ScanState) :
    (addRomEntry disk config systemIndex system aliasName absPath relPath st).scannedDirs =
      st.scannedDirs := by
  unfold addRomEntry
  dsimp only
  split_ifs <;> rfl

/-- The entries of what is listed. -/
def matching (disk : Disk) (config : ScanConfig) (systemIndex : ℕ) (system : SystemDef)
    (aliasName : CString) (filterSharedArchives : Bool) (files : List Found) : List RomEntry :=
  (files.filter (isListed disk system filterSharedArchives)).map fun found =>
    makeRomEntry disk config systemIndex system aliasName found.path found.relPath

/-- The scan `act` adds these entries to the list, and remembers no directory. -/
def Adds (act : ScanState → ScanState) (entries : List RomEntry) : Prop :=
  ∀ st, (act st).roms = keepNew sameRom st.roms entries ∧ (act st).scannedDirs = st.scannedDirs

theorem Adds.none {act : ScanState → ScanState}
    (h : ∀ st, (act st).roms = st.roms ∧ (act st).scannedDirs = st.scannedDirs) : Adds act [] := h

theorem Adds.foldl {α : Type} {act : ScanState → α → ScanState} {entries : α → List RomEntry}
    (h : ∀ x, Adds (fun st => act st x) (entries x)) (xs : List α) :
    Adds (fun st => xs.foldl act st) (xs.flatMap entries) := by
  induction xs with
  | nil => exact fun _ => ⟨rfl, rfl⟩
  | cons x xs ih =>
    intro st
    obtain ⟨hroms, hdirs⟩ := ih (act st x)
    obtain ⟨hroms', hdirs'⟩ := h x st
    rw [List.flatMap_cons, keepNew_append, ← hroms', ← hdirs']
    exact ⟨hroms, hdirs⟩

theorem adds_addRomEntry (systemIndex : ℕ) (system : SystemDef)
    (aliasName absPath relPath : CString) :
    Adds (addRomEntry disk config systemIndex system aliasName absPath relPath)
      [makeRomEntry disk config systemIndex system aliasName absPath relPath] :=
  fun _ => ⟨addRomEntry_roms .., addRomEntry_scannedDirs ..⟩

section Recursion

variable {systemIndex : ℕ} {system : SystemDef} {aliasName : CString} {filterSharedArchives : Bool}

theorem adds_scanChild {descend : CString → CString → ScanState → ScanState}
    {files : CString → CString → List Found}
    (hdescend : ∀ dirPath relDir, Adds (descend dirPath relDir)
      (matching disk config systemIndex system aliasName filterSharedArchives
        (files dirPath relDir))) (dirPath relDir name : CString) :
    Adds (fun st => scanChild disk config descend systemIndex system aliasName
        filterSharedArchives dirPath relDir st name)
      (matching disk config systemIndex system aliasName filterSharedArchives
        (reachChild disk config system.scanDirectories files dirPath relDir name)) := by
  unfold scanChild reachChild
  by_cases hhidden : isHidden name = true
  · simp only [if_pos hhidden]
    exact Adds.none fun _ => ⟨rfl, rfl⟩
  simp only [if_neg hhidden]
  cases joinPath pathMax dirPath name with
  | none => exact Adds.none fun _ => ⟨rfl, rfl⟩
  | some childPath =>
    cases childRel relDir name with
    | none => exact Adds.none fun _ => ⟨rfl, rfl⟩
    | some childRel =>
      dsimp only
      by_cases hdir : disk.isDirectory childPath = true
      · simp only [if_pos hdir]
        by_cases hexcluded : config.directoryIsExcluded name = true
        · simp only [if_pos hexcluded]
          exact Adds.none fun _ => ⟨rfl, rfl⟩
        · simp only [if_neg hexcluded]
          by_cases htop : (system.scanDirectories && relDir = []) = true
          · simp only [if_pos htop, matching, List.filter_cons, isListed, hdir, Bool.true_or,
              if_true, List.filter_nil, List.map_cons, List.map_nil]
            exact adds_addRomEntry systemIndex system aliasName childPath childRel
          · simp only [if_neg htop]
            exact hdescend childPath childRel
      · simp only [if_neg hdir]
        by_cases hregular : disk.isRegularFile childPath = true
        · simp only [hregular, Bool.not_true, Bool.false_eq_true, if_false, if_true]
          cases hext : scanExtMatches system (fileExtension name) filterSharedArchives with
          | true =>
            simp only [matching, List.filter_cons, isListed, hext, List.filter_nil, List.map_cons,
              List.map_nil, Bool.not_true, Bool.or_true, Bool.false_eq_true, if_false, if_true]
            exact fun st => adds_addRomEntry systemIndex system aliasName childPath childRel
              { st with filesSeen := st.filesSeen + 1, filesMatched := st.filesMatched + 1 }
          | false =>
            simp only [matching, List.filter_cons, isListed, hdir, hext, List.filter_nil,
              List.map_nil, Bool.not_false, Bool.or_false, Bool.false_eq_true, if_false, if_true]
            exact Adds.none fun _ => ⟨rfl, rfl⟩
        · simp only [hregular, Bool.not_false, if_true, Bool.false_eq_true, if_false]
          exact Adds.none fun _ => ⟨rfl, rfl⟩

theorem matching_flatMap {α : Type} (xs : List α) (files : α → List Found) :
    matching disk config systemIndex system aliasName filterSharedArchives (xs.flatMap files) =
      xs.flatMap fun x =>
        matching disk config systemIndex system aliasName filterSharedArchives (files x) := by
  simp [matching, List.filter_flatMap, List.map_flatMap]

theorem adds_scanDirRecursive {fuel : ℕ} :
    ∀ dirPath relDir, Adds
      (scanDirRecursive disk config systemIndex system aliasName filterSharedArchives fuel
        dirPath relDir)
      (matching disk config systemIndex system aliasName filterSharedArchives
        (reach disk config system.scanDirectories fuel dirPath relDir)) := by
  induction fuel with
  | zero => exact fun _ _ => Adds.none fun _ => ⟨rfl, rfl⟩
  | succ fuel ih =>
    intro dirPath relDir
    unfold reach
    rw [matching_flatMap]
    exact Adds.foldl (fun name => adds_scanChild ih dirPath relDir name) _

end Recursion

/-- What `scan_alias_dir` does with the directory of an alias. -/
def scanVisit (disk : Disk) (config : ScanConfig) (visit : Visit) (st : ScanState) : ScanState :=
  if visit.seen disk st.scannedDirs then st
  else
    scanDirRecursive disk config visit.systemIndex visit.system visit.aliasName
      visit.filterSharedArchives pathMax (disk.canonicalPath visit.path) []
      { st with
        scannedDirs := rememberScannedDir st.scannedDirs (visit.scannedDir disk)
        aliasDirsFound := st.aliasDirsFound + 1 }

theorem scanAliasDir_eq (systemIndex : ℕ) (system : SystemDef) (root : CString)
    (aliasDef : AliasDef) (a : ℕ) (st : ScanState) :
    scanAliasDir disk config systemIndex system root aliasDef (0 < a && aliasDef.shared) st =
      (aliasVisit disk systemIndex system root aliasDef a).toList.foldl
        (fun st visit => scanVisit disk config visit st) st := by
  unfold scanAliasDir aliasVisit
  by_cases hname : aliasDef.name = []
  · rw [if_pos hname, if_pos hname]
    rfl
  rw [if_neg hname, if_neg hname]
  cases joinPath pathMax root aliasDef.name with
  | none => rfl
  | some path =>
    dsimp only
    cases hdir : disk.isDirectory path with
    | false =>
      rw [Option.filter_some_neg (by simp [hdir])]
      rfl
    | true =>
      rw [Option.filter_some_pos hdir]
      rfl

/-- The directories remembered after these visits. -/
def remembered (disk : Disk) (dirs : List ScannedDir) (vs : List Visit) : List ScannedDir :=
  vs.foldl (fun dirs visit =>
    if visit.seen disk dirs then dirs
    else rememberScannedDir dirs (visit.scannedDir disk)) dirs

theorem visited_append (dirs : List ScannedDir) (vs ws : List Visit) :
    visited disk dirs (vs ++ ws) =
      visited disk dirs vs ++ visited disk (remembered disk dirs vs) ws := by
  induction vs generalizing dirs with
  | nil => rfl
  | cons visit vs ih =>
    simp only [List.cons_append, visited, remembered, List.foldl_cons]
    split_ifs
    · exact ih dirs
    · rw [List.cons_append]
      exact congrArg _ (ih _)

/-- The scan `act` makes these visits. -/
def Makes (disk : Disk) (config : ScanConfig) (act : ScanState → ScanState) (vs : List Visit) :
    Prop :=
  ∀ st, (act st).roms = keepNew sameRom st.roms
      ((visited disk st.scannedDirs vs).flatMap (Visit.entries disk config)) ∧
    (act st).scannedDirs = remembered disk st.scannedDirs vs

theorem makes_scanVisit (visit : Visit) :
    Makes disk config (scanVisit disk config visit) [visit] := by
  intro st
  simp only [scanVisit, visited, remembered, List.foldl_cons, List.foldl_nil]
  split_ifs with hseen
  · exact ⟨rfl, rfl⟩
  · rw [List.flatMap_singleton]
    exact adds_scanDirRecursive _ _ _

theorem Makes.foldl {α : Type} {act : ScanState → α → ScanState} {vs : α → List Visit}
    (h : ∀ x, Makes disk config (fun st => act st x) (vs x)) (xs : List α) :
    Makes disk config (fun st => xs.foldl act st) (xs.flatMap vs) := by
  induction xs with
  | nil => exact fun _ => ⟨rfl, rfl⟩
  | cons x xs ih =>
    intro st
    obtain ⟨hroms, hdirs⟩ := ih (act st x)
    obtain ⟨hroms', hdirs'⟩ := h x st
    dsimp only at hroms hroms' hdirs hdirs' ⊢
    constructor
    · rw [List.foldl_cons, hroms, hroms', hdirs', List.flatMap_cons, visited_append,
        List.flatMap_append, keepNew_append]
    · rw [List.foldl_cons, hdirs, hdirs', List.flatMap_cons, remembered, remembered, remembered,
        List.foldl_append]

theorem makes_scanSystem (systemIndex : ℕ) (system : SystemDef) :
    Makes disk config (scanSystem disk config systemIndex system)
      (systemVisits disk config systemIndex system) := by
  unfold scanSystem systemVisits
  by_cases hselects : config.selects system = true
  · simp only [hselects, Bool.not_true, Bool.false_eq_true, if_false]
    apply Makes.foldl
    intro rootName
    unfold romRoot
    cases joinPath pathMax config.sdcardRoot rootName with
    | none => exact fun _ => ⟨rfl, rfl⟩
    | some root =>
      apply Makes.foldl
      rintro ⟨aliasDef, a⟩
      simp only [scanAliasDir_eq]
      have hvisits := Makes.foldl (@makes_scanVisit disk config)
        (aliasVisit disk systemIndex system root aliasDef a).toList
      simpa using hvisits
  · simp only [hselects, Bool.not_false, if_true]
    exact fun _ => ⟨rfl, rfl⟩

theorem scanSystems_roms :
    (scanSystems disk config).roms = keepNew sameRom []
      ((visited disk [] (visits disk config)).flatMap (Visit.entries disk config)) :=
  (Makes.foldl (fun (system, s) => makes_scanSystem s system) config.systems.zipIdx .start).1

theorem mem_reachChild {listDirectories : Bool} {descend : CString → CString → List Found}
    {dirPath relDir name : CString} {found : Found} :
    found ∈ reachChild disk config listDirectories descend dirPath relDir name ↔
      ¬isHidden name = true ∧ ∃ childPath childRel',
        joinPath pathMax dirPath name = some childPath ∧ childRel relDir name = some childRel' ∧
        ((disk.isDirectory childPath = true ∧ ¬config.directoryIsExcluded name = true ∧
            ((listDirectories && relDir = []) = true ∧ found = ⟨childPath, childRel', name⟩ ∨
              ¬(listDirectories && relDir = []) = true ∧ found ∈ descend childPath childRel')) ∨
          (¬disk.isDirectory childPath = true ∧ disk.isRegularFile childPath = true ∧
            found = ⟨childPath, childRel', name⟩)) := by
  unfold reachChild
  by_cases hhidden : isHidden name = true
  · simp [hhidden]
  rw [if_neg hhidden]
  cases joinPath pathMax dirPath name with
  | none => simp
  | some childPath =>
    cases childRel relDir name with
    | none => simp
    | some childRel' =>
      by_cases hdir : disk.isDirectory childPath = true
      · by_cases hexcluded : config.directoryIsExcluded name = true
        · simp [hdir, hexcluded]
        · by_cases htop : (listDirectories && relDir = []) = true
          · simp only [hhidden, hexcluded, htop]
            simp [hdir]
          · simp only [hhidden, hexcluded, htop]
            simp [hdir]
      · by_cases hregular : disk.isRegularFile childPath = true <;> simp [hhidden, hdir, hregular]

theorem mem_reach_succ {listDirectories : Bool} {fuel : ℕ} {dirPath relDir : CString}
    {found : Found} :
    found ∈ reach disk config listDirectories (fuel + 1) dirPath relDir ↔
      ∃ names, disk.readdir dirPath = some names ∧ ∃ name ∈ names,
        found ∈ reachChild disk config listDirectories (reach disk config listDirectories fuel)
          dirPath relDir name := by
  unfold reach
  cases disk.readdir dirPath <;> simp [List.mem_flatMap]

theorem reach_invariant {listDirectories : Bool} {I : CString → CString → Prop}
    {J : CString → CString → CString → Prop}
    (step : ∀ {dirPath relDir names name childPath childRel'}, I dirPath relDir →
      disk.readdir dirPath = some names → name ∈ names → ¬isHidden name = true →
      joinPath pathMax dirPath name = some childPath → childRel relDir name = some childRel' →
      J childPath childRel' name)
    (hJ : ∀ {path rel name}, J path rel name → I path rel) {fuel : ℕ} {found : Found} :
    ∀ {dirPath relDir}, I dirPath relDir →
      found ∈ reach disk config listDirectories fuel dirPath relDir →
      J found.path found.relPath found.name := by
  induction fuel with
  | zero => exact fun _ hmem => absurd hmem List.not_mem_nil
  | succ fuel ih =>
    intro dirPath relDir hI hmem
    obtain ⟨names, hnames, name, hname, hmem⟩ := mem_reach_succ.mp hmem
    obtain ⟨hhidden, childPath, childRel', hjoin, hrel, hmem⟩ := mem_reachChild.mp hmem
    have hchild : J childPath childRel' name := step hI hnames hname hhidden hjoin hrel
    rcases hmem with ⟨-, -, ⟨-, rfl⟩ | ⟨-, hmem⟩⟩ | ⟨-, -, rfl⟩
    · exact hchild
    · exact ih (hJ hchild) hmem
    · exact hchild

/-- Without `listDirectories`, a walk reaches regular files. -/
theorem isRegularFile_of_mem_reach {fuel : ℕ} {found : Found} :
    ∀ {dirPath relDir}, found ∈ reach disk config false fuel dirPath relDir →
      disk.isRegularFile found.path = true := by
  induction fuel with
  | zero => exact fun hmem => absurd hmem List.not_mem_nil
  | succ fuel ih =>
    intro dirPath relDir hmem
    obtain ⟨names, -, name, -, hmem⟩ := mem_reach_succ.mp hmem
    obtain ⟨-, childPath, childRel', -, -, hmem⟩ := mem_reachChild.mp hmem
    rcases hmem with ⟨-, -, ⟨htop, -⟩ | ⟨-, hmem⟩⟩ | ⟨-, hregular, rfl⟩
    · simp at htop
    · exact ih hmem
    · exact hregular

theorem visit_of_mem_visits {visit : Visit} (h : visit ∈ visits disk config) :
    (visit.system, visit.systemIndex) ∈ config.systems.zipIdx ∧
      config.selects visit.system = true ∧
      (∃ aliasDef ∈ visit.system.aliases, aliasDef.name = visit.aliasName ∧ aliasDef.name ≠ []) ∧
      disk.isDirectory visit.path = true := by
  obtain ⟨⟨system, s⟩, hsystem, hvisit⟩ := List.mem_flatMap.mp h
  dsimp only [systemVisits] at hvisit
  by_cases hselects : config.selects system = true
  swap
  · simp [hselects] at hvisit
  rw [if_neg (by simp [hselects])] at hvisit
  obtain ⟨rootName, -, hvisit⟩ := List.mem_flatMap.mp hvisit
  cases hroot : romRoot config rootName with
  | none => simp [hroot] at hvisit
  | some root =>
    rw [hroot] at hvisit
    obtain ⟨⟨aliasDef, a⟩, halias, hvisit⟩ := List.mem_flatMap.mp hvisit
    unfold aliasVisit at hvisit
    split_ifs at hvisit with hname
    · cases hvisit
    obtain ⟨path, hpath, rfl⟩ := Option.map_eq_some_iff.mp (Option.mem_toList.mp hvisit)
    exact ⟨hsystem, hselects, ⟨aliasDef, List.fst_mem_of_mem_zipIdx halias, rfl, hname⟩,
      (Option.filter_eq_some_iff.mp hpath).2⟩

theorem visited_sublist (dirs : List ScannedDir) (vs : List Visit) :
    (visited disk dirs vs).Sublist vs := by
  induction vs generalizing dirs with
  | nil => exact List.Sublist.refl _
  | cons visit vs ih =>
    unfold visited
    split_ifs
    · exact (ih dirs).cons _
    · exact (ih _).cons_cons _

theorem exists_of_mem_roms {rom : RomEntry} (h : rom ∈ (scanSystems disk config).roms) :
    ∃ visit ∈ visited disk [] (visits disk config), ∃ found ∈ visit.found disk config,
      isListed disk visit.system visit.filterSharedArchives found = true ∧
        rom = visit.entry disk config found := by
  rw [scanSystems_roms] at h
  rcases mem_of_mem_keepNew h with hnil | hmem
  · cases hnil
  · obtain ⟨visit, hvisit, hmem⟩ := List.mem_flatMap.mp hmem
    obtain ⟨found, hfound, rfl⟩ := List.mem_map.mp hmem
    obtain ⟨hfound, hlisted⟩ := List.mem_filter.mp hfound
    exact ⟨visit, hvisit, found, hfound, hlisted, rfl⟩

end Walk

end PlumosBubble.Frontend
