import PlumosBubble.Frontend.LibraryIndex

/-! Which files a scan without `scan_directories` lists. A directory is visited once for a
system, under the rule of the alias that names it first; a later alias with another rule is
skipped with the archives only it would accept. -/

namespace PlumosBubble.Frontend

open Sequence

section Walks

variable {disk : Disk} {config : ScanConfig}
variable {systemIndex : ℕ} {system : SystemDef} {aliasName : CString} {filterSharedArchives : Bool}

theorem length_lt_of_joinPath {dirPath name childPath : CString} {names : List CString}
    (hnames : disk.readdir dirPath = some names) (hname : name ∈ names)
    (hjoin : joinPath pathMax dirPath name = some childPath) :
    dirPath.length < childPath.length ∧ childPath.length + 1 ≤ pathMax := by
  obtain ⟨hne, hslash, -⟩ := disk.readdir_name _ _ _ hnames hname
  have hhead : name.head? ≠ some slash := fun h => hslash (List.mem_of_head? h)
  obtain ⟨rfl, hfits⟩ := (joinPath_relative hhead).mp hjoin
  have hpos := List.length_pos_iff.mpr hne
  refine ⟨?_, hfits⟩
  rw [List.length_append, List.length_append]
  omega

theorem scanChild_congr {descend descend' : CString → CString → ScanState → ScanState}
    {dirPath relDir name : CString}
    (h : ∀ childPath childRel st, joinPath pathMax dirPath name = some childPath →
      descend childPath childRel st = descend' childPath childRel st) (st : ScanState) :
    scanChild disk config descend systemIndex system aliasName filterSharedArchives dirPath relDir
        st name =
      scanChild disk config descend' systemIndex system aliasName filterSharedArchives dirPath
        relDir st name := by
  unfold scanChild
  cases hjoin : joinPath pathMax dirPath name with
  | none => rfl
  | some childPath =>
    cases childRel relDir name with
    | none => rfl
    | some childRel =>
      dsimp only
      rw [h childPath childRel st hjoin]

/-- With as many levels as the path leaves of `PATH_MAX`, more levels make no difference. -/
theorem scanDirRecursive_fuel (extra : ℕ) {fuel : ℕ} :
    ∀ {dirPath relDir : CString} {st : ScanState}, pathMax ≤ fuel + dirPath.length →
      scanDirRecursive disk config systemIndex system aliasName filterSharedArchives
        (fuel + extra) dirPath relDir st =
      scanDirRecursive disk config systemIndex system aliasName filterSharedArchives fuel
        dirPath relDir st := by
  induction fuel with
  | zero =>
    intro dirPath relDir st hlength
    cases extra with
    | zero => rfl
    | succ extra =>
      rw [Nat.zero_add]
      unfold scanDirRecursive
      cases hnames : disk.readdir dirPath with
      | none => rfl
      | some names =>
        rw [Option.getD_some, List.foldl_ext _ (fun st _ => st), List.foldl_fixed]
        intro st name hname
        -- no name fits behind a path of this length
        have hjoin : joinPath pathMax dirPath name = none := by
          by_contra hne
          obtain ⟨childPath, hjoin⟩ := Option.ne_none_iff_exists'.mp hne
          have := length_lt_of_joinPath hnames hname hjoin
          omega
        unfold scanChild
        rw [hjoin]
        split_ifs <;> rfl
  | succ fuel ih =>
    intro dirPath relDir st hlength
    rw [Nat.add_right_comm]
    unfold scanDirRecursive
    cases hnames : disk.readdir dirPath with
    | none => rfl
    | some names =>
      apply List.foldl_ext
      intro st name hname
      apply scanChild_congr
      intro childPath childRel st hjoin
      have := length_lt_of_joinPath hnames hname hjoin
      apply ih
      omega

theorem found_fits {visit : Visit} {found : Found} (h : found ∈ visit.found disk config) :
    found.path.length + 1 ≤ pathMax :=
  reach_invariant (I := fun _ _ => True) (J := fun path _ _ => path.length + 1 ≤ pathMax)
    (fun _ hnames hname _ hjoin _ => (length_lt_of_joinPath hnames hname hjoin).2)
    (fun _ => trivial) trivial h

end Walks

section Claim

variable (disk : Disk) (config : ScanConfig)

/-- A visit of the system reaches this file, and the visit's rule accepts it. -/
def Accepted (s : ℕ) (vs : List Visit) (found : Found) : Prop :=
  ∃ visit ∈ vs, visit.systemIndex = s ∧ found ∈ visit.found disk config ∧
    isListed disk visit.system visit.filterSharedArchives found = true

/-- The entry stands for the file at this path: its canonical path, or its inode. -/
def represents (path : CString) (rom : RomEntry) : Bool :=
  rom.path = disk.canonicalPath path ||
    ((disk.stat path).isSome && rom.identity = (disk.stat path).map Stat.identity)

/-- The files a system's aliases reach, and no others, have one entry each. -/
structure ListsAll (s : ℕ) : Prop where
  complete : ∀ found, Accepted disk config s (visits disk config) found →
    ((scanSystems disk config).roms.filter fun rom => rom.systemIndex = s).countP
      (represents disk found.path) = 1
  sound : ∀ rom ∈ (scanSystems disk config).roms, rom.systemIndex = s →
    ∃ found, Accepted disk config s (visits disk config) found ∧
      rom.path = disk.canonicalPath found.path ∧
      rom.identity = (disk.stat found.path).map Stat.identity

/-- What a scan and its index promise. -/
structure ScanCorrect : Prop where
  lists : ∀ s, ListsAll disk config s
  counts : ∀ system ∈ (libraryScan disk config).systems, system.romCount = system.roms.length
  total : (libraryScan disk config).romCount =
    ((libraryScan disk config).systems.map fun system => system.roms.length).sum
  terminates : ∀ systemIndex system aliasName filterSharedArchives extra dirPath relDir st,
    scanDirRecursive disk config systemIndex system aliasName filterSharedArchives
      (pathMax + extra) dirPath relDir st =
    scanDirRecursive disk config systemIndex system aliasName filterSharedArchives pathMax
      dirPath relDir st

/-- Every archive with an extension of the system that an alias without the rule for shared
archives reaches is also accepted by a visit that is not skipped. -/
def ArchivesVisible : Prop :=
  ∀ visit ∈ visits disk config, visit.filterSharedArchives = false →
    ∀ found ∈ visit.found disk config,
      archiveExtensionIsAmbiguous (fileExtension found.name) = true →
      systemExtMatches visit.system (fileExtension found.name) = true →
      ∃ found', Accepted disk config visit.systemIndex (visited disk [] (visits disk config)) found' ∧
        (disk.stat found'.path).map Stat.identity = (disk.stat found.path).map Stat.identity

variable {disk config}

theorem seen_rememberScannedDir {dirs : List ScannedDir} {first visit : Visit}
    (hfirst : disk.isDirectory first.path = true) (hvisit : disk.isDirectory visit.path = true)
    (h : visit.seen disk (rememberScannedDir dirs (first.scannedDir disk)) = true) :
    visit.seen disk dirs = true ∨ (visit.systemIndex = first.systemIndex ∧
      disk.canonicalPath visit.path = disk.canonicalPath first.path) := by
  unfold rememberScannedDir at h
  split_ifs at h
  · exact Or.inl h
  unfold Visit.seen scannedDirAlreadySeen at h
  rw [List.any_append, Bool.or_eq_true] at h
  rcases h with hold | hnew
  · exact Or.inl hold
  · apply Or.inr
    obtain ⟨st, hst, hdir⟩ := Disk.isDirectory_iff.mp hvisit
    obtain ⟨st', hst', hdir'⟩ := Disk.isDirectory_iff.mp hfirst
    simp only [Visit.scannedDir, List.any_cons, List.any_nil, Bool.or_false, Bool.and_eq_true,
      Bool.or_eq_true, decide_eq_true_eq, hst, hst', Option.map_some, Option.some.injEq] at hnew
    obtain ⟨hindex, ⟨-, hidentity⟩ | hpath⟩ := hnew
    · exact ⟨hindex.symm,
        Disk.canonicalPath_eq_of_identity hst hst' hdir hdir' hidentity.symm⟩
    · exact ⟨hindex.symm, hpath.symm⟩

theorem exists_visited {vs : List Visit} (hvs : ∀ visit ∈ vs, disk.isDirectory visit.path = true)
    {visit : Visit} (h : visit ∈ vs) :
    ∀ {dirs}, visit.seen disk dirs = false → ∃ visit' ∈ visited disk dirs vs,
      visit'.systemIndex = visit.systemIndex ∧
        disk.canonicalPath visit'.path = disk.canonicalPath visit.path := by
  induction vs with
  | nil => cases h
  | cons first vs ih =>
    intro dirs hseen
    have hrest := fun visit hvisit => hvs visit (List.mem_cons_of_mem _ hvisit)
    unfold visited
    by_cases hfirst : first.seen disk dirs = true
    · rw [if_pos hfirst]
      rcases List.mem_cons.mp h with rfl | hmem
      · simp [hseen] at hfirst
      · exact ih hrest hmem hseen
    · rw [if_neg hfirst]
      by_cases hsame : visit.systemIndex = first.systemIndex ∧
          disk.canonicalPath visit.path = disk.canonicalPath first.path
      · exact ⟨first, List.mem_cons_self, hsame.1.symm, hsame.2.symm⟩
      · rcases List.mem_cons.mp h with rfl | hmem
        · exact absurd ⟨rfl, rfl⟩ hsame
        · -- remembering another directory does not make this one seen
          have hstill : visit.seen disk (rememberScannedDir dirs (first.scannedDir disk)) = false := by
            by_contra hne
            rcases seen_rememberScannedDir (hvs first List.mem_cons_self) (hvs visit h)
              (by simpa using hne) with hold | hboth
            · simp [hseen] at hold
            · exact hsame hboth
          obtain ⟨visit', hvisit', hfound⟩ := ih hrest hmem hstill
          exact ⟨visit', List.mem_cons_of_mem _ hvisit', hfound⟩

/-- Without `scan_directories`, what a visit lists is a regular file with an extension of
the system. -/
theorem isListed_iff {visit : Visit} (hsystem : visit.system.scanDirectories = false)
    {found : Found} (h : found ∈ visit.found disk config) (filterSharedArchives : Bool) :
    isListed disk visit.system filterSharedArchives found = true ↔
      ¬(filterSharedArchives = true ∧ archiveExtensionIsAmbiguous (fileExtension found.name) = true) ∧
        systemExtMatches visit.system (fileExtension found.name) = true := by
  unfold Visit.found at h
  rw [hsystem] at h
  have hdir := Disk.not_isDirectory_of_isRegularFile (isRegularFile_of_mem_reach h)
  simp only [isListed, scanExtMatches, hdir, Bool.or_eq_true, Bool.and_eq_true, Bool.not_eq_true',
    Bool.and_eq_false_iff, not_and, Bool.not_eq_true]
  cases filterSharedArchives <;> simp

theorem exists_stat_of_mem_found {visit : Visit} (hsystem : visit.system.scanDirectories = false)
    {found : Found} (h : found ∈ visit.found disk config) : ∃ st, disk.stat found.path = some st := by
  unfold Visit.found at h
  rw [hsystem] at h
  obtain ⟨st, hst, -⟩ := Disk.isRegularFile_iff.mp (isRegularFile_of_mem_reach h)
  exact ⟨st, hst⟩

theorem represents_iff {found found' : Found} {visit visit' : Visit}
    (hsystem : visit.system.scanDirectories = false) (h : found ∈ visit.found disk config)
    (h' : found' ∈ visit'.found disk config) {rom : RomEntry}
    (hpath : rom.path = disk.canonicalPath found'.path)
    (hidentity : rom.identity = (disk.stat found'.path).map Stat.identity) :
    represents disk found.path rom = true ↔
      (disk.stat found'.path).map Stat.identity = (disk.stat found.path).map Stat.identity := by
  obtain ⟨st, hst⟩ := exists_stat_of_mem_found hsystem h
  simp only [represents, hpath, hidentity, hst, Option.isSome_some, Bool.true_and, Bool.or_eq_true,
    decide_eq_true_eq, Option.map_some]
  constructor
  · rintro (hsame | hsame)
    · rw [Disk.stat_eq_of_canonicalPath_eq (found_fits h') (found_fits h) hsame, hst,
        Option.map_some]
    · exact hsame
  · exact Or.inr

theorem exists_entry {s : ℕ} {found : Found}
    (h : Accepted disk config s (visited disk [] (visits disk config)) found) :
    ∃ rom ∈ (scanSystems disk config).roms, rom.systemIndex = s ∧
      represents disk found.path rom = true := by
  obtain ⟨visit, hvisit, rfl, hfound, hlisted⟩ := h
  have hentry : visit.entry disk config found ∈
      (visited disk [] (visits disk config)).flatMap (Visit.entries disk config) :=
    List.mem_flatMap.mpr ⟨visit, hvisit, List.mem_map_of_mem (List.mem_filter.mpr ⟨hfound, hlisted⟩)⟩
  obtain ⟨rom, hrom, hsame⟩ := @exists_same_of_mem _ sameRom [] _ _ hentry
  rw [← scanSystems_roms] at hrom
  refine ⟨rom, hrom, ?_⟩
  rcases hsame with hsame | rfl
  · simp only [sameRom, Visit.entry, makeRomEntry, Bool.and_eq_true, Bool.or_eq_true,
      Option.isSome_map] at hsame
    refine ⟨of_decide_eq_true hsame.1, ?_⟩
    simp only [represents, Bool.or_eq_true, Bool.and_eq_true]
    exact hsame.2.symm
  · simp [represents, Visit.entry, makeRomEntry]

theorem eq_system_of_mem_visits {visit visit' : Visit} (h : visit ∈ visits disk config)
    (h' : visit' ∈ visits disk config) (hindex : visit'.systemIndex = visit.systemIndex) :
    visit'.system = visit.system := by
  obtain ⟨hsystem, -⟩ := visit_of_mem_visits h
  obtain ⟨hsystem', -⟩ := visit_of_mem_visits h'
  have hsame := List.mk_mem_zipIdx_iff_getElem?.mp hsystem
  rw [← hindex, List.mk_mem_zipIdx_iff_getElem?.mp hsystem'] at hsame
  exact Option.some.inj hsame

variable (hconfig : ∀ system ∈ config.systems, system.scanDirectories = false)

include hconfig

theorem scanDirectories_of_mem_visits {visit : Visit} (h : visit ∈ visits disk config) :
    visit.system.scanDirectories = false :=
  hconfig _ (List.fst_mem_of_mem_zipIdx (visit_of_mem_visits h).1)

theorem ArchivesVisible.accepted (harchives : ArchivesVisible disk config) {s : ℕ} {found : Found}
    (h : Accepted disk config s (visits disk config) found) :
    ∃ found', Accepted disk config s (visited disk [] (visits disk config)) found' ∧
      (disk.stat found'.path).map Stat.identity = (disk.stat found.path).map Stat.identity := by
  obtain ⟨visit, hvisit, rfl, hfound, hlisted⟩ := h
  have hplain := scanDirectories_of_mem_visits hconfig hvisit
  obtain ⟨visit', hvisit', hindex, hcanonical⟩ :=
    exists_visited (fun _ h => (visit_of_mem_visits h).2.2.2) hvisit
      (show visit.seen disk [] = false from rfl)
  have hsystem := eq_system_of_mem_visits hvisit ((visited_sublist _ _).subset hvisit') hindex
  have hfound' : found ∈ visit'.found disk config := by
    unfold Visit.found
    rw [hsystem, hcanonical]
    exact hfound
  by_cases hlisted' : isListed disk visit'.system visit'.filterSharedArchives found = true
  · exact ⟨found, ⟨visit', hvisit', hindex, hfound', hlisted'⟩, rfl⟩
  · rw [hsystem, isListed_iff hplain hfound] at hlisted'
    obtain ⟨hopen, hext⟩ := (isListed_iff hplain hfound _).mp hlisted
    have harchive : archiveExtensionIsAmbiguous (fileExtension found.name) = true := by
      by_contra hnot
      exact hlisted' ⟨fun h => hnot h.2, hext⟩
    have hunfiltered : visit.filterSharedArchives = false := by
      by_contra hfilter
      exact hopen ⟨by simpa using hfilter, harchive⟩
    exact harchives visit hvisit hunfiltered found hfound harchive hext

theorem countP_represents_le {s : ℕ} {found : Found}
    (h : Accepted disk config s (visits disk config) found) :
    ((scanSystems disk config).roms.filter fun rom => rom.systemIndex = s).countP
      (represents disk found.path) ≤ 1 := by
  obtain ⟨visit, hvisit, rfl, hfound, -⟩ := h
  have hplain := scanDirectories_of_mem_visits hconfig hvisit
  have hpairs : (scanSystems disk config).roms.Pairwise fun y x => sameRom x y = false := by
    rw [scanSystems_roms]
    exact pairwise_keepNew List.Pairwise.nil
  have hidentity : ∀ rom ∈ (scanSystems disk config).roms.filter fun rom =>
      rom.systemIndex = visit.systemIndex, represents disk found.path rom = true →
      rom.systemIndex = visit.systemIndex ∧
        rom.identity = (disk.stat found.path).map Stat.identity := by
    intro rom hrom hrepresents
    obtain ⟨hrom, hindex⟩ := List.mem_filter.mp hrom
    obtain ⟨visit', -, found', hfound', -, hentry⟩ := exists_of_mem_roms hrom
    have hidentity : rom.identity = (disk.stat found'.path).map Stat.identity := by
      rw [hentry]
      rfl
    refine ⟨of_decide_eq_true hindex, ?_⟩
    rw [hidentity]
    exact (represents_iff hplain hfound hfound' (by rw [hentry]; rfl) hidentity).mp hrepresents
  apply countP_le_one (hpairs.filter _)
  intro first hfirst second hsecond hrepresents hrepresents'
  obtain ⟨hindex, hinode⟩ := hidentity first hfirst hrepresents
  obtain ⟨hindex', hinode'⟩ := hidentity second hsecond hrepresents'
  obtain ⟨st, hst⟩ := exists_stat_of_mem_found hplain hfound
  simp [sameRom, hindex, hindex', hinode, hinode', hst]

/-- A scan without `scan_directories` lists exactly the files its aliases reach and accept,
each once, exactly if no archive hides behind an alias that was visited first. -/
theorem scanCorrect_iff : ScanCorrect disk config ↔ ArchivesVisible disk config := by
  constructor
  · intro h visit hvisit hunfiltered found hfound harchive hext
    have hplain := scanDirectories_of_mem_visits hconfig hvisit
    have haccepted : Accepted disk config visit.systemIndex (visits disk config) found := by
      refine ⟨visit, hvisit, rfl, hfound, (isListed_iff hplain hfound _).mpr ⟨?_, hext⟩⟩
      simp [hunfiltered]
    have hone := (h.lists visit.systemIndex).complete found haccepted
    obtain ⟨rom, hrom, hrepresents⟩ := List.countP_pos_iff.mp (hone.symm ▸ Nat.one_pos)
    obtain ⟨hrom, hindex⟩ := List.mem_filter.mp hrom
    obtain ⟨visit', hvisit', found', hfound', hlisted', hentry⟩ := exists_of_mem_roms hrom
    refine ⟨found', ⟨visit', hvisit', ?_, hfound', hlisted'⟩, ?_⟩
    · have : rom.systemIndex = visit'.systemIndex := by
        rw [hentry]
        rfl
      rw [← this]
      exact of_decide_eq_true hindex
    · exact (represents_iff hplain hfound hfound' (by rw [hentry]; rfl)
        (by rw [hentry]; rfl)).mp hrepresents
  · intro harchives
    obtain ⟨hcounts, htotal⟩ := libraryScan_counts disk config
    refine ⟨fun s => ⟨?_, ?_⟩, hcounts, htotal, ?_⟩
    · intro found haccepted
      apply le_antisymm (countP_represents_le hconfig haccepted)
      obtain ⟨found', haccepted', hsame⟩ := harchives.accepted hconfig haccepted
      obtain ⟨rom, hrom, hindex, hrepresents⟩ := exists_entry haccepted'
      apply List.countP_pos_iff.mpr
      refine ⟨rom, List.mem_filter.mpr ⟨hrom, by simpa using hindex⟩, ?_⟩
      obtain ⟨visit, hvisit, -, hfound, -⟩ := haccepted
      obtain ⟨visit', hvisit', -, hfound', -⟩ := haccepted'
      obtain ⟨visit'', -, found'', hfound'', -, hentry⟩ := exists_of_mem_roms hrom
      have hpath : rom.path = disk.canonicalPath found''.path := by
        rw [hentry]
        rfl
      have hidentity : rom.identity = (disk.stat found''.path).map Stat.identity := by
        rw [hentry]
        rfl
      have hplain := scanDirectories_of_mem_visits hconfig hvisit
      have hplain' := scanDirectories_of_mem_visits hconfig ((visited_sublist _ _).subset hvisit')
      rw [represents_iff hplain' hfound' hfound'' hpath hidentity] at hrepresents
      rw [represents_iff hplain hfound hfound'' hpath hidentity, hrepresents, hsame]
    · rintro rom hrom rfl
      obtain ⟨visit, hvisit, found, hfound, hlisted, rfl⟩ := exists_of_mem_roms hrom
      exact ⟨found, ⟨visit, (visited_sublist _ _).subset hvisit, rfl, hfound, hlisted⟩, rfl, rfl⟩
    · intro _ _ _ _ extra _ _ _
      exact scanDirRecursive_fuel extra (by omega)

end Claim

/-- A directory `Roms/A` with one archive, and a link `Roms/B` to it. -/
def linkedDisk : Disk :=
  .ofRows
    (cardRows ++
      [.dir [lit "sd", lit "Roms", lit "A"] 4 [lit "g.zip"],
      ⟨[lit "sd", lit "Roms", lit "B"],
        [lit "sd", lit "Roms", lit "A"], ⟨true, false, 1, 4⟩,
        [lit "g.zip"]⟩,
      .file [lit "sd", lit "Roms", lit "A", lit "g.zip"] 5])
    (by decide +kernel)

/-- One system with these aliases and the extension `zip`. -/
def linkedConfig (aliases : List AliasDef) : ScanConfig where
  sdcardRoot := lit "/sd"
  plumosRoot := lit "/sd/p"
  systemFilter := none
  resolveThumbnails := false
  systems := [{
    id := lit "gg"
    displayName := lit "gg"
    shortName := lit "gg"
    sortOrder := 0
    enabled := true
    pinned := false
    scanDirectories := false
    aliases := aliases
    extensions := [lit "zip"]
    artwork := []
    defaultLaunchProfile := [] }]
  excludedDirectories := []

def missingAlias : AliasDef := ⟨lit "X", false, by decide⟩
def sharedAlias : AliasDef := ⟨lit "A", true, by decide⟩
def openAlias : AliasDef := ⟨lit "B", false, by decide⟩

theorem scanCorrect_iff_sample :
    ScanCorrect linkedDisk (linkedConfig [openAlias, sharedAlias]) := by
  have hopen : ∀ visit ∈ visits linkedDisk (linkedConfig [openAlias, sharedAlias]),
      visit.filterSharedArchives = false →
      visit ∈ visited linkedDisk [] (visits linkedDisk (linkedConfig [openAlias, sharedAlias])) ∧
        ∀ found ∈ visit.found linkedDisk (linkedConfig [openAlias, sharedAlias]),
          isListed linkedDisk visit.system visit.filterSharedArchives found = true := by
    decide +kernel
  refine (scanCorrect_iff (by decide)).mpr ?_
  intro visit hvisit hunfiltered found hfound _ _
  obtain ⟨hvisited, hlisted⟩ := hopen visit hvisit hunfiltered
  exact ⟨found, ⟨visit, hvisited, rfl, hfound, hlisted found hfound⟩, rfl⟩

/-- The archive is accepted under the alias `B`, and the list is empty. -/
theorem archive_hidden :
    ¬ScanCorrect linkedDisk (linkedConfig [missingAlias, sharedAlias, openAlias]) := by
  have hempty : (scanSystems linkedDisk (linkedConfig [missingAlias, sharedAlias, openAlias])).roms
      = [] := by
    decide +kernel
  have haccepted : ∃ visit ∈ visits linkedDisk
      (linkedConfig [missingAlias, sharedAlias, openAlias]), visit.systemIndex = 0 ∧
      ∃ found ∈ visit.found linkedDisk (linkedConfig [missingAlias, sharedAlias, openAlias]),
        isListed linkedDisk visit.system visit.filterSharedArchives found = true := by
    decide +kernel
  intro h
  obtain ⟨visit, hvisit, hindex, found, hfound, hlisted⟩ := haccepted
  have hone := (h.lists 0).complete found ⟨visit, hvisit, hindex, hfound, hlisted⟩
  rw [hempty] at hone
  simp at hone

end PlumosBubble.Frontend
