import PlumosBubble.Frontend.Thumbnail

/-! The library scan of `plumos_library_scan.c`: for every system the directories its
aliases name under each ROM root, walked depth first, and the index that is written. -/

namespace PlumosBubble.Frontend

/-- `struct alias_def`, with a name that fits its buffer. -/
structure AliasDef where
  name : CString
  shared : Bool
  fits : name.length + 1 ≤ 64
  deriving DecidableEq

/-- The fields of `struct system_def` that the scan and the index use. -/
structure SystemDef where
  id : CString
  displayName : CString
  shortName : CString
  sortOrder : ℤ
  enabled : Bool
  pinned : Bool
  scanDirectories : Bool
  aliases : List AliasDef
  extensions : List CString
  artwork : List ArtworkLookup
  defaultLaunchProfile : CString
  deriving DecidableEq

/-- `struct rom_entry`; `identity` stands for `has_identity`, `device` and `inode`. -/
structure RomEntry where
  systemIndex : ℕ
  path : CString
  relativePath : CString
  fileName : CString
  title : CString
  extension : CString
  directoryAlias : CString
  thumbnail : CString
  idHash : UInt64
  identity : Option (ℕ × ℕ)
  deriving DecidableEq

/-- `struct scanned_dir`. -/
structure ScannedDir where
  systemIndex : ℕ
  path : CString
  identity : Option (ℕ × ℕ)
  deriving DecidableEq

/-- The part of `struct scan_ctx` that a scan only reads. -/
structure ScanConfig where
  sdcardRoot : CString
  plumosRoot : CString
  systemFilter : Option CString
  resolveThumbnails : Bool
  systems : List SystemDef
  excludedDirectories : List CString
  deriving DecidableEq

/-- The part of `struct scan_ctx` that a scan fills in. -/
structure ScanState where
  roms : List RomEntry
  scannedDirs : List ScannedDir
  aliasDirsFound : ℕ
  filesSeen : ℕ
  filesMatched : ℕ
  thumbnailsFound : ℕ
  directoriesExcluded : ℕ
  deriving DecidableEq

/-- A `struct scan_ctx` after `memset`. -/
def ScanState.start : ScanState := ⟨[], [], 0, 0, 0, 0, 0⟩

/-- `MAX_SCANNED_DIRS`. -/
def maxScannedDirs : ℕ := 1024

/-- `fnv1a64_update`. -/
def fnv1a64Update (hash : UInt64) (s : CString) : UInt64 :=
  s.foldl (fun hash c => (hash ^^^ c.toUInt64) * 1099511628211) hash

/-- `rom_id_hash`. -/
def romIdHash (systemId path : CString) : UInt64 :=
  fnv1a64Update ((fnv1a64Update 1469598103934665603 systemId ^^^ 0xff) * 1099511628211) path

/-- `archive_extension_is_ambiguous`. -/
def archiveExtensionIsAmbiguous (ext : CString) : Bool :=
  equalCi ext (lit "zip") || equalCi ext (lit "7z")

/-- `system_ext_matches`. -/
def systemExtMatches (system : SystemDef) (ext : CString) : Bool :=
  ext ≠ [] && lowerString (copied 24 ext) ∈ system.extensions

/-- `scan_ext_matches`. -/
def scanExtMatches (system : SystemDef) (ext : CString) (filterSharedArchives : Bool) : Bool :=
  !(filterSharedArchives && archiveExtensionIsAmbiguous ext) && systemExtMatches system ext

/-- `scan_directory_is_excluded`. -/
def ScanConfig.directoryIsExcluded (config : ScanConfig) (name : CString) : Bool :=
  config.excludedDirectories.any fun excluded => equalCi excluded name

/-- `rom_already_seen`. -/
def romAlreadySeen (roms : List RomEntry) (systemIndex : ℕ) (path : CString)
    (identity : Option (ℕ × ℕ)) : Bool :=
  roms.any fun rom => rom.systemIndex = systemIndex &&
    ((identity.isSome && rom.identity = identity) || rom.path = path)

/-- `scanned_dir_already_seen`. -/
def scannedDirAlreadySeen (dirs : List ScannedDir) (systemIndex : ℕ) (path : CString)
    (identity : Option (ℕ × ℕ)) : Bool :=
  dirs.any fun dir => dir.systemIndex = systemIndex &&
    ((identity.isSome && dir.identity = identity) || dir.path = path)

/-- `remember_scanned_dir`. -/
def rememberScannedDir (dirs : List ScannedDir) (dir : ScannedDir) : List ScannedDir :=
  if maxScannedDirs ≤ dirs.length then dirs else dirs ++ [dir]

section Scan

variable (disk : Disk) (config : ScanConfig)

/-- The thumbnail `add_rom_entry` looks for. -/
def romThumbnail (system : SystemDef) (aliasName absPath relPath : CString) : Option CString :=
  let isDirEntry := disk.isDirectory absPath
  let fileName := copied 256 (pathBasename absPath)
  let relStem := if isDirEntry then copied pathMax relPath else stemFromRelativePath pathMax relPath
  let flatStem := if isDirEntry then copied 256 fileName else stemFromName 256 fileName
  findThumbnail disk config.plumosRoot config.sdcardRoot system.artwork aliasName relStem flatStem

/-- The entry `add_rom_entry` builds. -/
def makeRomEntry (systemIndex : ℕ) (system : SystemDef) (aliasName absPath relPath : CString) :
    RomEntry :=
  let isDirEntry := disk.isDirectory absPath
  let fileName := copied 256 (pathBasename absPath)
  { systemIndex
    path := disk.canonicalPath absPath
    relativePath :=
      appended pathMax (appended pathMax (appended pathMax [] aliasName) [slash]) relPath
    fileName
    title := if isDirEntry then copied 256 fileName else stemFromName 256 fileName
    extension :=
      if isDirEntry then lit "dir" else lowerString (copied 24 (fileExtension fileName))
    directoryAlias := copied 64 aliasName
    thumbnail :=
      if config.resolveThumbnails then
        (romThumbnail disk config system aliasName absPath relPath).getD []
      else []
    idHash := romIdHash system.id (disk.canonicalPath absPath)
    identity := (disk.stat absPath).map Stat.identity }

/-- `add_rom_entry`. -/
def addRomEntry (systemIndex : ℕ) (system : SystemDef) (aliasName absPath relPath : CString)
    (st : ScanState) : ScanState :=
  let entry := makeRomEntry disk config systemIndex system aliasName absPath relPath
  if romAlreadySeen st.roms systemIndex entry.path entry.identity then st
  else
    { st with
      roms := st.roms ++ [entry]
      thumbnailsFound := st.thumbnailsFound + if entry.thumbnail = [] then 0 else 1 }

/-- The path of a directory entry relative to the directory of the alias. -/
def childRel (relDir name : CString) : Option CString :=
  if relDir = [] then some (copied pathMax name) else joinPath pathMax relDir name

/-- What `scan_dir_recursive` does with one name, where `descend` scans a directory. -/
def scanChild (descend : (dirPath relDir : CString) → ScanState → ScanState) (systemIndex : ℕ)
    (system : SystemDef) (aliasName : CString) (filterSharedArchives : Bool)
    (dirPath relDir : CString) (st : ScanState) (name : CString) : ScanState :=
  if isHidden name then st
  else
    match joinPath pathMax dirPath name, childRel relDir name with
    | some childPath, some childRel =>
      if disk.isDirectory childPath then
        if config.directoryIsExcluded name then
          { st with directoriesExcluded := st.directoriesExcluded + 1 }
        else if system.scanDirectories && relDir = [] then
          addRomEntry disk config systemIndex system aliasName childPath childRel st
        else descend childPath childRel st
      else if !disk.isRegularFile childPath then st
      else
        let st := { st with filesSeen := st.filesSeen + 1 }
        if !scanExtMatches system (fileExtension name) filterSharedArchives then st
        else
          addRomEntry disk config systemIndex system aliasName childPath childRel
            { st with filesMatched := st.filesMatched + 1 }
    | _, _ => st

/-- `scan_dir_recursive`. Each level of the recursion makes the path longer, so `PATH_MAX`
levels are enough. -/
def scanDirRecursive (systemIndex : ℕ) (system : SystemDef) (aliasName : CString)
    (filterSharedArchives : Bool) :
    ℕ → (dirPath relDir : CString) → ScanState → ScanState
  | 0, _, _, st => st
  | fuel + 1, dirPath, relDir, st =>
    ((disk.readdir dirPath).getD []).foldl
      (scanChild disk config
        (scanDirRecursive systemIndex system aliasName filterSharedArchives fuel)
        systemIndex system aliasName filterSharedArchives dirPath relDir) st

/-- `scan_alias_dir`. -/
def scanAliasDir (systemIndex : ℕ) (system : SystemDef) (romRoot : CString) (aliasDef : AliasDef)
    (filterSharedArchives : Bool) (st : ScanState) : ScanState :=
  if aliasDef.name = [] then st
  else
    match joinPath pathMax romRoot aliasDef.name with
    | none => st
    | some aliasPath =>
      if !disk.isDirectory aliasPath then st
      else
        let identity := (disk.stat aliasPath).map Stat.identity
        let canonical := disk.canonicalPath aliasPath
        if scannedDirAlreadySeen st.scannedDirs systemIndex canonical identity then st
        else
          scanDirRecursive disk config systemIndex system aliasDef.name filterSharedArchives
            pathMax canonical []
            { st with
              scannedDirs := rememberScannedDir st.scannedDirs ⟨systemIndex, canonical, identity⟩
              aliasDirsFound := st.aliasDirsFound + 1 }

/-- `rom_root_names`. -/
def romRootNames : List CString := [lit "Roms", lit "roms", []]

/-- The systems that a scan and its index cover. -/
def ScanConfig.selects (system : SystemDef) : Bool :=
  system.enabled && (config.systemFilter.all fun id => id = system.id)

/-- The loops of `scan_systems` over the ROM roots and the aliases of one system. -/
def scanSystem (systemIndex : ℕ) (system : SystemDef) (st : ScanState) : ScanState :=
  if !config.selects system then st
  else
    romRootNames.foldl (fun st rootName =>
      match joinPath pathMax config.sdcardRoot rootName with
      | none => st
      | some romRoot =>
        system.aliases.zipIdx.foldl (fun st (aliasDef, a) =>
          scanAliasDir disk config systemIndex system romRoot aliasDef (0 < a && aliasDef.shared)
            st) st) st

/-- `scan_systems`. -/
def scanSystems : ScanState :=
  config.systems.zipIdx.foldl (fun st (system, s) => scanSystem disk config s system st) .start

end Scan

end PlumosBubble.Frontend
