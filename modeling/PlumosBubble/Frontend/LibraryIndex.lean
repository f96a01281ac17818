import Mathlib.Data.List.Nodup
import Mathlib.Algebra.BigOperators.Group.List.Basic
import PlumosBubble.Frontend.Visits

/-! The index that `write_library_index` writes after the scan: per system the sorted
entries and their number, and the numbers of the whole scan. -/

namespace PlumosBubble.Frontend

/-- What `strcasecmp` compares: a string of lowered bytes comes first, or not. -/
def caseLe : CString → CString → Bool
  | [], _ => true
  | _ :: _, [] => false
  | x :: a, y :: b =>
    toLower x < toLower y || (toLower x = toLower y && caseLe a b)

/-- `cmp_rom_entries(a, b) <= 0`. -/
def romEntryLe (a b : RomEntry) : Bool :=
  if a.systemIndex ≠ b.systemIndex then a.systemIndex < b.systemIndex
  else if !equalCi a.title b.title then caseLe a.title b.title
  else caseLe a.relativePath b.relativePath

/-- An object of the `roms` array. -/
structure IndexRom where
  id : UInt64
  systemId : CString
  path : CString
  relativePath : CString
  fileName : CString
  title : CString
  extension : CString
  directoryAlias : CString
  thumbnail : Option CString
  deriving DecidableEq

/-- An object of the `systems` array. -/
structure IndexSystem where
  id : CString
  displayName : CString
  shortName : CString
  sortOrder : ℤ
  romCount : ℕ
  thumbnailCount : ℕ
  pinned : Bool
  defaultLaunchProfile : CString
  roms : List IndexRom
  deriving DecidableEq

/-- The document, without its times. -/
structure LibraryIndex where
  sdcardRoot : CString
  plumosRoot : CString
  systems : List IndexSystem
  systemCount : ℕ
  aliasDirsFound : ℕ
  filesSeen : ℕ
  directoriesExcluded : ℕ
  filesMatched : ℕ
  romCount : ℕ
  thumbnailCount : ℕ
  thumbnailLookupDeferred : Bool
  deriving DecidableEq

/-- `count_roms_for_system`. -/
def countRomsForSystem (st : ScanState) (systemIndex : ℕ) : ℕ :=
  st.roms.countP fun rom => rom.systemIndex = systemIndex

/-- `count_thumbnails_for_system`. -/
def countThumbnailsForSystem (st : ScanState) (systemIndex : ℕ) : ℕ :=
  st.roms.countP fun rom => rom.systemIndex = systemIndex && rom.thumbnail ≠ []

/-- An entry as it is written. -/
def indexRom (system : SystemDef) (rom : RomEntry) : IndexRom where
  id := rom.idHash
  systemId := system.id
  path := rom.path
  relativePath := rom.relativePath
  fileName := rom.fileName
  title := rom.title
  extension := rom.extension
  directoryAlias := rom.directoryAlias
  thumbnail := if rom.thumbnail = [] then none else some rom.thumbnail

/-- A system as it is written. -/
def indexSystem (st : ScanState) (systemIndex : ℕ) (system : SystemDef) : IndexSystem where
  id := system.id
  displayName := system.displayName
  shortName := system.shortName
  sortOrder := system.sortOrder
  romCount := countRomsForSystem st systemIndex
  thumbnailCount := countThumbnailsForSystem st systemIndex
  pinned := system.pinned
  defaultLaunchProfile := system.defaultLaunchProfile
  roms := (st.roms.filter fun rom => rom.systemIndex = systemIndex).map (indexRom system)

/-- `write_library_index`. -/
def writeLibraryIndex (config : ScanConfig) (st : ScanState) : LibraryIndex where
  sdcardRoot := config.sdcardRoot
  plumosRoot := config.plumosRoot
  systems := (config.systems.zipIdx.filter fun (system, _) => config.selects system).map
    fun (system, s) => indexSystem st s system
  systemCount := config.systems.length
  aliasDirsFound := st.aliasDirsFound
  filesSeen := st.filesSeen
  directoriesExcluded := st.directoriesExcluded
  filesMatched := st.filesMatched
  romCount := st.roms.length
  thumbnailCount := st.thumbnailsFound
  thumbnailLookupDeferred := !config.resolveThumbnails

/-- The scan and the index of `main`, with the entries sorted in between. -/
def libraryScan (disk : Disk) (config : ScanConfig) : LibraryIndex :=
  let st := scanSystems disk config
  writeLibraryIndex config { st with roms := st.roms.mergeSort romEntryLe }

section Counts

variable {α β : Type} [DecidableEq β]

theorem sum_indicator {values : List β} (hnodup : values.Nodup) {x : β} (hx : x ∈ values) :
    (values.map fun v => if x = v then 1 else 0).sum = 1 := by
  induction values with
  | nil => cases hx
  | cons v values ih =>
    obtain ⟨hv, hnodup⟩ := List.nodup_cons.mp hnodup
    rw [List.map_cons, List.sum_cons]
    by_cases hxv : x = v
    · subst hxv
      have hzero : ∀ n ∈ values.map fun v => if x = v then 1 else 0, n = 0 := by
        intro n hn
        obtain ⟨w, hw, rfl⟩ := List.mem_map.mp hn
        rw [if_neg]
        rintro rfl
        exact hv hw
      rw [if_pos rfl, List.sum_eq_zero hzero, Nat.add_zero]
    · rw [if_neg hxv, ih hnodup ((List.mem_cons.mp hx).resolve_left hxv)]

theorem sum_countP_eq_length (f : α → β) {values : List β} (hnodup : values.Nodup) {xs : List α}
    (hcover : ∀ x ∈ xs, f x ∈ values) :
    (values.map fun v => xs.countP fun x => f x = v).sum = xs.length := by
  induction xs with
  | nil => exact List.sum_eq_zero (by simp)
  | cons x xs ih =>
    have hone := sum_indicator hnodup (hcover x List.mem_cons_self)
    have hrest := ih fun y hy => hcover y (List.mem_cons_of_mem _ hy)
    simp only [List.countP_cons, decide_eq_true_eq, List.sum_map_add, hrest, hone,
      List.length_cons]

end Counts

/-- The `rom_count` of every system, and the total, count the entries that are written. -/
theorem libraryScan_counts (disk : Disk) (config : ScanConfig) :
    (∀ system ∈ (libraryScan disk config).systems, system.romCount = system.roms.length) ∧
      (libraryScan disk config).romCount =
        ((libraryScan disk config).systems.map fun system => system.roms.length).sum := by
  have hsystems : ∀ system ∈ (libraryScan disk config).systems,
      system.romCount = system.roms.length := by
    intro system hmem
    obtain ⟨⟨definition, s⟩, -, rfl⟩ := List.mem_map.mp hmem
    show List.countP _ _ = (List.map _ (List.filter _ _)).length
    rw [List.length_map, List.countP_eq_length_filter]
  refine ⟨hsystems, ?_⟩
  rw [← List.map_congr_left hsystems]
  have hperm := List.mergeSort_perm (scanSystems disk config).roms romEntryLe
  have hnodup : ((config.systems.zipIdx.filter fun (system, _) => config.selects system).map
      Prod.snd).Nodup := by
    refine (List.Sublist.map Prod.snd List.filter_sublist).nodup ?_
    rw [List.zipIdx_map_snd]
    exact List.nodup_range'
  have hcover : ∀ rom ∈ (scanSystems disk config).roms.mergeSort romEntryLe, rom.systemIndex ∈
      (config.systems.zipIdx.filter fun (system, _) => config.selects system).map Prod.snd := by
    intro rom hrom
    obtain ⟨visit, hvisit, found, -, -, rfl⟩ := exists_of_mem_roms (hperm.mem_iff.mp hrom)
    obtain ⟨hsystem, hselects, -⟩ := visit_of_mem_visits ((visited_sublist _ _).subset hvisit)
    exact List.mem_map_of_mem (List.mem_filter.mpr ⟨hsystem, hselects⟩)
  have hsum := sum_countP_eq_length RomEntry.systemIndex hnodup hcover
  rw [List.map_map] at hsum
  show (List.mergeSort _ _).length = (List.map _ (List.map _ _)).sum
  rw [List.map_map]
  exact hsum.symm

end PlumosBubble.Frontend
