import PlumosBubble.Frontend.DirectoryOrder

/-! Where the index does not depend on the order of directories, the conditions under which it
does not are met: for each that is not, two orders are named in which different entries are
written. -/

namespace PlumosBubble.Frontend

open Sequence

section Orders

variable {disk disk₁ disk₂ : Disk} {config : ScanConfig}

/-- The rows of one system. -/
def systemRows (disk : Disk) (config : ScanConfig) (s : ℕ) : List LibraryRow :=
  ((((scanSystems disk config).roms.map RomEntry.place).mergeSort placeLe).filter fun place =>
    place.1 = s).map Prod.snd

theorem mem_systemRows {s : ℕ} {row : LibraryRow} : row ∈ systemRows disk config s ↔
    ∃ rom ∈ (scanSystems disk config).roms, rom.systemIndex = s ∧ rom.row = row := by
  unfold systemRows
  simp only [List.mem_map, List.mem_filter, List.mem_mergeSort, decide_eq_true_eq]
  constructor
  · rintro ⟨place, ⟨⟨rom, hrom, rfl⟩, hindex⟩, rfl⟩
    exact ⟨rom, hrom, hindex, rfl⟩
  · rintro ⟨rom, hrom, hindex, rfl⟩
    exact ⟨rom.place, ⟨⟨rom, hrom, rfl⟩, hindex⟩, rfl⟩

theorem systemRows_eq (hind : OrderIndependent disk config) (h₁ : Reordered disk disk₁)
    (h₂ : Reordered disk disk₂) {visit : Visit} (hvisit : visit ∈ visits disk config) :
    systemRows disk₁ config visit.systemIndex = systemRows disk₂ config visit.systemIndex := by
  have hrows := hind disk₁ disk₂ h₁ h₂
  rw [indexRows_eq, indexRows_eq] at hrows
  obtain ⟨hsystem, hselects, -⟩ := visit_of_mem_visits hvisit
  exact List.map_inj_left.mp hrows (visit.system, visit.systemIndex)
    (List.mem_filter.mpr ⟨hsystem, hselects⟩)

theorem exists_of_rom (h : Reordered disk disk₁) {rom : RomEntry}
    (hrom : rom ∈ (scanSystems disk₁ config).roms) :
    ∃ visit ∈ visits disk config, ∃ found ∈ visit.listed disk config,
      rom = visit.entry disk₁ config found := by
  rw [roms_eq_firsts] at hrom
  obtain ⟨visit, hvisit, found, hfound, rfl⟩ := mem_visitEntries (mem_of_mem_firsts hrom).1
  have hmem := (visited_sublist _ _).subset hvisit
  rw [h.visits] at hmem
  exact ⟨visit, hmem, found, (h.listed visit).mem_iff.mpr hfound, rfl⟩

theorem romKey_of_path (h₁ : Reordered disk disk₁) (h₂ : Reordered disk disk₂) {x y : RomEntry}
    (hx : x ∈ (scanSystems disk₁ config).roms) (hy : y ∈ (scanSystems disk₂ config).roms)
    (hindex : x.systemIndex = y.systemIndex) (hpath : x.path = y.path) :
    romKey x = romKey y := by
  obtain ⟨visit, -, found, hfound, rfl⟩ := exists_of_rom h₁ hx
  obtain ⟨visit', -, found', hfound', rfl⟩ := exists_of_rom h₂ hy
  have hcanonical : disk.canonicalPath found.path = disk.canonicalPath found'.path := by
    rw [← h₁.canonicalPath, ← h₂.canonicalPath]
    exact hpath
  have hid := fileId_of_path hfound hfound' hcanonical
  rw [entry_key, entry_key, h₁.fileId, h₂.fileId, hid]
  exact congrArg (·, fileId disk found') hindex

theorem eq_of_romKey {x y : RomEntry} (hx : x ∈ (scanSystems disk config).roms)
    (hy : y ∈ (scanSystems disk config).roms) (h : romKey x = romKey y) : x = y := by
  rw [roms_eq_firsts] at hx hy
  exact eq_of_mem_firsts hx hy h

theorem row_eq (hind : OrderIndependent disk config) (h₁ : Reordered disk disk₁)
    (h₂ : Reordered disk disk₂) {x y : RomEntry} (hx : x ∈ (scanSystems disk₁ config).roms)
    (hy : y ∈ (scanSystems disk₂ config).roms) (hkey : romKey x = romKey y) : x.row = y.row := by
  obtain ⟨visit, hvisit, found, -, rfl⟩ := exists_of_rom h₁ hx
  have hmem : (visit.entry disk₁ config found).row ∈ systemRows disk₁ config visit.systemIndex :=
    mem_systemRows.mpr ⟨_, hx, rfl, rfl⟩
  rw [systemRows_eq hind h₁ h₂ hvisit] at hmem
  obtain ⟨z, hz, hindex, hrow⟩ := mem_systemRows.mp hmem
  have hsame : romKey z = romKey (visit.entry disk₁ config found) :=
    romKey_of_path h₂ h₁ hz hx hindex (congrArg LibraryRow.path hrow)
  rw [← hrow, eq_of_romKey hz hy (hsame.trans hkey)]

theorem nodup_systemRows (s : ℕ) : (systemRows disk config s).Nodup := by
  have hroms : (scanSystems disk config).roms.Nodup := by
    apply List.Nodup.of_map romKey
    rw [roms_eq_firsts]
    exact nodup_firsts _
  have hplaces : ((scanSystems disk config).roms.map RomEntry.place).Nodup := by
    refine hroms.map_on fun x hx y hy hxy => ?_
    obtain ⟨hindex, hrow⟩ := Prod.mk.inj hxy
    exact eq_of_romKey hx hy (romKey_of_path (Reordered.refl disk) (Reordered.refl disk) hx hy
      hindex (congrArg LibraryRow.path hrow))
  unfold systemRows
  refine (((List.mergeSort_perm _ _).nodup_iff.mpr hplaces).filter _).map_on fun x hx y hy hxy => ?_
  have hx' := of_decide_eq_true (List.mem_filter.mp hx).2
  have hy' := of_decide_eq_true (List.mem_filter.mp hy).2
  exact Prod.ext (hx'.trans hy'.symm) hxy

theorem thumbnail_of_row {x y : RomEntry} (h : x.row = y.row) : x.thumbnail = y.thumbnail := by
  have hthumbnail := congrArg LibraryRow.thumbnail h
  simp only [RomEntry.row] at hthumbnail
  split_ifs at hthumbnail with hx hy
  · rw [hx, hy]
  · exact Option.some_inj.mp hthumbnail

variable {before after : List Visit} {visit : Visit}

theorem roms_split (h : Reordered disk disk₁)
    (hsplit : visited disk [] (visits disk config) = before ++ visit :: after) :
    ∃ front behind, (scanSystems disk₁ config).roms =
      front ++ (firsts romKey (((before.map (Visit.entries disk₁ config)).flatten).map romKey)
        (visit.entries disk₁ config) ++ behind) := by
  refine ⟨firsts romKey [] ((before.map (Visit.entries disk₁ config)).flatten),
    firsts romKey (((before.map (Visit.entries disk₁ config)).flatten).map romKey ++
      (visit.entries disk₁ config).map romKey)
      ((after.map (Visit.entries disk₁ config)).flatten), ?_⟩
  rw [roms_eq_firsts, visitEntries, h.visits, h.visited, hsplit, List.map_append, List.map_cons,
    List.flatten_append, List.flatten_cons, firsts_append, firsts_append, List.nil_append]

theorem Fresh.key (h : Reordered disk disk₁) {found : Found}
    (hfresh : Fresh disk config before visit found) :
    romKey (visit.entry disk₁ config found) ∉
      ((before.map (Visit.entries disk₁ config)).flatten).map romKey := by
  rw [h.mem_keys]
  have hkey := (fresh_iff hfresh.listed).mp hfresh
  rw [entry_key] at hkey ⊢
  rw [h.fileId]
  exact hkey

theorem exists_entry_of_listed (h : Reordered disk disk₁)
    (hsplit : visited disk [] (visits disk config) = before ++ visit :: after) {found : Found}
    (hfresh : Fresh disk config before visit found) {front behind : List Found}
    (hlisted : visit.listed disk₁ config = front ++ found :: behind) :
    ∃ other ∈ front ++ [found], fileId disk other = fileId disk found ∧
      visit.entry disk₁ config other ∈ (scanSystems disk₁ config).roms := by
  obtain ⟨first, last, hroms⟩ := roms_split h hsplit
  have hentries : visit.entries disk₁ config =
      (front ++ [found]).map (visit.entry disk₁ config) ++
        behind.map (visit.entry disk₁ config) := by
    rw [entries_eq, hlisted, ← List.map_append]
    simp
  have hmem : visit.entry disk₁ config found ∈ (front ++ [found]).map (visit.entry disk₁ config) :=
    List.mem_map_of_mem (by simp)
  obtain ⟨y, hy, hkey⟩ := exists_mem_firsts hmem (hfresh.key h)
  obtain ⟨other, hother, rfl⟩ := List.mem_map.mp (mem_of_mem_firsts hy).1
  rw [entry_key, entry_key, Prod.mk.injEq, h.fileId, h.fileId] at hkey
  refine ⟨other, hother, hkey.2, ?_⟩
  rw [hroms, hentries, firsts_append]
  simp only [List.mem_append]
  exact Or.inr (Or.inl (Or.inl hy))

theorem listed_split (h : Reordered disk disk₁) {found : Found}
    (hlisted : found ∈ visit.listed disk config) {front behind : List Found}
    (hfound : visit.found disk₁ config = front ++ found :: behind) :
    ∃ behind', visit.listed disk₁ config =
      front.filter (isListed disk₁ visit.system visit.filterSharedArchives) ++
        found :: behind' := by
  have hmem := (h.listed visit).mem_iff.mp hlisted
  refine ⟨behind.filter (isListed disk₁ visit.system visit.filterSharedArchives), ?_⟩
  unfold Visit.listed
  rw [hfound, List.filter_append, List.filter_cons_of_pos (List.mem_filter.mp hmem).2]

theorem listed_prefer {found : Found} (hlisted : found ∈ visit.listed disk config)
    {first : CString → List CString}
    (hfirst : ∀ path, ∃ rest, first path = nextName path found.path :: rest) :
    ∃ behind, visit.listed (disk.prefer first) config = found :: behind := by
  have h : Reordered disk (disk.prefer first) := reordered_prefer disk _
  obtain ⟨rest, hhead⟩ := head_reach_prefer hfirst (listed_found hlisted)
  have hfound : visit.found (disk.prefer first) config = [] ++ found :: rest := by
    unfold Visit.found
    rw [h.canonicalPath]
    exact hhead
  exact listed_split h hlisted hfound

theorem entry_mem_prefer
    (hsplit : visited disk [] (visits disk config) = before ++ visit :: after) {found : Found}
    (hfresh : Fresh disk config before visit found) {first : CString → List CString}
    (hfirst : ∀ path, ∃ rest, first path = nextName path found.path :: rest) :
    visit.entry (disk.prefer first) config found ∈
      (scanSystems (disk.prefer first) config).roms := by
  have h : Reordered disk (disk.prefer first) := reordered_prefer disk _
  obtain ⟨behind, hlisted⟩ := listed_prefer hfresh.listed hfirst
  have hnone : visit.listed (disk.prefer first) config = [] ++ found :: behind := hlisted
  obtain ⟨other, hother, -, hmem⟩ := exists_entry_of_listed h hsplit hfresh hnone
  rw [List.nil_append] at hother
  rw [← List.mem_singleton.mp hother]
  exact hmem

end Orders

section Stems

variable {disk : Disk} {config : ScanConfig}

theorem pathBasename_join {dirPath name path : CString} (hname : name ≠ []) (hslash : slash ∉ name)
    (hjoin : joinPath pathMax dirPath name = some path) : pathBasename path = name := by
  have hlast : ∀ before : CString, pathBasename (before ++ slash :: name) = name := by
    intro before
    unfold pathBasename
    rw [splitLast_eq_some.mpr ⟨rfl, hslash⟩]
  obtain ⟨rfl, -⟩ := separator_child hname hslash hjoin
  unfold separator
  split_ifs with hdir
  · have htext : dirPath ++ [slash] ++ name = dirPath ++ slash :: name := by simp
    rw [htext, hlast]
  · by_cases hnil : dirPath = []
    · unfold pathBasename
      rw [hnil, List.nil_append, List.nil_append, splitLast_eq_none.mpr hslash]
    · have hend : dirPath.getLast? = some slash := by
        by_contra hne
        exact hdir ⟨hnil, hne⟩
      obtain ⟨before, rfl⟩ := List.getLast?_eq_some_iff.mp hend
      have htext : before ++ [slash] ++ [] ++ name = before ++ slash :: name := by simp
      rw [htext, hlast]

theorem dot_of_extension {name : CString} (h : fileExtension name ≠ []) : dot ∈ name := by
  by_contra hdot
  unfold fileExtension at h
  rw [splitLast_eq_none.mpr hdot] at h
  exact h rfl

theorem beforeDot_append {name : CString} (h : dot ∈ name) (before : CString) :
    beforeDot (before ++ name) = before ++ beforeDot name := by
  cases hsplit : splitLast dot name with
  | none => exact absurd h (splitLast_eq_none.mp hsplit)
  | some parts =>
    obtain ⟨stem, extension⟩ := parts
    obtain ⟨rfl, hextension⟩ := splitLast_eq_some.mp hsplit
    have hwhole : splitLast dot (before ++ (stem ++ dot :: extension)) =
        some (before ++ stem, extension) :=
      splitLast_eq_some.mpr ⟨by simp, hextension⟩
    unfold beforeDot
    rw [hsplit, hwhole]

theorem copied_name {name : CString} (hlength : name.length ≤ 255) :
    copied 256 name = name ∧ copied pathMax name = name := by
  have hfits : ∀ size, 256 ≤ size → copied size name = name := by
    intro size hsize
    unfold copied copyString
    rw [if_pos (by omega), Option.getD_some]
  exact ⟨hfits 256 le_rfl, hfits pathMax (by decide)⟩

theorem relStem_eq {relDir name other rel rel' : CString} (hname : name.length ≤ 255)
    (hother : other.length ≤ 255) (hslash : slash ∉ name) (hslash' : slash ∉ other)
    (hdot : dot ∈ name) (hdot' : dot ∈ other) (hstem : beforeDot name = beforeDot other)
    (hrel : childRel relDir name = some rel) (hrel' : childRel relDir other = some rel') :
    stemFromRelativePath pathMax rel = stemFromRelativePath pathMax rel' := by
  have hbefore : ∀ {name rel : CString}, name.length ≤ 255 → slash ∉ name → dot ∈ name →
      childRel relDir name = some rel → beforeDot rel =
        (if relDir = [] then [] else relDir ++ separator relDir) ++ beforeDot name := by
    intro name rel hlength hslash hdot hrel
    unfold childRel at hrel
    split_ifs at hrel ⊢ with hnil
    · rw [(copied_name hlength).2] at hrel
      rw [← Option.some_inj.mp hrel, List.nil_append]
    · have hhead : name.head? ≠ some slash := fun h => hslash (List.mem_of_head? h)
      obtain ⟨rfl, -⟩ := (joinPath_relative hhead).mp hrel
      exact beforeDot_append hdot _
  unfold stemFromRelativePath
  rw [hbefore hname hslash hdot hrel, hbefore hother hslash' hdot' hrel', hstem]

theorem stemFromName_name {name : CString} (hslash : slash ∉ name) (hlength : name.length ≤ 255)
    (hdot : dot ∈ name) : stemFromName 256 (copied 256 name) = beforeDot name := by
  have hbase : pathBasename name = name := by
    unfold pathBasename
    rw [splitLast_eq_none.mpr hslash]
  have hshort : (beforeDot name).length ≤ 255 := by
    cases hsplit : splitLast dot name with
    | none => exact absurd hdot (splitLast_eq_none.mp hsplit)
    | some parts =>
      obtain ⟨rfl, -⟩ := splitLast_eq_some.mp hsplit
      unfold beforeDot
      rw [hsplit]
      simp at hlength ⊢
      omega
  unfold stemFromName
  rw [(copied_name hlength).1, hbase, List.take_of_length_le hshort]

theorem candidates_eq {visit : Visit} {found other : Found} {dirPath relDir name : CString}
    (hname : name ∈ disk.names dirPath) (hname' : other.name ∈ disk.names dirPath)
    (hlisted : found ∈ visit.listed disk config) (hlisted' : other ∈ visit.listed disk config)
    (hfile : ¬disk.isDirectory found.path = true) (hfile' : ¬disk.isDirectory other.path = true)
    (hfound : found.name = name) (hpath : joinPath pathMax dirPath name = some found.path)
    (hpath' : joinPath pathMax dirPath other.name = some other.path)
    (hrel : childRel relDir name = some found.relPath)
    (hrel' : childRel relDir other.name = some other.relPath)
    (htitle : (visit.entry disk config found).title = (visit.entry disk config other).title) :
    visit.candidates disk config found = visit.candidates disk config other := by
  have hext : ∀ {found : Found}, found ∈ visit.listed disk config →
      ¬disk.isDirectory found.path = true → dot ∈ found.name := by
    intro found hlisted hfile
    have hmatch := (List.mem_filter.mp hlisted).2
    simp only [isListed, scanExtMatches, systemExtMatches, Bool.or_eq_true, Bool.and_eq_true,
      decide_eq_true_eq] at hmatch
    exact dot_of_extension (hmatch.resolve_left hfile).2.1
  have hdot := hext hlisted hfile
  have hdot' := hext hlisted' hfile'
  rw [hfound] at hdot
  obtain ⟨hne, hslash, hlength⟩ := name_of_mem hname
  obtain ⟨hne', hslash', hlength'⟩ := name_of_mem hname'
  have hbase := pathBasename_join hne hslash hpath
  have hbase' := pathBasename_join hne' hslash' hpath'
  have hentry : ∀ found : Found, ¬disk.isDirectory found.path = true →
      (visit.entry disk config found).title =
        stemFromName 256 (copied 256 (pathBasename found.path)) := by
    intro found hfile
    show (if disk.isDirectory found.path = true then _ else _) = _
    rw [if_neg hfile]
  rw [hentry found hfile, hentry other hfile', hbase, hbase', stemFromName_name hslash hlength hdot,
    stemFromName_name hslash' hlength' hdot'] at htitle
  have hstems := relStem_eq hlength hlength' hslash hslash' hdot hdot' htitle hrel hrel'
  unfold Visit.candidates
  simp only [hfile, hfile', if_false, Bool.false_eq_true, hbase, hbase', hstems,
    stemFromName_name hslash hlength hdot, stemFromName_name hslash' hlength' hdot', htitle]

end Stems

section Images

variable {disk : Disk} {config : ScanConfig} {before after : List Visit} {visit : Visit}

theorem thumbnail_of_head {disk' : Disk} {found : Found} {parent base image name : CString}
    {front behind : List CString} (hresolve : config.resolveThumbnails = true)
    (hfind : (visit.candidates disk' config found).findSome?
      (disk'.findCaseInsensitiveFile pathMax) =
        (disk'.names parent).findSome? (disk.imageAt parent base))
    (hnames : disk'.names parent = front ++ name :: behind)
    (hfront : ∀ other ∈ front, disk.imageAt parent base other = none)
    (himage : disk.imageAt parent base name = some image) :
    (visit.entry disk' config found).thumbnail = image := by
  rw [entry_thumbnail, if_pos hresolve, hfind, hnames, List.findSome?_append,
    List.findSome?_eq_none_iff.mpr hfront, List.findSome?_cons, himage]
  rfl

theorem mem_reachChild_image {listDirectories : Bool} {descend : CString → CString → List Found}
    {parent base name image relDir : CString} {found : Found}
    (himage : disk.imageAt parent base name = some image)
    (hmem : found ∈ reachChild disk config listDirectories descend parent relDir name) :
    found.name = name ∧ joinPath pathMax parent name = some found.path ∧
      childRel relDir name = some found.relPath ∧ ¬disk.isDirectory found.path = true := by
  obtain ⟨hjoin, hregular⟩ := imageAt_some himage
  obtain ⟨-, childPath, childRel', hjoin', hrel, hcase⟩ := mem_reachChild.mp hmem
  obtain rfl : image = childPath := Option.some_inj.mp (hjoin.symm.trans hjoin')
  have hfile := Disk.not_isDirectory_of_isRegularFile hregular
  rcases hcase with ⟨hdir, -⟩ | ⟨-, -, rfl⟩
  · exact absurd hdir hfile
  · exact ⟨rfl, hjoin, hrel, hfile⟩

theorem exists_with_image_behind (hresolve : config.resolveThumbnails = true)
    (hsplit : visited disk [] (visits disk config) = before ++ visit :: after) {found : Found}
    (hfresh : Fresh disk config before visit found) {parent base name image : CString}
    (hfind : ∀ disk', Reordered disk disk' →
      (visit.candidates disk config found).findSome? (disk'.findCaseInsensitiveFile pathMax) =
        (disk'.names parent).findSome? (disk.imageAt parent base))
    (hname : name ∈ disk.names parent) (himage : disk.imageAt parent base name = some image)
    (hplain : nextName parent found.path ∈ disk.names parent →
      nextName parent found.path ≠ name →
        disk.imageAt parent base (nextName parent found.path) = none) :
    ∃ disk', Reordered disk disk' ∧ ∃ rom ∈ (scanSystems disk' config).roms,
      romKey rom = (visit.systemIndex, fileId disk found) ∧ rom.thumbnail = image := by
  let next := nextName parent found.path
  let first : CString → List CString := fun path =>
    nextName path found.path :: if path = parent then [name] else []
  have h : Reordered disk (disk.prefer first) := reordered_prefer disk first
  have hfirst : first parent = [next, name] := by simp [first, next]
  have hpull : pullAll [name] (disk.names parent) = name :: (disk.names parent).erase name :=
    pullAll_cons hname
  have hnames : ∃ front behind, (disk.prefer first).names parent = front ++ name :: behind ∧
      ∀ other ∈ front, disk.imageAt parent base other = none := by
    rw [names_prefer, hfirst]
    by_cases hnext : next ∈ disk.names parent
    · by_cases hsame : next = name
      · refine ⟨[], (pullAll [name] (disk.names parent)).erase next, ?_, by simp⟩
        rw [pullAll_cons hnext, hsame, List.nil_append]
      · refine ⟨[next], ((disk.names parent).erase name).erase next, ?_, ?_⟩
        · rw [pullAll_cons hnext, hpull, List.erase_cons_tail (by simpa using Ne.symm hsame),
            List.singleton_append]
        · simpa using hplain hnext hsame
    · refine ⟨[], (disk.names parent).erase name, ?_, by simp⟩
      have hskip : pullAll [next, name] (disk.names parent) =
          pullAll [name] (disk.names parent) :=
        if_neg fun hmem => hnext ((pullAll_perm [name] _).mem_iff.mp hmem)
      rw [hskip, hpull, List.nil_append]
  obtain ⟨front, behind, hnames, hfront⟩ := hnames
  refine ⟨_, h, _, entry_mem_prefer hsplit hfresh fun path => ⟨_, rfl⟩, ?_, ?_⟩
  · rw [entry_key, h.fileId]
  · refine thumbnail_of_head hresolve ?_ hnames hfront himage
    rw [h.candidates]
    exact hfind _ h

theorem exists_with_image_before (hind : OrderIndependent disk config)
    (hresolve : config.resolveThumbnails = true)
    (hsplit : visited disk [] (visits disk config) = before ++ visit :: after) {found : Found}
    (hfresh : Fresh disk config before visit found) {parent base name image image' : CString}
    (hfind : ∀ disk', Reordered disk disk' →
      (visit.candidates disk config found).findSome? (disk'.findCaseInsensitiveFile pathMax) =
        (disk'.names parent).findSome? (disk.imageAt parent base))
    (hname : name ∈ disk.names parent) (himage : disk.imageAt parent base name = some image)
    (hnext : nextName parent found.path ∈ disk.names parent)
    (hne : nextName parent found.path ≠ name)
    (himage' : disk.imageAt parent base (nextName parent found.path) = some image') :
    ∃ disk', Reordered disk disk' ∧ ∃ rom ∈ (scanSystems disk' config).roms,
      romKey rom = (visit.systemIndex, fileId disk found) ∧ rom.thumbnail = image := by
  let next := nextName parent found.path
  let extra : CString → List CString := fun path => if path = parent then [name] else []
  let first : CString → List CString := fun path => extra path ++ [nextName path found.path]
  have h : Reordered disk (disk.prefer first) := reordered_prefer disk first
  have hparent : (disk.prefer first).names parent =
      name :: next :: ((disk.names parent).erase next).erase name := by
    have hfirst : first parent = [name, next] := by simp [first, extra, next]
    have hpull : pullAll [next] (disk.names parent) = next :: (disk.names parent).erase next :=
      pullAll_cons hnext
    rw [names_prefer, hfirst, pullAll_cons hname, hpull,
      List.erase_cons_tail (by simpa using hne)]
  have hnames : ∀ path, nextName path found.path ∈ disk.names path →
      ∃ rest, (disk.prefer first).names path = extra path ++ nextName path found.path :: rest := by
    intro path hmem
    by_cases hpath : path = parent
    · subst hpath
      refine ⟨((disk.names path).erase next).erase name, ?_⟩
      rw [hparent]
      simp [extra, next]
    · have hfirst : first path = [nextName path found.path] := by simp [first, extra, hpath]
      have hextra : extra path = [] := if_neg hpath
      rw [names_prefer, hfirst, pullAll_cons hmem, hextra]
      exact ⟨_, rfl⟩
  have hextra : ∀ path, ∀ other ∈ extra path, path = parent ∧ other = name := by
    intro path other hother
    simp only [extra] at hother
    split_ifs at hother with hpath
    · exact ⟨hpath, List.mem_singleton.mp hother⟩
    · exact absurd hother List.not_mem_nil
  have hplain : ∀ {path}, joinPath pathMax parent name = some path →
      ¬disk.isDirectory path = true := by
    intro path hjoin
    obtain ⟨hjoin', hregular⟩ := imageAt_some himage
    rw [Option.some_inj.mp (hjoin.symm.trans hjoin')]
    exact Disk.not_isDirectory_of_isRegularFile hregular
  obtain ⟨front, behind, hreach, hfront⟩ := reach_toward h hnames
    (fun path other hother childPath hjoin => by
      obtain ⟨rfl, rfl⟩ := hextra path other hother
      exact hplain hjoin) (listed_found hfresh.listed)
  have hfound : visit.found (disk.prefer first) config = front ++ found :: behind := by
    unfold Visit.found
    rw [h.canonicalPath]
    exact hreach
  obtain ⟨behind', hlisted⟩ := listed_split h hfresh.listed hfound
  obtain ⟨other, hother, hid, hrom⟩ := exists_entry_of_listed h hsplit hfresh hlisted
  have hkey : romKey (visit.entry (disk.prefer first) config other) =
      (visit.systemIndex, fileId disk found) := by
    rw [entry_key, h.fileId, hid]
  refine ⟨_, h, _, hrom, hkey, thumbnail_of_head hresolve ?_
    (hparent.trans (List.nil_append _).symm) (by simp) himage⟩
  rw [h.candidates, ← hfind _ h]
  rcases List.mem_append.mp hother with hother | hother
  · -- the other name has the same row, so the same title and the same candidates
    obtain ⟨hbefore, -⟩ := List.mem_filter.mp hother
    obtain ⟨path, rel, fuel, hextra', hjoin, hrel, hmem⟩ := hfront other hbefore
    obtain ⟨rfl, hothername⟩ := hextra path other.name hextra'
    obtain ⟨hfoundname, hjoin', hrel', hfile⟩ := mem_reachChild_image himage' hmem
    have hlisted' : other ∈ visit.listed disk config := by
      refine (h.listed visit).mem_iff.mpr ?_
      rw [hlisted]
      exact List.mem_append_left _ hother
    have htoward : Reordered disk (disk.toward found.path) := reordered_toward disk _
    have hown : visit.entry (disk.toward found.path) config found ∈
        (scanSystems (disk.toward found.path) config).roms :=
      entry_mem_prefer hsplit hfresh fun path => ⟨[], rfl⟩
    have hrow := row_eq hind htoward h hown hrom (by rw [hkey, entry_key, htoward.fileId])
    have htitle := congrArg LibraryRow.title hrow
    unfold RomEntry.row at htitle
    dsimp only at htitle
    rw [htoward.entry, h.entry] at htitle
    rw [candidates_eq hnext (hothername ▸ hname) hfresh.listed hlisted' hfile
      (hplain (hothername ▸ hjoin)) hfoundname hjoin' hjoin hrel' hrel htitle]
  · rw [List.mem_singleton.mp hother]

theorem clear_of_independent (hind : OrderIndependent disk config)
    (hresolve : config.resolveThumbnails = true)
    (hsplit : visited disk [] (visits disk config) = before ++ visit :: after) {found : Found}
    (hfresh : Fresh disk config before visit found) :
    disk.Clear (visit.candidates disk config found) := by
  by_contra hclear
  obtain ⟨candidate, parent, -, ⟨a, b, x, y, ha, hb, hx, hy, hne⟩, hfind⟩ := exists_images hclear
  have hany : ∀ {name image}, name ∈ disk.names parent →
      disk.imageAt parent (pathBasename candidate) name = some image →
      ∃ disk', Reordered disk disk' ∧ ∃ rom ∈ (scanSystems disk' config).roms,
        romKey rom = (visit.systemIndex, fileId disk found) ∧ rom.thumbnail = image := by
    intro name image hname himage
    by_cases hplain : nextName parent found.path ∈ disk.names parent →
        nextName parent found.path ≠ name →
          disk.imageAt parent (pathBasename candidate) (nextName parent found.path) = none
    · exact exists_with_image_behind hresolve hsplit hfresh hfind hname himage hplain
    · push Not at hplain
      obtain ⟨hnext, hne, himage'⟩ := hplain
      obtain ⟨image', himage'⟩ := Option.ne_none_iff_exists'.mp himage'
      exact exists_with_image_before hind hresolve hsplit hfresh hfind hname himage hnext hne
        himage'
  obtain ⟨disk₁, h₁, rom₁, hrom₁, hkey₁, rfl⟩ := hany ha hx
  obtain ⟨disk₂, h₂, rom₂, hrom₂, hkey₂, rfl⟩ := hany hb hy
  exact hne (thumbnail_of_row (row_eq hind h₁ h₂ hrom₁ hrom₂ (hkey₁.trans hkey₂.symm)))

end Images

section Iff

variable {disk : Disk} {config : ScanConfig} {before after : List Visit} {visit : Visit}

theorem toward_entry_eq (hind : OrderIndependent disk config)
    (hsplit : visited disk [] (visits disk config) = before ++ visit :: after) {found : Found}
    (hfresh : Fresh disk config before visit found) :
    visit.entry (disk.toward found.path) config found = visit.entry disk config found :=
  (reordered_toward disk _).entry_eq fun hresolve =>
    clear_of_independent hind hresolve hsplit hfresh

theorem entry_mem_toward (hind : OrderIndependent disk config)
    (hsplit : visited disk [] (visits disk config) = before ++ visit :: after) {found : Found}
    (hfresh : Fresh disk config before visit found) :
    visit.entry disk config found ∈ (scanSystems (disk.toward found.path) config).roms := by
  rw [← toward_entry_eq hind hsplit hfresh]
  exact entry_mem_prefer hsplit hfresh fun path => ⟨[], rfl⟩

theorem names_of_independent (hind : OrderIndependent disk config)
    (hsplit : visited disk [] (visits disk config) = before ++ visit :: after)
    {found other : Found} (hfresh : Fresh disk config before visit found)
    (hfresh' : Fresh disk config before visit other)
    (hid : fileId disk found = fileId disk other) :
    (visit.entry disk config found).row = (visit.entry disk config other).row := by
  refine row_eq hind (reordered_toward disk _) (reordered_toward disk _)
    (entry_mem_toward hind hsplit hfresh) (entry_mem_toward hind hsplit hfresh') ?_
  rw [entry_key, entry_key, hid]

theorem pair_sublist_toward (hind : OrderIndependent disk config)
    (hsplit : visited disk [] (visits disk config) = before ++ visit :: after)
    {found other : Found} (hfresh : Fresh disk config before visit found)
    (hfresh' : Fresh disk config before visit other)
    (hid : fileId disk found ≠ fileId disk other)
    (htied : tied placeLe (visit.entry disk config found).place
      (visit.entry disk config other).place = true) :
    [(visit.entry disk config found).row, (visit.entry disk config other).row].Sublist
      (systemRows (disk.toward found.path) config visit.systemIndex) := by
  have h : Reordered disk (disk.toward found.path) := reordered_toward disk _
  obtain ⟨front, behind, hroms⟩ := roms_split h hsplit
  have hpreferred : ∃ last, visit.listed (disk.toward found.path) config = found :: last :=
    listed_prefer hfresh.listed fun path => ⟨[], rfl⟩
  obtain ⟨last, hlisted⟩ := hpreferred
  have hlast : other ∈ last := by
    have hmem := (h.listed visit).mem_iff.mp hfresh'.listed
    rw [hlisted] at hmem
    rcases List.mem_cons.mp hmem with rfl | hmem
    · exact absurd rfl hid
    · exact hmem
  have hfirst := @firsts_cons _ _ _ romKey _
    (last.map (visit.entry (disk.toward found.path) config)) _ (hfresh.key h)
  have hunseen : romKey (visit.entry (disk.toward found.path) config other) ∉
      romKey (visit.entry (disk.toward found.path) config found) ::
        ((before.map (Visit.entries (disk.toward found.path) config)).flatten).map romKey := by
    intro hmem
    rcases List.mem_cons.mp hmem with heq | hmem
    · rw [entry_key, entry_key, Prod.mk.injEq, h.fileId, h.fileId] at heq
      exact hid heq.2.symm
    · exact hfresh'.key h hmem
  obtain ⟨y, hy, hkey⟩ := exists_mem_firsts
    (List.mem_map_of_mem (f := visit.entry (disk.toward found.path) config) hlast) hunseen
  have hpair : [visit.entry disk config found, y].Sublist
      (scanSystems (disk.toward found.path) config).roms := by
    rw [hroms, entries_eq, hlisted, List.map_cons, hfirst, toward_entry_eq hind hsplit hfresh,
      List.cons_append]
    refine List.Sublist.trans ?_ (List.sublist_append_right _ _)
    exact (List.singleton_sublist.mpr (List.mem_append_left _ hy)).cons_cons _
  have hrow : y.row = (visit.entry disk config other).row := by
    refine row_eq hind h (reordered_toward disk _) (hpair.subset (by simp))
      (entry_mem_toward hind hsplit hfresh') ?_
    rw [hkey, entry_key, entry_key, h.fileId]
  have hplace : y.place = (visit.entry disk config other).place := by
    unfold RomEntry.place
    rw [hrow]
    exact congrArg (·, _) (congrArg Prod.fst hkey)
  have hplaces := hpair.map RomEntry.place
  rw [List.map_cons, List.map_singleton, hplace] at hplaces
  have hsorted := List.pair_sublist_mergeSort comparison_placeLe.trans comparison_placeLe.total
    (tied_iff.mp htied).1 hplaces
  have hsystem := (hsorted.filter fun place => place.1 = visit.systemIndex).map Prod.snd
  unfold systemRows
  simpa [RomEntry.place, Visit.entry, makeRomEntry] using hsystem

theorem titles_of_independent (hind : OrderIndependent disk config)
    (hsplit : visited disk [] (visits disk config) = before ++ visit :: after)
    {found other : Found} (hfresh : Fresh disk config before visit found)
    (hfresh' : Fresh disk config before visit other)
    (hid : fileId disk found ≠ fileId disk other) :
    ¬(equalCi (visit.entry disk config found).title (visit.entry disk config other).title = true ∧
      equalCi (visit.entry disk config found).relativePath
        (visit.entry disk config other).relativePath = true) := by
  rintro ⟨htitle, hrel⟩
  have htied : tied placeLe (visit.entry disk config found).place
      (visit.entry disk config other).place = true := tied_place.mpr ⟨rfl, htitle, hrel⟩
  have htied' : tied placeLe (visit.entry disk config other).place
      (visit.entry disk config found).place = true := (Bool.and_comm _ _).trans htied
  have hvisit : visit ∈ visits disk config := by
    have hmem : visit ∈ visited disk [] (visits disk config) := by
      rw [hsplit]
      simp
    exact (visited_sublist _ _).subset hmem
  have hpair := pair_sublist_toward hind hsplit hfresh hfresh' hid htied
  have hpair' := pair_sublist_toward hind hsplit hfresh' hfresh (Ne.symm hid) htied'
  rw [systemRows_eq hind (reordered_toward disk _) (reordered_toward disk _) hvisit] at hpair'
  have hne : (visit.entry disk config found).row ≠ (visit.entry disk config other).row := by
    intro hrow
    have hpath : disk.canonicalPath found.path = disk.canonicalPath other.path :=
      congrArg LibraryRow.path hrow
    exact hid (fileId_of_path hfresh.listed hfresh'.listed hpath)
  exact not_nodup_of_pairs hne hpair hpair' (nodup_systemRows _)

/-- The index does not depend on the order of directories exactly if no file has two names there
that differ in the index, no two entries are tied, and no search for an image is a choice. -/
theorem orderIndependent_iff (disk : Disk) (config : ScanConfig) :
    OrderIndependent disk config ↔ OrderFree disk config := by
  constructor
  · intro hind
    exact
      { names := fun _ _ _ hsplit _ _ hfresh hfresh' hid =>
          names_of_independent hind hsplit hfresh hfresh' hid
        titles := fun _ _ _ hsplit _ _ hfresh hfresh' hid =>
          titles_of_independent hind hsplit hfresh hfresh' hid
        images := fun hresolve _ _ _ hsplit _ hfresh =>
          clear_of_independent hind hresolve hsplit hfresh }
  · intro hfree disk₁ disk₂ h₁ h₂
    rw [hfree.rows h₁, hfree.rows h₂]

end Iff

/-- A directory `Roms/A` with one archive, and a link `b.zip` to it beside it. -/
def twoNamesDisk : Disk :=
  .ofRows
    (cardRows ++
      [.dir [lit "sd", lit "Roms", lit "A"] 4 [lit "a.zip", lit "b.zip"],
      .file [lit "sd", lit "Roms", lit "A", lit "a.zip"] 5,
      ⟨[lit "sd", lit "Roms", lit "A", lit "b.zip"],
        [lit "sd", lit "Roms", lit "A", lit "a.zip"], ⟨false, true, 1, 5⟩, []⟩])
    (by decide +kernel)

/-- The first name that `readdir` returns is the title of the game. -/
theorem order_of_names_matters : ¬OrderIndependent twoNamesDisk (linkedConfig [sharedAlias]) := by
  intro h
  let disk := twoNamesDisk.prefer fun _ => [lit "b.zip"]
  have hown : ((scanSystems twoNamesDisk (linkedConfig [sharedAlias])).roms.map RomEntry.place) =
      [(0, ⟨lit "a", lit "/sd/Roms/A/a.zip", lit "A/a.zip", lit "zip", none⟩)] := by
    decide +kernel
  have hother : ((scanSystems disk (linkedConfig [sharedAlias])).roms.map RomEntry.place) =
      [(0, ⟨lit "b", lit "/sd/Roms/A/a.zip", lit "A/b.zip", lit "zip", none⟩)] := by
    decide +kernel
  have hrows := h twoNamesDisk disk (Reordered.refl _) (reordered_prefer _ _)
  rw [indexRows_eq, indexRows_eq, hown, hother, List.mergeSort_singleton,
    List.mergeSort_singleton] at hrows
  revert hrows
  decide +kernel

end PlumosBubble.Frontend
