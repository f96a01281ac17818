import PlumosBubble.Sequence.FirstHit
import PlumosBubble.Frontend.RomPath

/-! Artwork of a cartridge: `ggfe_resolve_art` of `plumos_ggfe_art.h`, and how it compares
with `find_thumbnail` of the stock frontend. -/

namespace PlumosBubble.Ggfe

open Frontend Sequence

/-- `enum ggfe_art_kind`. -/
inductive ArtKind where
  | unknown
  | title
  | boxart
  deriving DecidableEq

/-- `struct ggfe_art_source`. -/
structure ArtSource where
  kind : CString
  root : CString
  path : CString
  deriving DecidableEq

/-- The fields of `struct ggfe_config` that the artwork search reads. -/
structure ArtConfig where
  exts : List CString
  prefer : List CString
  sources : List ArtSource
  lookups : List ArtSource
  usePlumosLookup : Bool
  deriving DecidableEq

/-- The roots of `struct ggfe_roots` that the artwork search reads. -/
structure ArtRoots where
  sdcard : CString
  plumos : CString
  deriving DecidableEq

/-- What `ggfe_resolve_art` returns for a hit. -/
structure ArtHit where
  path : CString
  kind : ArtKind
  rule : CString
  deriving DecidableEq

def plumosRootName : CString := lit "plumos"
def sdcardRootName : CString := lit "sdcard"

/-- `ggfe_resolve_root`, into a buffer of `PATH_MAX` bytes. -/
def resolveRoot (roots : ArtRoots) (root path : CString) : Option CString :=
  if path.head? = some slash then copyString pathMax path
  else if root = plumosRootName then joinPath pathMax roots.plumos path
  else joinPath pathMax roots.sdcard path

section Search

variable (disk : Disk) (config : ArtConfig) (roots : ArtRoots)

/-- `ggfe_find_in_dir`, into a buffer of `PATH_MAX` bytes. -/
def findInDir (artDir relativeStem flatStem : CString) : Option CString :=
  if !disk.isDirectory artDir then none
  else
    [relativeStem, flatStem].findSome? fun stem =>
      if stem = [] then none else findImage disk config.exts artDir stem

/-- The search of one `ggfe_art_source`. -/
def findInSource (source : ArtSource) (relativeStem flatStem : CString) : Option CString :=
  (resolveRoot roots source.root source.path).bind fun artDir =>
    findInDir disk config artDir relativeStem flatStem

/-- The rule text, as `snprintf` writes it into a buffer of 160 bytes. -/
def ruleText (scheme path : CString) : CString := (scheme ++ path).take 159

/-- The stem of a path, without what follows the last dot of its last component. -/
def relStem (romRel : CString) : CString :=
  match splitLast dot romRel with
  | some (stem, ext) => if slash ∈ ext then romRel else stem
  | none => romRel

/-- The GGFE sources in the order of the preference; those of other kinds come last. -/
def preferredSources : List ArtSource :=
  config.prefer.flatMap (fun want => config.sources.filter fun source => source.kind = want) ++
    config.sources.filter fun source => source.kind ∉ config.prefer

/-- `ggfe_resolve_art`. -/
def resolveArt (romRel aliasDir : CString) : Option ArtHit :=
  let relStem := relStem (copied pathMax romRel)
  let flatStem := copied 256 (pathBasename relStem)
  let ggfe := (preferredSources config).findSome? fun source =>
    (findInSource disk config roots source relStem flatStem).map fun path =>
      { path
        kind := if source.kind = lit "title" then .title else .boxart
        rule := ruleText (lit "ggfe:") source.path : ArtHit }
  let aliasHit := (aliasArtDir roots.sdcard aliasDir).bind fun artDir =>
    (findInDir disk config artDir relStem flatStem).map fun path =>
      { path
        kind := .unknown
        rule := ruleText
          (lit "plumos:Images/") aliasDir :
        ArtHit }
  let lookupHit := config.lookups.findSome? fun source =>
    (findInSource disk config roots source relStem flatStem).map fun path =>
      { path
        kind := .unknown
        rule := ruleText (lit "plumos:") source.path : ArtHit }
  ggfe.or (if config.usePlumosLookup then aliasHit.or lookupHit else none)

end Search

section Stems

variable {disk : Disk} {config : ScanConfig}

/-- Where a walk found a file: behind a slash, or at the top, under a name that is not
hidden. -/
structure Located (path rel name : CString) : Prop where
  path_eq : ∃ dir, path = dir ++ separator dir ++ name
  rel_eq : ∃ dir, rel = dir ++ separator dir ++ name
  slash_notMem : slash ∉ name
  length_le : name.length ≤ 255
  visible : ¬isHidden name = true
  rel_fits : rel.length + 1 ≤ pathMax
  plain : PlainRel rel

theorem childRel_eq {relDir name childRel' : CString} (hslash : slash ∉ name)
    (hlength : name.length ≤ 255) (h : childRel relDir name = some childRel') :
    childRel' = relDir ++ separator relDir ++ name ∧ childRel'.length + 1 ≤ pathMax := by
  unfold childRel at h
  split_ifs at h with hnil
  · have hfits : name.length + 1 ≤ pathMax := by
      show name.length + 1 ≤ 4096
      omega
    simp only [copied, copyString, if_pos hfits, Option.getD_some, Option.some.injEq] at h
    subst h hnil
    exact ⟨rfl, hfits⟩
  · have hhead : name.head? ≠ some slash := fun hhead => hslash (List.mem_of_head? hhead)
    obtain ⟨rfl, hfits⟩ := (joinPath_relative hhead).mp h
    exact ⟨rfl, hfits⟩

theorem located_of_mem_found {visit : Visit} {found : Found}
    (h : found ∈ visit.found disk config) : Located found.path found.relPath found.name :=
  reach_invariant (I := fun _ relDir => relDir = [] ∨ PlainRel relDir) (J := Located)
    (fun {dirPath relDir _ _ _ _} hI hnames hname hhidden hjoin hrel =>
      have ⟨hne, hslash, hlength⟩ := disk.readdir_name _ _ _ hnames hname
      have hhead := fun hhead => hslash (List.mem_of_head? hhead)
      have ⟨hrel', hfits⟩ := childRel_eq hslash hlength hrel
      { path_eq := ⟨dirPath, ((joinPath_relative hhead).mp hjoin).1⟩
        rel_eq := ⟨relDir, hrel'⟩
        slash_notMem := hslash
        length_le := hlength
        visible := hhidden
        rel_fits := hfits
        plain := plainRel_childRel hI (plainRel_name hne hslash hhidden) hslash hlength hrel })
    (fun h => Or.inr h.plain) (Or.inl rfl) h

theorem pathBasename_join {dir name : CString} (h : slash ∉ name) :
    pathBasename (dir ++ separator dir ++ name) = name := by
  have hbehind : ∀ before, pathBasename (before ++ slash :: name) = name := by
    intro before
    rw [pathBasename, splitLast_eq_some.mpr ⟨rfl, h⟩]
  unfold separator
  split_ifs with hsep
  · rw [List.append_assoc, List.singleton_append, hbehind]
  · rw [List.append_nil]
    by_cases hnil : dir = []
    · rw [hnil, List.nil_append, pathBasename, splitLast_eq_none.mpr h]
    · have hlast : dir.getLast? = some slash := by
        by_contra hne
        exact hsep ⟨hnil, hne⟩
      obtain ⟨p, rfl⟩ := List.getLast?_eq_some_iff.mp hlast
      rw [List.append_assoc, List.singleton_append, hbehind]

theorem stems_of_located {path rel name : CString} (h : Located path rel name)
    (hext : fileExtension name ≠ []) :
    ∃ relative flat, relative ≠ [] ∧ flat ≠ [] ∧ relative.head? ≠ some slash ∧
      slash ∉ flat ∧
      relStem (copied pathMax rel) = relative ∧
      copied 256 (pathBasename relative) = flat ∧
      stemFromRelativePath pathMax rel = relative ∧
      stemFromName 256 (copied 256 (pathBasename path)) = flat := by
  obtain ⟨⟨dir, hpath⟩, ⟨relDir, hrel⟩, hslash, hlength, hvisible, hfits, hplain⟩ := h
  cases hsplit : splitLast dot name with
  | none => simp [fileExtension, hsplit] at hext
  | some parts =>
    obtain ⟨stem, ext⟩ := parts
    obtain ⟨hname, hdot⟩ := splitLast_eq_some.mp hsplit
    have hslashExt : slash ∉ ext := fun hmem => hslash (by simp [hname, hmem])
    have hslashStem : slash ∉ stem := fun hmem => hslash (by simp [hname, hmem])
    have hstem : stem ≠ [] := by
      rintro rfl
      apply hvisible
      simp [isHidden, hname]
    have hrelSplit : splitLast dot rel = some (relDir ++ separator relDir ++ stem, ext) := by
      apply splitLast_eq_some.mpr
      refine ⟨?_, hdot⟩
      rw [hrel, hname]
      simp only [List.append_assoc]
    have hlengthStem : stem.length ≤ 255 := by
      rw [hname, List.length_append] at hlength
      omega
    have hlengthRel : (relDir ++ separator relDir ++ stem).length ≤ rel.length := by
      rw [hrel, hname]
      simp only [List.length_append]
      omega
    refine ⟨relDir ++ separator relDir ++ stem, stem, by simp [hstem], hstem, ?_, hslashStem,
      ?_, ?_, ?_, ?_⟩
    · have hhead := hplain.head
      rw [(splitLast_eq_some.mp hrelSplit).1, List.head?_append_of_ne_nil _ (by simp [hstem])]
        at hhead
      exact hhead
    · rw [copied, copyString, if_pos hfits, Option.getD_some, relStem, hrelSplit]
      exact if_neg hslashExt
    · rw [pathBasename_join hslashStem, copied, copyString, if_pos (by omega), Option.getD_some]
    · rw [stemFromRelativePath, beforeDot, hrelSplit]
      apply List.take_of_length_le
      show (relDir ++ separator relDir ++ stem).length ≤ pathMax - 1
      omega
    · rw [hpath, pathBasename_join hslash, copied, copyString, if_pos (by omega),
        Option.getD_some, stemFromName]
      have hbase : pathBasename name = name := by
        rw [pathBasename, splitLast_eq_none.mpr hslash]
      rw [hbase, beforeDot, hsplit]
      exact List.take_of_length_le hlengthStem

end Stems

section Directories

variable {disk : Disk}

theorem pathParent_split {size : ℕ} {path before after parent : CString}
    (hsplit : path = before ++ slash :: after) (hafter : slash ∉ after)
    (h : pathParent size path = some parent) :
    (before = [] ∧ parent = [slash]) ∨ (before ≠ [] ∧ parent = before) := by
  unfold pathParent at h
  rw [splitLast_eq_some.mpr ⟨hsplit, hafter⟩] at h
  cases before with
  | nil => exact Or.inl ⟨rfl, (copyString_eq_some.mp h).1⟩
  | cons c before => exact Or.inr ⟨List.cons_ne_nil _ _, (copyString_eq_some.mp h).1⟩

theorem isDirectory_parent {parent rest : CString} (hparent : parent ≠ []) (hrest : rest ≠ [])
    (h : disk.isDirectory (parent ++ separator parent ++ rest) = true) :
    disk.isDirectory parent = true := by
  obtain ⟨st, hst, -⟩ := Disk.isDirectory_iff.mp h
  exact Disk.isDirectory_iff.mpr (disk.stat_parent parent rest st hparent hrest hst)

theorem isDirectory_of_pathParent {artDir name parent : CString} (hne : artDir ≠ [])
    (hhead : name.head? ≠ some slash)
    (hparent : pathParent pathMax (artDir ++ separator artDir ++ name) = some parent)
    (h : disk.isDirectory parent = true) : disk.isDirectory artDir = true := by
  cases hsplit : splitLast slash name with
  | some parts =>
    obtain ⟨sub, last⟩ := parts
    obtain ⟨hname, hlast⟩ := splitLast_eq_some.mp hsplit
    have hsub : sub ≠ [] := by
      rintro rfl
      simp [hname] at hhead
    have hpath : artDir ++ separator artDir ++ name =
        artDir ++ separator artDir ++ sub ++ slash :: last := by
      simp only [hname, List.append_assoc]
    obtain ⟨hnil, -⟩ | ⟨-, rfl⟩ := pathParent_split hpath hlast hparent
    · simp [hsub] at hnil
    · exact isDirectory_parent hne hsub h
  | none =>
    have hslash := splitLast_eq_none.mp hsplit
    unfold separator at hparent
    split_ifs at hparent with hsep
    · rw [List.append_assoc, List.singleton_append] at hparent
      obtain ⟨hnil, -⟩ | ⟨-, rfl⟩ := pathParent_split rfl hslash hparent
      · exact absurd hnil hne
      · exact h
    · have hlast : artDir.getLast? = some slash := by
        by_contra hnot
        exact hsep ⟨hne, hnot⟩
      obtain ⟨p, rfl⟩ := List.getLast?_eq_some_iff.mp hlast
      have hpath : p ++ [slash] ++ [] ++ name = p ++ slash :: name := by simp
      obtain ⟨rfl, rfl⟩ | ⟨-, rfl⟩ := pathParent_split hpath hslash hparent
      · exact h
      · obtain ⟨st, hst, hdir⟩ := Disk.isDirectory_iff.mp h
        exact Disk.isDirectory_iff.mpr ⟨st, disk.stat_trailing _ st hst hdir, hdir⟩

theorem findImage_eq_none {exts : List CString} {artDir stem : CString} (hne : artDir ≠ [])
    (hdir : ¬disk.isDirectory artDir = true) (hstem : stem ≠ [])
    (hhead : stem.head? ≠ some slash) : findImage disk exts artDir stem = none := by
  unfold findImage
  rw [List.findSome?_eq_none_iff]
  intro ext _
  cases hname : buildStemExtName pathMax stem ext with
  | none => rfl
  | some name =>
    obtain ⟨rfl, -⟩ := copyString_eq_some.mp hname
    have hhead' : (stem ++ dot :: ext).head? ≠ some slash := by
      rwa [List.head?_append_of_ne_nil _ hstem]
    show ((joinPath pathMax artDir (stem ++ dot :: ext)).bind fun stemPath =>
      disk.findCaseInsensitiveFile pathMax stemPath) = none
    cases hjoin : joinPath pathMax artDir (stem ++ dot :: ext) with
    | none => rfl
    | some candidate =>
      obtain ⟨rfl, -⟩ := (joinPath_relative hhead').mp hjoin
      have hregular : ¬disk.isRegularFile (artDir ++ separator artDir ++ (stem ++ dot :: ext)) = true := by
        intro hregular
        obtain ⟨st, hst, -⟩ := Disk.isRegularFile_iff.mp hregular
        exact hdir (Disk.isDirectory_iff.mpr (disk.stat_parent _ _ st hne (by simp) hst))
      rw [Option.bind_some, Disk.findCaseInsensitiveFile, if_neg hregular]
      cases hparent : pathParent pathMax (artDir ++ separator artDir ++ (stem ++ dot :: ext)) with
      | none => rfl
      | some parent =>
        cases hnames : disk.readdir parent with
        | none => simp [hnames]
        | some names =>
          exact absurd (isDirectory_of_pathParent hne hhead' hparent
            (Disk.isDirectory_iff.mpr (disk.readdir_dir _ _ hnames))) hdir

theorem findInDir_eq {config : ArtConfig} (hexts : config.exts = imageExts)
    {artDir relative flat : CString} (hne : artDir ≠ []) (hrelative : relative ≠ [])
    (hhead : relative.head? ≠ some slash) (hflat : flat ≠ []) (hslash : slash ∉ flat) :
    findInDir disk config artDir relative flat = findThumbnailInDir disk artDir relative flat := by
  have hflatHead : flat.head? ≠ some slash := fun h => hslash (List.mem_of_head? h)
  unfold findInDir findThumbnailInDir
  by_cases hdir : disk.isDirectory artDir = true
  · rw [if_neg (by simp [hdir]), hexts]
    cases himage : findImage disk imageExts artDir relative with
    | none =>
      cases himage' : findImage disk imageExts artDir flat <;>
        simp [hrelative, hflat, himage, himage']
    | some path => simp [hrelative, himage]
  · rw [if_pos (by simpa using hdir), findImage_eq_none hne hdir hrelative hhead,
      findImage_eq_none hne hdir hflat hflatHead]
    rfl

theorem joinPath_ne_nil {size : ℕ} {a b out : CString} (h : joinPath size a b = some out)
    (hne : a ≠ []) : out ≠ [] := by
  unfold joinPath at h
  split_ifs at h with habsolute
  · obtain ⟨rfl, -⟩ := copyString_eq_some.mp h
    rintro rfl
    simp at habsolute
  · obtain ⟨rfl, -⟩ := copyString_eq_some.mp h
    simp [hne]

end Directories

/-- The lookup as the stock frontend has it. -/
def ArtSource.lookup (source : ArtSource) : ArtworkLookup := ⟨source.root, source.path⟩

/-- A relative path under a root that the stock frontend does not know. -/
def ArtSource.Stray (source : ArtSource) : Prop :=
  source.path.head? ≠ some slash ∧ source.root ≠ plumosRootName ∧ source.root ≠ sdcardRootName

instance (source : ArtSource) : Decidable source.Stray := inferInstanceAs (Decidable (_ ∧ _ ∧ _))

theorem resolveArtworkDir_eq (roots : ArtRoots) (source : ArtSource) :
    resolveArtworkDir roots.plumos roots.sdcard source.lookup =
      if source.Stray then none else resolveRoot roots source.root source.path := by
  unfold resolveArtworkDir resolveRoot ArtSource.Stray ArtSource.lookup plumosRootName
    sdcardRootName
  dsimp only
  split_ifs <;> first | rfl | tauto

theorem resolveRoot_ne_nil {roots : ArtRoots} (hsdcard : roots.sdcard ≠ [])
    (hplumos : roots.plumos ≠ []) {root path out : CString}
    (h : resolveRoot roots root path = some out) : out ≠ [] := by
  unfold resolveRoot at h
  split_ifs at h with habsolute
  · obtain ⟨rfl, -⟩ := copyString_eq_some.mp h
    rintro rfl
    simp at habsolute
  · exact joinPath_ne_nil h hplumos
  · exact joinPath_ne_nil h hsdcard

theorem aliasArtDir_ne_nil {sdcardRoot directoryAlias out : CString} (hne : sdcardRoot ≠ [])
    (h : aliasArtDir sdcardRoot directoryAlias = some out) : out ≠ [] := by
  unfold aliasArtDir at h
  split_ifs at h
  obtain ⟨imagesDir, himages, hout⟩ := Option.bind_eq_some_iff.mp h
  exact joinPath_ne_nil hout (joinPath_ne_nil himages hne)

section Agreement

variable (disk : Disk) (scan : ScanConfig)

/-- The roots of the scan. -/
def ArtRoots.ofScan : ArtRoots := ⟨scan.sdcardRoot, scan.plumosRoot⟩

/-- What a directory holds for the stems of a file that is not a directory. -/
def imageIn (found : Found) (artDir : CString) : Option CString :=
  findThumbnailInDir disk artDir (stemFromRelativePath pathMax found.relPath)
    (stemFromName 256 (copied 256 (pathBasename found.path)))

/-- The image of a file in the directory of its alias. -/
def aliasImage (aliasName : CString) (found : Found) : Option CString :=
  (aliasArtDir scan.sdcardRoot aliasName).bind (imageIn disk found)

/-- The image of a file in the directory of a lookup, an unknown root taken for the SD card. -/
def lookupImage (found : Found) (source : ArtSource) : Option CString :=
  (resolveRoot (.ofScan scan) source.root source.path).bind (imageIn disk found)

/-- Where no image precedes a lookup with an unknown root, its directory on the SD card
holds none, or holds the one that the known lookups behind it yield. -/
def StraysHarmless (lookups : List ArtSource) (aliasName : CString) (found : Found) : Prop :=
  ∀ before source after, lookups = before ++ source :: after → source.Stray →
    aliasImage disk scan aliasName found = none →
    (∀ other ∈ before, lookupImage disk scan found other = none) →
    lookupImage disk scan found source = none ∨
      lookupImage disk scan found source = after.findSome? fun other =>
        if other.Stray then none else lookupImage disk scan found other

variable {disk scan}

theorem romThumbnail_eq {visit : Visit} {lookups : List ArtSource}
    (hartwork : visit.system.artwork = lookups.map ArtSource.lookup) {found : Found}
    (hregular : disk.isRegularFile found.path = true) :
    romThumbnail disk scan visit.system visit.aliasName found.path found.relPath =
      (aliasImage disk scan visit.aliasName found).or (lookups.findSome? fun source =>
        if source.Stray then none else lookupImage disk scan found source) := by
  have hdir := Disk.not_isDirectory_of_isRegularFile hregular
  unfold romThumbnail findThumbnail
  simp only [hdir, Bool.false_eq_true, if_false]
  rw [hartwork, List.findSome?_map]
  have hlookup : (fun lookup => (resolveArtworkDir scan.plumosRoot scan.sdcardRoot lookup).bind
      fun artDir => findThumbnailInDir disk artDir (stemFromRelativePath pathMax found.relPath)
        (stemFromName 256 (copied 256 (pathBasename found.path)))) ∘ ArtSource.lookup =
      fun source => if source.Stray then none else lookupImage disk scan found source := by
    funext source
    have hdir := resolveArtworkDir_eq (.ofScan scan) source
    simp only [ArtRoots.ofScan] at hdir
    rw [Function.comp_apply, hdir]
    split_ifs <;> rfl
  rw [hlookup]
  rfl

theorem resolveArt_path {config : ArtConfig} (hsdcard : scan.sdcardRoot ≠ [])
    (hplumos : scan.plumosRoot ≠ []) (hexts : config.exts = imageExts)
    (hsources : config.sources = []) (huse : config.usePlumosLookup = true) {found : Found}
    (hlocated : Located found.path found.relPath found.name)
    (hext : fileExtension found.name ≠ []) (aliasName : CString) :
    (resolveArt disk config (.ofScan scan) found.relPath aliasName).map ArtHit.path =
      (aliasImage disk scan aliasName found).or
        (config.lookups.findSome? (lookupImage disk scan found)) := by
  obtain ⟨relative, flat, hrelative, hflat, hhead, hslash, hrelStem, hflatStem, hrelStem',
    hflatStem'⟩ := stems_of_located hlocated hext
  have hin : ∀ artDir, artDir ≠ [] →
      findInDir disk config artDir relative flat = imageIn disk found artDir := by
    intro artDir hne
    rw [findInDir_eq hexts hne hrelative hhead hflat hslash, imageIn, hrelStem', hflatStem']
  have halias : (aliasArtDir scan.sdcardRoot aliasName).bind
      (fun artDir => findInDir disk config artDir relative flat) =
        aliasImage disk scan aliasName found := by
    unfold aliasImage
    cases hdir : aliasArtDir scan.sdcardRoot aliasName with
    | none => rfl
    | some artDir => exact hin artDir (aliasArtDir_ne_nil hsdcard hdir)
  have hlookup : ∀ source, findInSource disk config (.ofScan scan) source relative flat =
      lookupImage disk scan found source := by
    intro source
    unfold findInSource lookupImage
    cases hdir : resolveRoot (.ofScan scan) source.root source.path with
    | none => rfl
    | some artDir => exact hin artDir (resolveRoot_ne_nil hsdcard hplumos hdir)
  have hnone : preferredSources config = [] := by simp [preferredSources, hsources]
  unfold resolveArt
  simp only [hrelStem, hflatStem, hnone, huse, hlookup]
  rw [← halias]
  simp [ArtRoots.ofScan, Option.map_or, Option.map_bind, List.map_findSome?, Function.comp_def]

/-- Without sources of its own, GGFE finds the artwork that the stock frontend finds for a
file, exactly if no lookup with an unknown root changes the first hit. -/
theorem artwork_agrees {config : ArtConfig} (hsdcard : scan.sdcardRoot ≠ [])
    (hplumos : scan.plumosRoot ≠ []) (hexts : config.exts = imageExts)
    (hsources : config.sources = []) (huse : config.usePlumosLookup = true) {visit : Visit}
    (hartwork : visit.system.artwork = config.lookups.map ArtSource.lookup) {found : Found}
    (hfound : found ∈ visit.found disk scan)
    (hregular : disk.isRegularFile found.path = true)
    (hlisted : isListed disk visit.system visit.filterSharedArchives found = true) :
    (resolveArt disk config (.ofScan scan) found.relPath visit.aliasName).map ArtHit.path =
        romThumbnail disk scan visit.system visit.aliasName found.path found.relPath ↔
      StraysHarmless disk scan config.lookups visit.aliasName found := by
  have hext : fileExtension found.name ≠ [] := by
    have hdir := Disk.not_isDirectory_of_isRegularFile hregular
    intro hnil
    simp [isListed, hdir, hnil, scanExtMatches, systemExtMatches] at hlisted
  rw [resolveArt_path hsdcard hplumos hexts hsources huse (located_of_mem_found hfound) hext,
    romThumbnail_eq hartwork hregular]
  unfold StraysHarmless
  cases aliasImage disk scan visit.aliasName found with
  | some path => simp
  | none =>
    simp only [Option.none_or, forall_true_left]
    apply findSome?_eq_without_iff
    intro source
    by_cases hstray : source.Stray
    · exact Or.inl ⟨hstray, if_pos hstray⟩
    · exact Or.inr ⟨hstray, if_neg hstray⟩

end Agreement

/-- A card with `Roms/G/a.gg` and the image `art/a.png`. -/
def artDisk : Disk :=
  .ofRows
    (cardRows ++
      [.dir [lit "sd", lit "Roms", lit "G"] 4 [lit "a.gg"],
      .file [lit "sd", lit "Roms", lit "G", lit "a.gg"] 5,
      .dir [lit "sd", lit "art"] 6 [lit "a.png"],
      .file [lit "sd", lit "art", lit "a.png"] 7])
    (by decide +kernel)

/-- A lookup of the directory `art` under this root. -/
def artLookup (root : CString) : ArtSource := ⟨[], root, lit "art"⟩

def artConfig (root : CString) : ArtConfig where
  exts := imageExts
  prefer := []
  sources := []
  lookups := [artLookup root]
  usePlumosLookup := true

def artSystem (root : CString) : SystemDef where
  id := lit "gg"
  displayName := lit "gg"
  shortName := lit "gg"
  sortOrder := 0
  enabled := true
  pinned := false
  scanDirectories := false
  aliases := [⟨lit "G", false, by decide⟩]
  extensions := [lit "gg"]
  artwork := [(artLookup root).lookup]
  defaultLaunchProfile := []

def artScan (root : CString) : ScanConfig where
  sdcardRoot := lit "/sd"
  plumosRoot := lit "/sd/p"
  systemFilter := none
  resolveThumbnails := true
  systems := [artSystem root]
  excludedDirectories := []

def artVisit (root : CString) : Visit :=
  ⟨0, artSystem root, lit "G", false, lit "/sd/Roms/G"⟩

def artFound : Found :=
  ⟨lit "/sd/Roms/G/a.gg",
    lit "a.gg", lit "a.gg"⟩

def artPath : CString := lit "/sd/art/a.png"

theorem artwork_agrees_sample :
    (resolveArt artDisk (artConfig sdcardRootName) (.ofScan (artScan sdcardRootName))
      artFound.relPath (lit "G")).map ArtHit.path =
    romThumbnail artDisk (artScan sdcardRootName) (artSystem sdcardRootName) (lit "G")
      artFound.path artFound.relPath := by
  have hagrees := @artwork_agrees artDisk (artScan sdcardRootName) (artConfig sdcardRootName)
    (by decide) (by decide) rfl rfl rfl (artVisit sdcardRootName) rfl artFound
    (by decide +kernel) (by decide +kernel) (by decide +kernel)
  apply hagrees.mpr
  intro before source after hlookups hstray
  have hmem : source ∈ (artConfig sdcardRootName).lookups := by simp [hlookups]
  rw [List.mem_singleton.mp hmem] at hstray
  exact absurd hstray (by decide)

/-- Under the root `usb`, GGFE searches the SD card and the stock frontend nothing. -/
theorem usb_lookup_differs :
    artFound ∈ (artVisit (lit "usb")).found artDisk (artScan (lit "usb")) ∧
    (resolveArt artDisk (artConfig (lit "usb")) (.ofScan (artScan (lit "usb")))
        artFound.relPath (lit "G")).map ArtHit.path = some artPath ∧
    romThumbnail artDisk (artScan (lit "usb")) (artSystem (lit "usb"))
        (lit "G") artFound.path artFound.relPath = none := by
  refine ⟨?_, ?_, ?_⟩ <;> decide +kernel

end PlumosBubble.Ggfe
