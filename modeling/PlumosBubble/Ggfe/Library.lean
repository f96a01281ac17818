import PlumosBubble.Frontend.LibraryIndex
import PlumosBubble.Ggfe.Art

/-! The cartridges that GGFE shows: `ggfe_walk` and `ggfe_scan` of `plumos_ggfe_art.h`. -/

namespace PlumosBubble.Ggfe

open Frontend

/-- The fields of `struct ggfe_config` that the scan reads. -/
structure GgfeConfig extends ArtConfig where
  romDirs : List CString
  romExts : List CString
  romExts_fit : ∀ ext ∈ romExts, ext.length + 1 ≤ 8

/-- `struct ggfe_entry`. -/
structure GgfeEntry where
  title : CString
  rom : CString
  rel : CString
  aliasName : CString
  art : CString
  rule : CString
  kind : ArtKind
  deriving DecidableEq

/-- `GGFE_MAX_ENTRIES`. -/
def ggfeMaxEntries : ℕ := 512

/-- The directory that `ggfe_app_init` stores as `roms`. -/
def romsRoot (roots : ArtRoots) : CString :=
  (joinPath pathMax roots.sdcard (lit "Roms")).getD []

/-- `ggfe_has_rom_ext`. -/
def ggfeHasRomExt (romExts : List CString) (name : CString) : Bool :=
  match splitLast dot name with
  | some (_, ext) => ext ≠ [] && romExts.any fun romExt => equalCi ext romExt
  | none => false

/-- The path of a ROM behind the directory of its alias. -/
def artRel (base full : CString) : CString :=
  if base <+: full then (full.drop base.length).dropWhile (· = slash) else full

section Walk

variable (disk : Disk) (config : GgfeConfig) (roots : ArtRoots)

/-- The part of `ggfe_walk` that adds a ROM, unless its title is there already. -/
def addEntry (base aliasName full : CString) (entries : List GgfeEntry) : List GgfeEntry :=
  let artRel := artRel base full
  match joinPath pathMax aliasName artRel with
  | none => entries
  | some rel =>
    let title := beforeDot (copied 192 (pathBasename artRel))
    if entries.any fun entry => equalCi entry.title title then entries
    else
      let hit := resolveArt disk config.toArtConfig roots artRel (copied 64 aliasName)
      entries ++ [{
        title
        rom := copied pathMax full
        rel
        aliasName := copied 64 aliasName
        art := (hit.map ArtHit.path).getD []
        rule := (hit.map ArtHit.rule).getD []
        kind := (hit.map ArtHit.kind).getD .unknown }]

/-- What `ggfe_walk` does with one name, where `descend` walks a directory. -/
def walkChild (descend : (dir : CString) → List GgfeEntry → List GgfeEntry)
    (base aliasName dir : CString) (entries : List GgfeEntry) (name : CString) :
    List GgfeEntry :=
  if ggfeMaxEntries ≤ entries.length || isHidden name then entries
  else
    match joinPath pathMax dir name with
    | none => entries
    | some full =>
      if disk.isDirectory full then descend full entries
      else if !disk.isRegularFile full || !ggfeHasRomExt config.romExts name then entries
      else addEntry disk config roots base aliasName full entries

/-- `ggfe_walk`, with the number of levels of directories that it still enters. -/
def ggfeWalk (base aliasName : CString) :
    ℕ → (dir : CString) → List GgfeEntry → List GgfeEntry
  | 0, dir, entries =>
    ((disk.readdir dir).getD []).foldl
      (walkChild disk config roots (fun _ entries => entries) base aliasName dir) entries
  | levels + 1, dir, entries =>
    ((disk.readdir dir).getD []).foldl
      (walkChild disk config roots (ggfeWalk base aliasName levels) base aliasName dir) entries

/-- The walk of one ROM directory in `ggfe_scan`. -/
def ggfeScanDir (entries : List GgfeEntry) (aliasName : CString) : List GgfeEntry :=
  if ggfeMaxEntries ≤ entries.length then entries
  else
    match joinPath pathMax (romsRoot roots) aliasName with
    | none => entries
    | some base =>
      if !disk.isDirectory base then entries
      else ggfeWalk disk config roots base aliasName 4 base entries

/-- `ggfe_entry_cmp(a, b) <= 0`. -/
def ggfeEntryLe (a b : GgfeEntry) : Bool := caseLe a.title b.title

/-- `ggfe_scan`. -/
def ggfeScan : List GgfeEntry :=
  (config.romDirs.foldl (ggfeScanDir disk config roots) []).mergeSort ggfeEntryLe

end Walk

/-- What is known of a cartridge: a regular file, whose name in the path it is launched by
has a ROM extension. -/
structure Shown (disk : Disk) (config : GgfeConfig) (entry : GgfeEntry) : Prop where
  regular : disk.isRegularFile entry.rom = true
  fits : entry.rom.length + 1 ≤ pathMax
  ext : ggfeHasRomExt config.romExts (pathBasename entry.rel) = true

section Shown

variable {disk : Disk} {config : GgfeConfig} {roots : ArtRoots}

theorem pathBasename_append {p name : CString} (hp : p = [] ∨ p.getLast? = some slash)
    (hname : slash ∉ name) : pathBasename (p ++ name) = name := by
  have hseparator : separator p = [] := by
    unfold separator
    apply if_neg
    rintro ⟨hne, hlast⟩
    exact hp.elim hne hlast
  have hjoin := @pathBasename_join p name hname
  rwa [hseparator, List.append_nil] at hjoin

theorem append_separator (dir : CString) :
    dir ++ separator dir = [] ∨ (dir ++ separator dir).getLast? = some slash := by
  unfold separator
  split_ifs with h
  · exact Or.inr (List.getLast?_concat ..)
  · rw [List.append_nil]
    by_cases hdir : dir = []
    · exact Or.inl hdir
    · apply Or.inr
      by_contra hlast
      exact h ⟨hdir, hlast⟩

theorem getLast?_of_suffix {p w : CString} (h : p <:+ w) (hp : p ≠ [])
    (hw : w = [] ∨ w.getLast? = some slash) : p.getLast? = some slash := by
  obtain ⟨t, rfl⟩ := h
  rcases hw with hnil | hlast
  · simp [hp] at hnil
  · rwa [List.getLast?_append_of_ne_nil _ hp] at hlast

theorem artRel_eq {base dir name : CString} (hbase : base <+: dir) (hne : name ≠ [])
    (hslash : slash ∉ name) :
    ∃ p, (p = [] ∨ p.getLast? = some slash) ∧
      artRel base (dir ++ separator dir ++ name) = p ++ name ∧ (p ++ name).head? ≠ some slash := by
  obtain ⟨u, rfl⟩ := hbase
  have hfull : base ++ u ++ separator (base ++ u) ++ name =
      base ++ (u ++ separator (base ++ u) ++ name) := by
    simp only [List.append_assoc]
  have hname : name.head? ≠ some slash := fun hhead => hslash (List.mem_of_head? hhead)
  have hw : u ++ separator (base ++ u) = [] ∨
      (u ++ separator (base ++ u)).getLast? = some slash := by
    by_cases hnil : u ++ separator (base ++ u) = []
    · exact Or.inl hnil
    · have hend := append_separator (base ++ u)
      rw [List.append_assoc] at hend
      exact Or.inr (getLast?_of_suffix (List.suffix_append _ _) hnil hend)
  rw [artRel, hfull, if_pos (List.prefix_append _ _), List.drop_left, List.dropWhile_append]
  split_ifs with hempty
  · have hdrop : name.dropWhile (· = slash) = name := by
      cases name with
      | nil => rfl
      | cons c rest =>
        apply List.dropWhile_cons_of_neg
        simpa using hname
    exact ⟨[], Or.inl rfl, by rw [hdrop, List.nil_append], by rwa [List.nil_append]⟩
  · have hkept : (u ++ separator (base ++ u)).dropWhile (· = slash) ≠ [] := by
      simpa using hempty
    refine ⟨_, Or.inr (getLast?_of_suffix (List.dropWhile_suffix _) hkept hw), rfl, ?_⟩
    rw [List.head?_append_of_ne_nil _ hkept]
    intro hhead
    have hnot := List.head?_dropWhile_not (· = slash) (u ++ separator (base ++ u))
    rw [hhead] at hnot
    simp at hnot

theorem shown_addEntry {base aliasName dir name : CString} {entries : List GgfeEntry}
    (hbase : base <+: dir) (hne : name ≠ []) (hslash : slash ∉ name)
    (hfits : (dir ++ separator dir ++ name).length + 1 ≤ pathMax)
    (hregular : disk.isRegularFile (dir ++ separator dir ++ name) = true)
    (hext : ggfeHasRomExt config.romExts name = true)
    (h : ∀ entry ∈ entries, Shown disk config entry) :
    ∀ entry ∈ addEntry disk config roots base aliasName (dir ++ separator dir ++ name) entries,
      Shown disk config entry := by
  obtain ⟨p, hp, hrel, hhead⟩ := artRel_eq hbase hne hslash
  unfold addEntry
  simp only [hrel]
  cases hjoin : joinPath pathMax aliasName (p ++ name) with
  | none => exact h
  | some rel =>
    dsimp only
    split_ifs with hdup
    · exact h
    · intro entry hentry
      rcases List.mem_append.mp hentry with hold | hnew
      · exact h entry hold
      · obtain rfl := List.mem_singleton.mp hnew
        have hcopied : copied pathMax (dir ++ separator dir ++ name) =
            dir ++ separator dir ++ name := by
          rw [copied, copyString, if_pos hfits, Option.getD_some]
        have hbasename : pathBasename rel = name := by
          obtain ⟨rfl, -⟩ := (joinPath_relative hhead).mp hjoin
          rw [← List.append_assoc]
          apply pathBasename_append _ hslash
          rcases hp with rfl | hlast
          · rw [List.append_nil]
            exact append_separator aliasName
          · apply Or.inr
            rwa [List.getLast?_append_of_ne_nil _ (by rintro rfl; simp at hlast)]
        exact ⟨by rwa [hcopied], by rwa [hcopied], by rwa [hbasename]⟩

theorem shown_walkChild {descend : CString → List GgfeEntry → List GgfeEntry}
    {base aliasName dir name : CString} {names : List CString} (hbase : base <+: dir)
    (hdescend : ∀ full entries, base <+: full → (∀ entry ∈ entries, Shown disk config entry) →
      ∀ entry ∈ descend full entries, Shown disk config entry)
    (hnames : disk.readdir dir = some names) (hname : name ∈ names) {entries : List GgfeEntry}
    (h : ∀ entry ∈ entries, Shown disk config entry) :
    ∀ entry ∈ walkChild disk config roots descend base aliasName dir entries name,
      Shown disk config entry := by
  obtain ⟨hne, hslash, -⟩ := disk.readdir_name _ _ _ hnames hname
  unfold walkChild
  split_ifs with hskip
  · exact h
  cases hjoin : joinPath pathMax dir name with
  | none => exact h
  | some full =>
    obtain ⟨rfl, hfits⟩ :=
      (joinPath_relative fun hhead => hslash (List.mem_of_head? hhead)).mp hjoin
    dsimp only
    split_ifs with hdir hrefused
    · apply hdescend _ _ _ h
      rw [List.append_assoc]
      exact hbase.trans (List.prefix_append _ _)
    · exact h
    · rw [Bool.or_eq_true, not_or] at hrefused
      exact shown_addEntry hbase hne hslash hfits (by simpa using hrefused.1)
        (by simpa using hrefused.2) h

theorem shown_ggfeWalk {base aliasName : CString} {levels : ℕ} :
    ∀ dir entries, base <+: dir → (∀ entry ∈ entries, Shown disk config entry) →
      ∀ entry ∈ ggfeWalk disk config roots base aliasName levels dir entries,
        Shown disk config entry := by
  induction levels with
  | zero =>
    intro dir entries hbase h
    unfold ggfeWalk
    cases hnames : disk.readdir dir with
    | none => exact h
    | some names =>
      exact List.foldlRecOn (motive := fun entries => ∀ entry ∈ entries, Shown disk config entry)
        names _ h fun entries h name hname =>
          shown_walkChild hbase (fun _ _ _ h => h) hnames hname h
  | succ levels ih =>
    intro dir entries hbase h
    unfold ggfeWalk
    cases hnames : disk.readdir dir with
    | none => exact h
    | some names =>
      exact List.foldlRecOn (motive := fun entries => ∀ entry ∈ entries, Shown disk config entry)
        names _ h fun entries h name hname => shown_walkChild hbase ih hnames hname h

theorem mem_ggfeScan {entry : GgfeEntry} : entry ∈ ggfeScan disk config roots ↔
    entry ∈ config.romDirs.foldl (ggfeScanDir disk config roots) [] := List.mem_mergeSort

theorem shown_of_mem_ggfeScan {entry : GgfeEntry} (h : entry ∈ ggfeScan disk config roots) :
    Shown disk config entry := by
  have hall : ∀ entry ∈ config.romDirs.foldl (ggfeScanDir disk config roots) [],
      Shown disk config entry := by
    apply List.foldlRecOn (motive := fun entries => ∀ entry ∈ entries, Shown disk config entry)
    · exact fun _ hmem => absurd hmem List.not_mem_nil
    · intro entries hentries aliasName _
      unfold ggfeScanDir
      split_ifs
      · exact hentries
      cases joinPath pathMax (romsRoot roots) aliasName with
      | none => exact hentries
      | some base =>
        dsimp only
        split_ifs
        · exact hentries
        · exact shown_ggfeWalk base entries List.prefix_rfl hentries
  exact hall entry (mem_ggfeScan.mp h)

end Shown

end PlumosBubble.Ggfe
