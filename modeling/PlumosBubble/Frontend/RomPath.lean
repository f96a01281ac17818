import PlumosBubble.Sequence.Separators
import PlumosBubble.Frontend.Visits

/-! `valid_relative_rom_path` of `plumos_text_ui.c` and of `plumos_controller_ui.c`, which
share a name and not a definition, and the relative paths that the library scan emits. -/

namespace PlumosBubble.Frontend

open Sequence

/-- `valid_relative_rom_path` of `plumos_text_ui.c`. -/
def TextUi.validRelativeRomPath (s : CString) : Bool :=
  !(s = [] || s.head? = some slash) &&
    !([dot, dot, slash] <:+: s || [slash, dot, dot] <:+: s || s = [dot, dot])

/-- `valid_relative_rom_path` of `plumos_controller_ui.c`. -/
def ControllerUi.validRelativeRomPath (path : CString) : Bool :=
  !(path = [] || path.head? = some slash) &&
    !([slash, dot, dot, slash] <:+: path || [dot, dot, slash] <+: path || path = [dot, dot] ||
      (3 ≤ path.length && [slash, dot, dot] <:+ path))

/-- A relative path that does not climb. -/
def Acceptable (s : CString) : Prop :=
  s ≠ [] ∧ s.head? ≠ some slash ∧ [dot, dot] ∉ s.splitOn slash

/-- No component before a slash ends in two dots, and none after a slash starts with two. -/
def PlainDots (s : CString) : Prop :=
  (∀ piece ∈ (s.splitOn slash).dropLast, ¬[dot, dot] <:+ piece) ∧
    ∀ piece ∈ (s.splitOn slash).tail, ¬[dot, dot] <+: piece

theorem slash_notMem_dots : slash ∉ [dot, dot] := by decide

theorem ControllerUi.validRelativeRomPath_iff (s : CString) :
    ControllerUi.validRelativeRomPath s = true ↔ Acceptable s := by
  have hlength : [slash, dot, dot] <:+ s → 3 ≤ s.length := fun h => h.length_le
  have hpiece := mem_splitOn_iff slash_notMem_dots s
  simp only [List.cons_append, List.nil_append] at hpiece
  unfold ControllerUi.validRelativeRomPath Acceptable
  rw [hpiece]
  simp only [Bool.and_eq_true, Bool.not_eq_true', Bool.or_eq_false_iff, decide_eq_false_iff_not,
    Bool.and_eq_false_iff, not_or]
  constructor
  · rintro ⟨⟨hne, hhead⟩, ⟨⟨hmid, hstart⟩, hwhole⟩, hend⟩
    refine ⟨hne, hhead, hwhole, hstart, ?_, hmid⟩
    intro hsuffix
    rcases hend with hshort | hend
    · exact hshort (hlength hsuffix)
    · exact hend hsuffix
  · rintro ⟨hne, hhead, hwhole, hstart, hend, hmid⟩
    exact ⟨⟨hne, hhead⟩, ⟨⟨hmid, hstart⟩, hwhole⟩, Or.inr hend⟩

theorem TextUi.validRelativeRomPath_iff (s : CString) :
    TextUi.validRelativeRomPath s = true ↔ Acceptable s ∧ PlainDots s := by
  have hpiece := mem_splitOn_iff slash_notMem_dots s
  have hbefore := infix_iff_exists_suffix slash_notMem_dots s
  have hafter := infix_iff_exists_prefix slash_notMem_dots s
  simp only [List.cons_append, List.nil_append] at hpiece hbefore
  unfold TextUi.validRelativeRomPath Acceptable PlainDots
  simp only [Bool.and_eq_true, Bool.not_eq_true', Bool.or_eq_false_iff, decide_eq_false_iff_not]
  rw [hpiece]
  have hplain : (¬[dot, dot, slash] <:+: s ↔
      ∀ piece ∈ (s.splitOn slash).dropLast, ¬[dot, dot] <:+ piece) ∧
      (¬[slash, dot, dot] <:+: s ↔
        ∀ piece ∈ (s.splitOn slash).tail, ¬[dot, dot] <+: piece) := by
    rw [hbefore, hafter]
    simp only [not_exists, not_and, and_self]
  rw [← hplain.1, ← hplain.2]
  constructor
  · rintro ⟨⟨hne, hhead⟩, ⟨hup, hdown⟩, hwhole⟩
    refine ⟨⟨hne, hhead, ?_⟩, hup, hdown⟩
    rintro (h | h | h | h)
    · exact hwhole h
    · exact hup h.isInfix
    · exact hdown h.isInfix
    · exact hdown ((List.prefix_append [slash, dot, dot] [slash]).isInfix.trans h)
  · rintro ⟨⟨hne, hhead, hclimb⟩, hup, hdown⟩
    exact ⟨⟨hne, hhead⟩, ⟨hup, hdown⟩, fun h => hclimb (Or.inl h)⟩

section Emitted

variable {disk : Disk} {config : ScanConfig}

/-- A path of names that are not hidden. -/
structure PlainRel (rel : CString) : Prop where
  ne_nil : rel ≠ []
  head : rel.head? ≠ some slash
  last : rel.getLast? ≠ some slash
  plain : ∀ piece ∈ rel.splitOn slash, piece.head? ≠ some dot

theorem plainRel_name {name : CString} (hne : name ≠ []) (hslash : slash ∉ name)
    (hhidden : ¬isHidden name = true) : PlainRel name where
  ne_nil := hne
  head h := hslash (List.mem_of_head? h)
  last h := hslash (List.mem_of_getLast? h)
  plain piece hpiece := by
    rw [List.splitOn_eq_singleton hslash, List.mem_singleton] at hpiece
    rw [hpiece]
    intro hdot
    apply hhidden
    simp [isHidden, hdot]

theorem PlainRel.join {rel name : CString} (hrel : PlainRel rel) (hname : PlainRel name) :
    PlainRel (rel ++ slash :: name) where
  ne_nil := by simp
  head := by
    rw [List.head?_append_of_ne_nil _ hrel.ne_nil]
    exact hrel.head
  last := by
    rw [List.getLast?_append_of_ne_nil _ (by simp), List.getLast?_cons_of_ne_nil hname.ne_nil]
    exact hname.last
  plain piece hpiece := by
    rw [List.splitOn_append_cons_self, List.mem_append] at hpiece
    rcases hpiece with hleft | hright
    · exact hrel.plain piece hleft
    · exact hname.plain piece hright

theorem separator_eq {a : CString} (hne : a ≠ []) (hlast : a.getLast? ≠ some slash) :
    separator a = [slash] := if_pos ⟨hne, hlast⟩

theorem plainRel_childRel {relDir name childRel' : CString}
    (hdir : relDir = [] ∨ PlainRel relDir) (hname : PlainRel name) (hslash : slash ∉ name)
    (hlength : name.length ≤ 255) (h : childRel relDir name = some childRel') :
    PlainRel childRel' := by
  unfold childRel at h
  split_ifs at h with hnil
  · have hfits : name.length + 1 ≤ pathMax := by
      show name.length + 1 ≤ 4096
      omega
    simp only [copied, copyString, if_pos hfits, Option.getD_some, Option.some.injEq] at h
    rw [← h]
    exact hname
  · have hrel := hdir.resolve_left hnil
    have hhead : name.head? ≠ some slash := fun hhead => hslash (List.mem_of_head? hhead)
    obtain ⟨rfl, -⟩ := (joinPath_relative hhead).mp h
    rw [separator_eq hrel.ne_nil hrel.last, List.append_assoc, List.singleton_append]
    exact hrel.join hname

theorem plainRel_of_mem_found {visit : Visit} {found : Found}
    (h : found ∈ visit.found disk config) : PlainRel found.relPath :=
  reach_invariant (I := fun _ relDir => relDir = [] ∨ PlainRel relDir)
    (J := fun _ rel _ => PlainRel rel)
    (fun hI hnames hname hhidden _ hrel =>
      have ⟨hne, hslash, hlength⟩ := disk.readdir_name _ _ _ hnames hname
      plainRel_childRel hI (plainRel_name hne hslash hhidden) hslash hlength hrel)
    Or.inr (Or.inl rfl) h

theorem relativePath_of_mem_roms {rom : RomEntry} (h : rom ∈ (scanSystems disk config).roms) :
    ∃ rel, rom.relativePath = rom.directoryAlias ++ slash :: rel ∧ rom.directoryAlias ≠ [] ∧
      (rel = [] ∨ PlainRel rel) := by
  obtain ⟨visit, hvisit, found, hfound, -, rfl⟩ := exists_of_mem_roms h
  obtain ⟨-, -, ⟨aliasDef, -, hname, hne⟩, -⟩ :=
    visit_of_mem_visits ((visited_sublist _ _).subset hvisit)
  have hfits : visit.aliasName.length + 1 ≤ 64 := hname ▸ aliasDef.fits
  have halias : copied 64 visit.aliasName = visit.aliasName := by
    rw [copied, copyString, if_pos hfits, Option.getD_some]
  have hbuffer : appended pathMax (appended pathMax [] visit.aliasName) [slash] =
      visit.aliasName ++ [slash] := by
    have hfirst : appended pathMax [] visit.aliasName = visit.aliasName := by
      have hshort : ([] : CString).length + visit.aliasName.length + 1 ≤ pathMax := by
        show 0 + visit.aliasName.length + 1 ≤ 4096
        omega
      rw [appended, appendString, if_pos hshort, List.nil_append, Option.getD_some]
    have hsecond : visit.aliasName.length + [slash].length + 1 ≤ pathMax := by
      show visit.aliasName.length + 1 + 1 ≤ 4096
      omega
    rw [hfirst, appended, appendString, if_pos hsecond, Option.getD_some]
  show ∃ rel, appended pathMax (appended pathMax (appended pathMax [] visit.aliasName) [slash])
    found.relPath = copied 64 visit.aliasName ++ slash :: rel ∧ copied 64 visit.aliasName ≠ [] ∧ _
  rw [hbuffer, halias, appended, appendString]
  split_ifs
  · exact ⟨found.relPath, by simp, hname ▸ hne, Or.inr (plainRel_of_mem_found hfound)⟩
  · exact ⟨[], rfl, hname ▸ hne, Or.inl rfl⟩

theorem acceptable_of_mem_roms {rom : RomEntry} (h : rom ∈ (scanSystems disk config).roms) :
    Acceptable rom.relativePath ↔ Acceptable rom.directoryAlias := by
  obtain ⟨rel, hpath, hne, hrel⟩ := relativePath_of_mem_roms h
  have hplain : [dot, dot] ∉ rel.splitOn slash := by
    rcases hrel with rfl | hrel
    · simp
    · intro hmem
      exact hrel.plain _ hmem rfl
  have hhead : (rom.directoryAlias ++ slash :: rel).head? = rom.directoryAlias.head? := by
    rw [List.head?_append_of_ne_nil _ hne]
  unfold Acceptable
  rw [hpath, hhead, List.splitOn_append_cons_self, List.mem_append]
  simp only [ne_eq, List.append_eq_nil_iff, hne, reduceCtorEq, and_false, not_false_eq_true,
    true_and, hplain, or_false]

/-- The two validators accept exactly the acceptable paths that have plain dots, and
exactly the acceptable paths. A path that the scan emits is accepted by both if its alias
is acceptable and its dots are plain. -/
theorem validators_agree (s : CString) {rom : RomEntry}
    (h : rom ∈ (scanSystems disk config).roms) :
    (((TextUi.validRelativeRomPath s = true ↔ Acceptable s) ∧
        (ControllerUi.validRelativeRomPath s = true ↔ Acceptable s)) ↔
      (Acceptable s → PlainDots s)) ∧
    ((TextUi.validRelativeRomPath rom.relativePath = true ∧
        ControllerUi.validRelativeRomPath rom.relativePath = true) ↔
      Acceptable rom.directoryAlias ∧ PlainDots rom.relativePath) := by
  rw [TextUi.validRelativeRomPath_iff, ControllerUi.validRelativeRomPath_iff,
    TextUi.validRelativeRomPath_iff, ControllerUi.validRelativeRomPath_iff,
    acceptable_of_mem_roms h]
  tauto

end Emitted

/-- A card with one game below `Roms/GG/G..`. -/
def dottedDisk : Disk :=
  .ofRows
    (cardRows ++
      [.dir [lit "sd", lit "Roms", lit "GG"] 4 [lit "G.."],
      .dir [lit "sd", lit "Roms", lit "GG", lit "G.."] 5
        [lit "a.gg"],
      .file [lit "sd", lit "Roms", lit "GG", lit "G..",
        lit "a.gg"] 6])
    (by decide +kernel)

/-- One system with the alias `GG` and the extension `gg`. -/
def dottedConfig : ScanConfig where
  sdcardRoot := lit "/sd"
  plumosRoot := lit "/sd/p"
  systemFilter := none
  resolveThumbnails := false
  systems := [{
    id := lit "gg"
    displayName := lit "gg"
    shortName := lit "gg"
    sortOrder := 0
    enabled := true
    pinned := false
    scanDirectories := false
    aliases := [⟨lit "GG", false, by decide⟩]
    extensions := [lit "gg"]
    artwork := []
    defaultLaunchProfile := [] }]
  excludedDirectories := []

/-- `GG/G../a.gg`. -/
def dottedPath : CString := lit "GG/G../a.gg"

theorem dotted_scan : (scanSystems dottedDisk dottedConfig).roms.map (·.relativePath) =
    [dottedPath] := by
  decide +kernel

theorem validators_agree_sample : ∃ rom ∈ (scanSystems dottedDisk dottedConfig).roms,
    ((TextUi.validRelativeRomPath rom.relativePath = true ∧
        ControllerUi.validRelativeRomPath rom.relativePath = true) ↔
      Acceptable rom.directoryAlias ∧ PlainDots rom.relativePath) := by
  obtain ⟨rom, hrom, -⟩ := List.mem_map.mp
    (dotted_scan ▸ List.mem_cons_self : dottedPath ∈ _)
  exact ⟨rom, hrom, (validators_agree [] hrom).2⟩

/-- A game that the scan lists, whose path one validator accepts and the other refuses. -/
theorem dotted_game_refused :
    (scanSystems dottedDisk dottedConfig).roms.map (·.relativePath) = [dottedPath] ∧
      Acceptable dottedPath ∧ ControllerUi.validRelativeRomPath dottedPath = true ∧
      TextUi.validRelativeRomPath dottedPath = false :=
  ⟨dotted_scan, (ControllerUi.validRelativeRomPath_iff dottedPath).mp (by decide +kernel),
    by decide +kernel, by decide +kernel⟩

end PlumosBubble.Frontend
