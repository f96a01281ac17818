import Mathlib.Data.List.Count
import Mathlib.Logic.Relation
import PlumosBubble.Frontend.RomBrowser

/-! The descent through the directories of the list of ROMs: from the top every ROM is reached in
one directory, and no directory is a dead end. -/

namespace PlumosBubble.Frontend.ControllerUi

variable {byPath : Bool} {roms : List IndexedRom}

/-- A directory has an entry that opens another. -/
def Opens (byPath : Bool) (roms : List IndexedRom) (romDirectory opened : CString) : Prop :=
  opened ∈ directoriesOf (romEntries byPath roms romDirectory)

/-- The directories that are reached from the top. -/
def Reached (byPath : Bool) (roms : List IndexedRom) (romDirectory : CString) : Prop :=
  Relation.ReflTransGen (Opens byPath roms) [] romDirectory

/-- From the top the browser reaches each ROM once, in one directory. It opens no empty
directory, lists none twice, and does not come back to one. -/
structure ReachesOnce (byPath : Bool) (roms : List IndexedRom) : Prop where
  once : ∀ rom ∈ roms, ∃ romDirectory, Reached byPath roms romDirectory ∧
    (romEntries byPath roms romDirectory).count rom.entry = roms.count rom ∧
    ∀ other, Reached byPath roms other → rom.entry ∈ romEntries byPath roms other →
      other = romDirectory
  filled : ∀ romDirectory opened, Reached byPath roms romDirectory →
    Opens byPath roms romDirectory opened → romEntries byPath roms opened ≠ []
  nodup : ∀ romDirectory, (directoriesOf (romEntries byPath roms romDirectory)).Nodup
  acyclic : ∀ romDirectory, ¬Relation.TransGen (Opens byPath roms) romDirectory romDirectory

theorem entry_injective : Function.Injective IndexedRom.entry := by
  rintro ⟨rom, extension⟩ ⟨rom', extension'⟩ h
  unfold IndexedRom.entry at h
  cases h
  rfl

theorem directoriesOf_perm {entries entries' : List BrowserEntry} (h : entries.Perm entries') :
    (directoriesOf entries).Perm (directoriesOf entries') := (h.filter _).map _

theorem opens_iff (hroms : Emitted roms) {romDirectory opened : CString} :
    Opens byPath roms romDirectory opened ↔ ∃ rom ∈ roms, ∃ base name more,
      Cuts romDirectory rom.relativePath.text base (name ++ slash :: more) ∧ slash ∉ name ∧
        opened = base ++ slash :: name := by
  unfold Opens
  rw [(directoriesOf_perm (romEntries_perm byPath roms romDirectory)).mem_iff,
    (listed_directories hroms).1]
  constructor
  · rintro ⟨rom, hrom, name, hchild⟩
    obtain ⟨hslash, hpath⟩ := hroms rom hrom
    obtain ⟨base, more, hcuts, hname, rfl⟩ :=
      (child_eq_directory hslash hpath rom.relativePath.fits).mp hchild
    exact ⟨rom, hrom, base, name, more, hcuts, hname, rfl⟩
  · rintro ⟨rom, hrom, base, name, more, hcuts, hname, rfl⟩
    obtain ⟨hslash, hpath⟩ := hroms rom hrom
    exact ⟨rom, hrom, name, (child_eq_directory hslash hpath rom.relativePath.fits).mpr
      ⟨base, more, hcuts, hname, rfl⟩⟩

theorem Opens.slash_mem (hroms : Emitted roms) {romDirectory opened : CString}
    (h : Opens byPath roms romDirectory opened) :
    slash ∈ opened ∧ romDirectory.length < opened.length := by
  obtain ⟨rom, hrom, base, name, more, ⟨-, hbase⟩, -, rfl⟩ := (opens_iff hroms).mp h
  refine ⟨by simp, ?_⟩
  rw [List.length_append, List.length_cons]
  split at hbase
  · rename_i hdir
    rw [hdir, List.length_nil]
    omega
  · rw [hbase]
    omega

theorem Reached.cases (hroms : Emitted roms) {romDirectory : CString}
    (h : Reached byPath roms romDirectory) : romDirectory = [] ∨ slash ∈ romDirectory := by
  rcases Relation.ReflTransGen.cases_tail h with heq | ⟨_, -, hopens⟩
  · exact Or.inl heq
  · exact Or.inr (hopens.slash_mem hroms).1

theorem reached_of_above (hroms : Emitted roms) {rom : IndexedRom} (hrom : rom ∈ roms)
    {base tail : CString} (hpath : rom.relativePath.text = base ++ slash :: tail)
    (hslash : slash ∈ base) : Reached byPath roms base := by
  induction hn : base.length using Nat.strong_induction_on generalizing base tail with
  | _ n ih =>
    cases hsplit : splitLast slash base with
    | none => exact absurd hslash (splitLast_eq_none.mp hsplit)
    | some parts =>
      obtain ⟨parent, name⟩ := parts
      obtain ⟨rfl, hname⟩ := splitLast_eq_some.mp hsplit
      have hcut : rom.relativePath.text = parent ++ slash :: (name ++ slash :: tail) := by
        rw [hpath]
        simp
      by_cases hparent : slash ∈ parent
      · have hreached := ih parent.length (by rw [← hn]; simp) hcut hparent rfl
        refine hreached.tail ((opens_iff hroms).mpr ⟨rom, hrom, parent, name, tail, ⟨hcut, ?_⟩,
          hname, rfl⟩)
        rw [if_neg]
        rintro rfl
        exact List.not_mem_nil hparent
      · exact Relation.ReflTransGen.single ((opens_iff hroms).mpr
          ⟨rom, hrom, parent, name, tail, ⟨hcut, by rwa [if_pos rfl]⟩, hname, rfl⟩)

theorem mem_romEntries_iff (hroms : Emitted roms) {rom : IndexedRom} (hrom : rom ∈ roms)
    {romDirectory : CString} : rom.entry ∈ romEntries byPath roms romDirectory ↔
      romBrowserChildForPath rom.relativePath.text romDirectory = some .file := by
  rw [(romEntries_perm byPath roms romDirectory).mem_iff]
  have hfiles := @listed_files romDirectory roms hroms
  constructor
  · intro h
    have hfile : rom.entry ∈ (listed romDirectory roms).filter
        fun entry => !entry.isNavigationDirectory := List.mem_filter.mpr ⟨h, rfl⟩
    rw [hfiles, List.mem_map_of_injective entry_injective, List.mem_filter] at hfile
    simpa using hfile.2
  · intro h
    have hfile : rom.entry ∈ (roms.filter fun rom =>
        romBrowserChildForPath rom.relativePath.text romDirectory = some .file).map
          IndexedRom.entry := by
      rw [List.mem_map_of_injective entry_injective, List.mem_filter]
      exact ⟨hrom, by simpa using h⟩
    rw [← hfiles] at hfile
    exact (List.mem_filter.mp hfile).1

theorem count_romEntries (hroms : Emitted roms) {rom : IndexedRom} {romDirectory : CString}
    (h : romBrowserChildForPath rom.relativePath.text romDirectory = some .file) :
    (romEntries byPath roms romDirectory).count rom.entry = roms.count rom := by
  rw [(romEntries_perm byPath roms romDirectory).count_eq]
  have hfilter := List.count_filter (l := listed romDirectory roms) (a := rom.entry)
    (p := fun entry => !entry.isNavigationDirectory) rfl
  rw [← hfilter, listed_files hroms, List.count_map_of_injective _ _ entry_injective]
  exact List.count_filter (by simpa using h)

/-- From the top the browser reaches every ROM that the scanner emits exactly once. -/
theorem rom_browser_reaches_once (byPath : Bool) (roms : List IndexedRom)
    (hroms : Emitted roms) : ReachesOnce byPath roms := by
  constructor
  case once =>
    intro rom hrom
    obtain ⟨hslash, hpath⟩ := hroms rom hrom
    cases hsplit : splitLast slash rom.relativePath.text with
    | none => exact absurd hslash (splitLast_eq_none.mp hsplit)
    | some parts =>
      obtain ⟨parent, name⟩ := parts
      obtain ⟨hcut, hname⟩ := splitLast_eq_some.mp hsplit
      -- behind an alias the ROM is at the top
      have hfile : romBrowserChildForPath rom.relativePath.text
          (if slash ∈ parent then parent else []) = some .file := by
        rw [child_eq_file hslash hpath rom.relativePath.fits]
        refine ⟨parent, name, ⟨hcut, ?_⟩, hname⟩
        by_cases hparent : slash ∈ parent
        · have hne : parent ≠ [] := List.ne_nil_of_mem hparent
          rw [if_pos hparent, if_neg hne]
        · rw [if_neg hparent, if_pos rfl]
          exact hparent
      refine ⟨if slash ∈ parent then parent else [], ?_, count_romEntries hroms hfile, ?_⟩
      · split
        · rename_i hparent
          exact reached_of_above hroms hrom hcut hparent
        · exact Relation.ReflTransGen.refl
      · intro other hreached hlisted
        rw [mem_romEntries_iff hroms hrom, child_eq_file hslash hpath rom.relativePath.fits]
          at hlisted
        obtain ⟨base, tail, ⟨hcut', hbase⟩, htail⟩ := hlisted
        have hsame := splitLast_eq_some.mpr ⟨hcut', htail⟩
        rw [hsplit] at hsame
        obtain ⟨rfl, rfl⟩ := Prod.mk.inj (Option.some.inj hsame)
        rcases hreached.cases hroms with rfl | hother
        · rw [if_pos rfl] at hbase
          rw [if_neg hbase]
        · rw [if_neg (List.ne_nil_of_mem hother)] at hbase
          rw [hbase, if_pos hother]
  case filled =>
    intro romDirectory opened _ hopens hempty
    obtain ⟨rom, hrom, base, name, more, hcuts, hname, rfl⟩ := (opens_iff hroms).mp hopens
    obtain ⟨hslash, hpath⟩ := hroms rom hrom
    have hcut : rom.relativePath.text = (base ++ slash :: name) ++ slash :: more := by
      rw [hcuts.1]
      simp
    have hbelow : Cuts (base ++ slash :: name) rom.relativePath.text (base ++ slash :: name)
        more := ⟨hcut, by rw [if_neg (by simp)]⟩
    cases hsplit : splitFirst more with
    | none =>
      have hfile := (child_eq_file hslash hpath rom.relativePath.fits).mpr
        ⟨_, more, hbelow, splitFirst_eq_none.mp hsplit⟩
      have hlisted := (@mem_romEntries_iff byPath roms hroms rom hrom _).mpr hfile
      rw [hempty] at hlisted
      exact List.not_mem_nil hlisted
    | some parts =>
      obtain ⟨segment, rest⟩ := parts
      obtain ⟨rfl, hsegment⟩ := splitFirst_eq_some.mp hsplit
      have hlisted : Opens byPath roms (base ++ slash :: name) _ := (opens_iff hroms).mpr
        ⟨rom, hrom, _, segment, rest, hbelow, hsegment, rfl⟩
      unfold Opens at hlisted
      rw [hempty] at hlisted
      exact List.not_mem_nil hlisted
  case nodup =>
    intro romDirectory
    rw [(directoriesOf_perm (romEntries_perm byPath roms romDirectory)).nodup_iff]
    exact (listed_directories hroms).2
  case acyclic =>
    intro romDirectory hcycle
    have hgrows : ∀ opened, Relation.TransGen (Opens byPath roms) romDirectory opened →
        romDirectory.length < opened.length := by
      intro opened h
      induction h with
      | single hopens => exact (hopens.slash_mem hroms).2
      | tail _ hopens ih => exact ih.trans (hopens.slash_mem hroms).2
    exact Nat.lt_irrefl _ (hgrows _ hcycle)

/-- Two aliases with a directory `RPG` each, and a directory `RPG2` beside one. -/
def twoAliases : List IndexedRom :=
  [lit "GG/RPG/a.gg", lit "gamegear/RPG/b.gg", lit "GG/RPG2/disc 1/c.gg", lit "GG/d.gg"].map
    fun path => ⟨⟨.cut (lit "gamegear"), .cut path, .cut path, .empty, .empty⟩, .empty⟩

theorem rom_browser_reaches_once_sample : ReachesOnce false twoAliases :=
  rom_browser_reaches_once false twoAliases (by
    unfold Emitted PlainPath PlainName
    decide +kernel)

example : directoriesOf (listed [] twoAliases) =
    [lit "GG/RPG", lit "gamegear/RPG", lit "GG/RPG2"] := by decide +kernel

end PlumosBubble.Frontend.ControllerUi
