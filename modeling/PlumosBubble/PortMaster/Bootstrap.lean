import PlumosBubble.PortMaster.CaseFix
import PlumosBubble.PortMaster.Pylibs

/-! The bootstrap of PortMaster under interruptions: the case fix loses the item that has its
temporary name at that moment, and the extraction converges unless the archive is written over. -/

namespace PlumosBubble.PortMaster

open Update (Text)

/-- An archive with an unsafe member changes nothing; with any other one, a run that completes
leaves what it is to leave, after any number of interruptions. -/
structure LibsSafe (lib : Zip) (files : Files) : Prop where
  refused : ∀ bytes entries, archiveBytes files = some bytes → lib.unzip bytes = some entries →
    entries.any ZipEntry.isUnsafe = true → ∀ t, Interrupted lib files t → t = files
  converges : ∀ bytes entries, archiveBytes files = some bytes → lib.unzip bytes = some entries →
    entries.any ZipEntry.isUnsafe = false → ∀ t, Interrupted lib files t → ∀ pid u,
      (safeExtractPylibs lib pid).Returns t () u → Extracted lib bytes entries u

/-- The archive that is there has no file that is written over it. -/
def Spared (lib : Zip) (files : Files) : Prop :=
  ∀ bytes entries, archiveBytes files = some bytes → lib.unzip bytes = some entries →
    SparesArchive entries

section

variable {γ ρ : Type} [DecidableEq ρ]

/-- An install keeps every item exactly if it is not left while one has its temporary name. -/
theorem bootstrap_iff (C : Casefold) (root : Bool → ρ) (pid : ℕ) (filenames : List Text)
    (works : List Bool) (dirs : Dirs ρ γ) (hunique : UniqueUpToCase C dirs) (lib : Zip)
    (files : Files) (htree : IsTree files) :
    (CaseSafe C root (topLevelItems C filenames []) dirs
        (plumosInstallPort C root pid filenames works dirs).2.2 ↔
      strands C root (topLevelItems C filenames []) works dirs = false) ∧
    (Spared lib files → LibsSafe lib files) := by
  refine ⟨caseSafe_iff_strands pid works hunique, fun hspared => ?_⟩
  constructor
  · intro bytes entries harchive hunzip hunsafe t h
    exact unsafe_stays harchive hunzip hunsafe h
  · intro bytes entries harchive hunzip hsafe t h pid u hreturn
    exact extracted_of_returns htree harchive hunzip hsafe (hspared bytes entries harchive hunzip)
      h hreturn

end

section Samples

/-- Case folding of plain letters. -/
def asciiFold : Casefold where
  char c := [c.toLower]
  char_ne_nil _ := List.cons_ne_nil _ _

/-- One directory, with one item. -/
def oneItem (name : Text) (x : ℕ) : Dirs Unit ℕ := fun _ => some (AList.singleton name x)

theorem oneItem_unique (name : Text) (x : ℕ) : UniqueUpToCase asciiFold (oneItem name x) := by
  have hone : ∀ r n, content (oneItem name x) r n ≠ none → n = name := by
    intro r n hn
    rw [content, oneItem, Option.bind_some, Ne, AList.lookup_eq_none, not_not, AList.mem_keys,
      AList.keys_singleton, List.mem_singleton] at hn
    exact hn
  intro r n n' hn hn' _
  rw [hone r n hn, hone r n' hn']

/-- A library that knows one archive. -/
def oneArchive (bytes : Text) (entries : List ZipEntry) : Zip where
  md5 := List.reverse
  sha256 := List.reverse
  unzip text := if text = bytes then some entries else none
  member _ e := some e.text
  member_self _ _ := rfl

theorem isTree_archive (bytes : Text) :
    IsTree (AList.singleton [pylibsZip] (Node.file bytes false)) := by
  intro path name hthere
  rw [Ne, AList.lookup_eq_none, not_not, AList.mem_keys, AList.keys_singleton,
    List.mem_singleton] at hthere
  cases path with
  | nil => exact Or.inl rfl
  | cons a path => simp at hthere

/-- `GAME` becomes `Game`, and the libraries are extracted. -/
theorem bootstrap_sample :
    CaseSafe asciiFold (fun _ => ()) (topLevelItems asciiFold ["Game/a.txt".toList] [])
      (oneItem "GAME".toList 7) (plumosInstallPort asciiFold (fun _ => ()) 12
        ["Game/a.txt".toList] [true, true] (oneItem "GAME".toList 7)).2.2 ∧
    LibsSafe (oneArchive "zip".toList [⟨"pylibs/a.py".toList, 0, "one".toList⟩])
      (AList.singleton [pylibsZip] (Node.file "zip".toList false)) := by
  have hboth := bootstrap_iff asciiFold (fun _ => ()) 12 ["Game/a.txt".toList] [true, true]
    (oneItem "GAME".toList 7) (oneItem_unique _ 7)
    (oneArchive "zip".toList [⟨"pylibs/a.py".toList, 0, "one".toList⟩])
    (AList.singleton [pylibsZip] (Node.file "zip".toList false)) (isTree_archive _)
  refine ⟨hboth.1.mpr (by decide +kernel), hboth.2 ?_⟩
  intro bytes entries _ hunzip
  have hentries : entries = [⟨"pylibs/a.py".toList, 0, "one".toList⟩] := by
    simp only [oneArchive, Option.ite_none_right_eq_some, Option.some.injEq] at hunzip
    exact hunzip.2.symm
  rw [hentries]
  intro e he _
  rw [List.mem_singleton.mp he]
  decide +kernel

/-- The power is cut between the two renames of `GAME`. -/
theorem lost_between_renames :
    ¬CaseSafe asciiFold (fun _ => ()) (topLevelItems asciiFold ["Game/a.txt".toList] [])
      (oneItem "GAME".toList 7) (plumosInstallPort asciiFold (fun _ => ()) 12
        ["Game/a.txt".toList] [true] (oneItem "GAME".toList 7)).2.2 := by
  intro hsafe
  have hstrands := (caseSafe_iff_strands 12 [true] (oneItem_unique "GAME".toList 7)).mp hsafe
  revert hstrands
  decide +kernel

end Samples

end PlumosBubble.PortMaster
