import PlumosBubble.Update.InboxScan

/-! The records of the update inbox: one for each package, unless a package stops the scan, and
the newest compatible package among them. -/

namespace PlumosBubble.Update.Inbox

open Script

variable {station : Station}

section Compatibility

variable (station)

/-- The comparison with the installed versions stops the scan: a version has a number that is too
long, or a bound of the ABI range is infinite. -/
inductive CompatibilityAborts (fields : Fields) : Prop
  | target {version : Text} : checkSource station fields = .ok version → TooLong version →
    CompatibilityAborts fields
  | installed {version : Text} {key : VersionKey} : checkSource station fields = .ok version →
    semanticVersionKey version = .ok key → TooLong station.version → CompatibilityAborts fields
  | low {version : Text} {systemAbi runtimeAbi : ℤ} {negative : Bool} :
    checkSource station fields = .ok version → compareVersions station version = .ok () →
    station.py.intOfText station.systemAbi = some systemAbi →
    station.py.intOfText station.runtimeAbi = some runtimeAbi →
    field fields "system_abi_min" = some (.float (.infinite negative)) →
    CompatibilityAborts fields
  | high {version : Text} {systemAbi runtimeAbi low : ℤ} {value : Json} {negative : Bool} :
    checkSource station fields = .ok version → compareVersions station version = .ok () →
    station.py.intOfText station.systemAbi = some systemAbi →
    station.py.intOfText station.runtimeAbi = some runtimeAbi →
    field fields "system_abi_min" = some value → station.py.int value = .ok low →
    low ≤ systemAbi → field fields "system_abi_max" = some (.float (.infinite negative)) →
    CompatibilityAborts fields

variable {station}

theorem not_escapes_checkSource (fields : Fields)
    (hvendor : (field fields "vendor_runtime").isSome)
    (hversion : (field fields "version").isSome) :
    ¬Escapes Handled (checkSource station fields) := by
  have hsubscript : ∀ key, (field fields key).isSome →
      ¬Escapes Handled (subscript fields key) := by
    intro key hkey
    obtain ⟨value, hvalue⟩ := Option.isSome_iff_exists.mp hkey
    unfold subscript
    rw [hvalue]
    exact not_escapes_ok value
  unfold checkSource
  simp only [escapes_bind, hsubscript _ hvendor, hsubscript _ hversion, not_escapes_check,
    not_escapes_pure, and_false, exists_false, or_false, not_false_eq_true]

theorem escapes_compareVersions (version : Text) :
    Escapes Handled (compareVersions station version) ↔
      TooLong version ∨ ∃ key, semanticVersionKey version = .ok key ∧ TooLong station.version := by
  unfold compareVersions
  simp only [escapes_bind, escapes_versionKey, versionKey_eq_ok]
  refine or_congr Iff.rfl (exists_congr fun key => and_congr_right fun hkey => ?_)
  constructor
  · rintro (h | ⟨key', hkey', h⟩)
    · exact h
    · split at h
      · rename_i hnone
        exact absurd hnone (keyLt_semanticVersionKey hkey hkey')
      · exact absurd h (not_escapes_check _ _)
  · exact Or.inl

/-- What the ABI range leaves to be raised. -/
def RangeHandled (e : Raised) : Prop := Handled e ∨ e.type ∈ [.keyError, .typeError, .valueError]

theorem escapes_range_int (py : Builtins) (value : Json) :
    Escapes RangeHandled (py.int value) ↔ ∃ negative, value = .float (.infinite negative) := by
  unfold Builtins.int
  rcases value with _ | b | n | (q | negative | _) | t | items | inner
  case str =>
    simp only
    split <;> simp [RangeHandled, Handled]
  all_goals simp [RangeHandled, Handled]

theorem escapes_range_subscript (fields : Fields) (key : String) :
    ¬Escapes RangeHandled (subscript fields key) := by
  unfold subscript
  split
  · exact not_escapes_ok _
  · simp [RangeHandled]

theorem subscript_eq_ok {fields : Fields} {key : String} {value : Json} :
    subscript fields key = .ok value ↔ field fields key = some value := by
  unfold subscript
  split <;> simp_all

theorem escapes_abiCompatible (fields : Fields) (systemAbi : ℤ) :
    Escapes RangeHandled (abiCompatible station fields systemAbi) ↔
      (∃ negative, field fields "system_abi_min" = some (.float (.infinite negative))) ∨
      ∃ value low negative, field fields "system_abi_min" = some value ∧
        station.py.int value = .ok low ∧ low ≤ systemAbi ∧
        field fields "system_abi_max" = some (.float (.infinite negative)) := by
  unfold abiCompatible
  simp only [escapes_bind, escapes_range_subscript, subscript_eq_ok, escapes_range_int, false_or]
  constructor
  · rintro ⟨value, hvalue, ⟨negative, rfl⟩ | ⟨low, hlow, h⟩⟩
    · exact Or.inl ⟨negative, hvalue⟩
    · split at h
      · rename_i hle
        simp only [escapes_bind, escapes_range_subscript, subscript_eq_ok, escapes_range_int,
          not_escapes_pure, and_false, exists_false, or_false, false_or] at h
        obtain ⟨value', hvalue', negative, rfl⟩ := h
        exact Or.inr ⟨value, low, negative, hvalue, hlow, hle, hvalue'⟩
      · exact absurd h (not_escapes_pure _)
  · rintro (⟨negative, hvalue⟩ | ⟨value, low, negative, hvalue, hlow, hle, hhigh⟩)
    · exact ⟨_, hvalue, Or.inl ⟨negative, rfl⟩⟩
    · refine ⟨value, hvalue, Or.inr ⟨low, hlow, ?_⟩⟩
      rw [if_pos hle]
      simp only [escapes_bind, escapes_range_subscript, subscript_eq_ok, escapes_range_int,
        not_escapes_pure, and_false, exists_false, or_false, false_or]
      exact ⟨_, hhigh, negative, rfl⟩

/-- `current_compatibility` raises something else than an `UpdateError` only here. -/
theorem escapes_currentCompatibility (fields : Fields)
    (hvendor : (field fields "vendor_runtime").isSome)
    (hversion : (field fields "version").isSome) :
    Escapes Handled (currentCompatibility station fields) ↔ CompatibilityAborts station fields := by
  unfold currentCompatibility
  simp only [escapes_bind, not_escapes_checkSource fields hvendor hversion, false_or,
    escapes_compareVersions]
  have hrange : (fun e : Raised => Handled (if e.type ∈ [.keyError, .typeError, .valueError] then
      ⟨.updateError, "package ABI metadata is invalid".toList⟩ else e)) = RangeHandled := by
    funext e
    unfold RangeHandled Handled
    split <;> simp_all
  constructor
  · rintro ⟨version, hsource, (htarget | ⟨key, hkey, hinstalled⟩) | ⟨⟨⟩, hcompare, h⟩⟩
    · exact .target hsource htarget
    · exact .installed hsource hkey hinstalled
    · split at h
      · rename_i systemAbi runtimeAbi hsystem hruntime
        simp only [escapes_bind, escapes_mapError, hrange, escapes_abiCompatible,
          not_escapes_check, and_false, exists_false, or_false] at h
        rcases h with ⟨negative, hlow⟩ | ⟨value, low, negative, hvalue, hlow, hle, hhigh⟩
        · exact .low hsource hcompare hsystem hruntime hlow
        · exact .high hsource hcompare hsystem hruntime hvalue hlow hle hhigh
      · exact absurd h (by simp [Handled])
  · intro h
    cases h with
    | target hsource htarget => exact ⟨_, hsource, Or.inl (Or.inl htarget)⟩
    | installed hsource hkey hinstalled =>
      exact ⟨_, hsource, Or.inl (Or.inr ⟨_, hkey, hinstalled⟩)⟩
    | low hsource hcompare hsystem hruntime hlow =>
      refine ⟨_, hsource, Or.inr ⟨(), hcompare, ?_⟩⟩
      rw [hsystem, hruntime]
      simp only [escapes_bind, escapes_mapError, hrange, escapes_abiCompatible,
        not_escapes_check, and_false, exists_false, or_false]
      exact Or.inl ⟨_, hlow⟩
    | high hsource hcompare hsystem hruntime hvalue hlow hle hhigh =>
      refine ⟨_, hsource, Or.inr ⟨(), hcompare, ?_⟩⟩
      rw [hsystem, hruntime]
      simp only [escapes_bind, escapes_mapError, hrange, escapes_abiCompatible,
        not_escapes_check, and_false, exists_false, or_false]
      exact Or.inr ⟨_, _, _, hvalue, hlow, hle, hhigh⟩

end Compatibility

section Scan

variable (station)

/-- A package stops the scan: its time cannot be read; or loading it does; or the comparison with
the installed versions; or, where it is compatible, its digest cannot be made. -/
inductive Aborts (file : InboxFile) : Prop
  | stat : file.mtime = none → Aborts file
  | loading : LoadAborts station file → Aborts file
  | compatibility {fields : Fields} : loadPackage station file = .ok fields →
    CompatibilityAborts station fields → Aborts file
  | digest {fields : Fields} {e : Raised} : loadPackage station file = .ok fields →
    currentCompatibility station fields = .ok () → file.sha256 = .error e → ¬Handled e →
    Aborts file

variable {station}

theorem isText_eq_true {text : Text} {value : Option Json} :
    isText text value = true ↔ value = some (.str text) := by
  unfold isText
  rcases value with _ | (_ | _ | _ | _ | t | _ | _) <;> simp

theorem fields_of_loadPackage {file : InboxFile} {fields : Fields}
    (h : loadPackage station file = .ok fields) :
    field fields "package_type" = some (.str "runtime".toList) ∧
      field fields "vendor_runtime" = some (.str vendorRuntime) ∧
      (field fields "version").isSome ∧ (field fields "payload_uncompressed_bytes").isSome := by
  unfold loadPackage at h
  obtain ⟨-, -, h⟩ := bind_eq_ok_iff.mp h
  obtain ⟨⟨names, manifestBytes, signature⟩, -, h⟩ := bind_eq_ok_iff.mp h
  obtain ⟨manifest, -, h⟩ := bind_eq_ok_iff.mp h
  obtain ⟨-, -, h⟩ := bind_eq_ok_iff.mp h
  cases manifest with
  | dict inner =>
    unfold validateManifest at h
    obtain ⟨⟨declared, declaredBytes⟩, hpayload, h⟩ := bind_eq_ok_iff.mp h
    obtain ⟨-, -, h⟩ := bind_eq_ok_iff.mp h
    obtain ⟨items, -, h⟩ := bind_eq_ok_iff.mp h
    obtain ⟨-, -, h⟩ := bind_eq_ok_iff.mp h
    cases h
    unfold declaredPayload at hpayload
    obtain ⟨u, hheader, -⟩ := bind_eq_ok_iff.mp hpayload
    unfold checkHeader at hheader
    simp only [bind_eq_ok_iff, check_eq_ok, not_not] at hheader
    obtain ⟨-, -, -, htype, -, -, -, hvendor, -, hversion, -, -, hbytes⟩ := hheader
    exact ⟨isText_eq_true.mp htype, isText_eq_true.mp hvendor,
      by simpa [Option.isSome_iff_ne_none] using hversion,
      by simpa [Option.isSome_iff_ne_none] using hbytes⟩
  | _ => cases h

theorem escapes_inspect (file : InboxFile) :
    Escapes Handled (inspect station file) ↔ LoadAborts station file ∨
      (∃ fields, loadPackage station file = .ok fields ∧ CompatibilityAborts station fields) ∨
      ∃ fields e, loadPackage station file = .ok fields ∧
        currentCompatibility station fields = .ok () ∧ file.sha256 = .error e ∧ ¬Handled e := by
  have hsubscript : ∀ {fields : Fields} {key : String}, (field fields key).isSome →
      ¬Escapes Handled (subscript fields key) := by
    intro fields key hkey
    obtain ⟨value, hvalue⟩ := Option.isSome_iff_exists.mp hkey
    unfold subscript
    rw [hvalue]
    exact not_escapes_ok value
  have hbody : ∀ fields, loadPackage station file = .ok fields →
      (Escapes Handled (currentCompatibility station fields >>= fun _ => file.sha256 >>=
        fun sha256 => subscript fields "package_type" >>= fun packageType =>
        subscript fields "version" >>= fun version =>
        subscript fields "payload_uncompressed_bytes" >>= fun payloadUncompressedBytes =>
        pure (Item.mk file.path sha256 packageType version
          ((field fields "source_version").getD (.str ['*'])) payloadUncompressedBytes)) ↔
        CompatibilityAborts station fields ∨ ∃ e, currentCompatibility station fields = .ok () ∧
          file.sha256 = .error e ∧ ¬Handled e) := by
    intro fields hfields
    obtain ⟨htype, hvendor, hversion, hbytes⟩ := fields_of_loadPackage hfields
    simp only [escapes_bind, escapes_currentCompatibility fields (by rw [hvendor]; rfl) hversion,
      hsubscript (by rw [htype]; rfl : (field fields "package_type").isSome),
      hsubscript hversion, hsubscript hbytes, not_escapes_pure, and_false, exists_false, or_false]
    refine or_congr_right ⟨?_, ?_⟩
    · rintro ⟨⟨⟩, hcompatible, e, he, hnot⟩
      exact ⟨e, hcompatible, he, hnot⟩
    · rintro ⟨e, hcompatible, he, hnot⟩
      exact ⟨(), hcompatible, e, he, hnot⟩
  unfold inspect
  rw [escapes_bind, escapes_loadPackage]
  refine or_congr_right ⟨?_, ?_⟩
  · rintro ⟨fields, hfields, h⟩
    rcases (hbody fields hfields).mp h with h | ⟨e, hcompatible, he, hnot⟩
    · exact Or.inl ⟨fields, hfields, h⟩
    · exact Or.inr ⟨fields, e, hfields, hcompatible, he, hnot⟩
  · rintro (⟨fields, hfields, h⟩ | ⟨fields, e, hfields, hcompatible, he, hnot⟩)
    · exact ⟨fields, hfields, (hbody fields hfields).mpr (Or.inl h)⟩
    · exact ⟨fields, hfields, (hbody fields hfields).mpr (Or.inr ⟨e, hcompatible, he, hnot⟩)⟩

theorem aborts_iff (file : InboxFile) :
    Aborts station file ↔ file.mtime = none ∨ Escapes Handled (inspect station file) := by
  rw [escapes_inspect]
  constructor
  · intro h
    cases h with
    | stat h => exact Or.inl h
    | loading h => exact Or.inr (Or.inl h)
    | compatibility hfields h => exact Or.inr (Or.inr (Or.inl ⟨_, hfields, h⟩))
    | digest hfields hcompatible he hnot =>
      exact Or.inr (Or.inr (Or.inr ⟨_, _, hfields, hcompatible, he, hnot⟩))
  · rintro (h | h | ⟨fields, hfields, h⟩ | ⟨fields, e, hfields, hcompatible, he, hnot⟩)
    · exact .stat h
    · exact .loading h
    · exact .compatibility hfields h
    · exact .digest hfields hcompatible he hnot

/-- The record that a package should have. -/
def Reports (station : Station) (file : InboxFile) (record : PackageRecord) : Prop :=
  ∃ mtime, file.mtime = some mtime ∧
    ((∃ item, inspect station file = .ok item ∧ record = .package item mtime) ∨
      (∀ item, inspect station file ≠ .ok item) ∧ ∃ error, record = .invalid file.path error mtime)

theorem scanFile_iff (file : InboxFile) :
    (∃ record, scanFile station file = .ok record ∧ Reports station file record) ↔
      ¬Aborts station file := by
  rw [aborts_iff]
  unfold scanFile Reports InboxFile.stat
  cases hinspect : inspect station file with
  | ok item =>
    cases hmtime : file.mtime with
    | none => simp [Except.map]
    | some mtime => simp [Except.map]
  | error e =>
    by_cases hhandled : e.type = .updateError
    · cases hmtime : file.mtime with
      | none => simp [hhandled, Except.map]
      | some mtime => simp [hhandled, Except.map, Handled]
    · simp [hhandled, Handled]

theorem not_aborts_of_scanFile {file : InboxFile} {record : PackageRecord}
    (h : scanFile station file = .ok record) : ¬Aborts station file := by
  rw [aborts_iff]
  unfold scanFile InboxFile.stat at h
  cases hinspect : inspect station file with
  | ok item =>
    rw [hinspect] at h
    cases hmtime : file.mtime with
    | none =>
      rw [hmtime] at h
      cases h
    | some mtime => simp
  | error e =>
    rw [hinspect] at h
    simp only at h
    split at h
    · rename_i hhandled
      cases hmtime : file.mtime with
      | none =>
        rw [hmtime] at h
        cases h
      | some mtime => simp [Handled, hhandled]
    · cases h

end Scan

section Records

/-- A package that passes its inspection. -/
def Compatible (station : Station) (file : InboxFile) : Prop :=
  ∃ item, inspect station file = .ok item

/-- The scan gives one record for each package, in the order of the paths, and the newest
compatible package is the one that is requested. -/
def HidesNothing (station : Station) (files : List InboxFile) : Prop :=
  ∃ records, scanPackages station files = .ok records ∧
    List.Forall₂ (Reports station) (sortedFiles files) records ∧
    ((∃ file ∈ files, Compatible station file) →
      ∃ newest ∈ files, Compatible station newest ∧ latestPath records = .ok newest.path ∧
        ∀ file ∈ files, Compatible station file → ∀ mtime latest,
          file.mtime = some mtime → newest.mtime = some latest → mtime ≤ latest)

theorem mem_sortedFiles {files : List InboxFile} {file : InboxFile} :
    file ∈ sortedFiles files ↔ file ∈ files := List.mem_mergeSort

theorem exists_forall₂ {α β : Type*} {r : α → β → Prop} {l : List α}
    (h : ∀ a ∈ l, ∃ b, r a b) : ∃ bs, List.Forall₂ r l bs := by
  induction l with
  | nil => exact ⟨[], .nil⟩
  | cons a l ih =>
    obtain ⟨b, hb⟩ := h a List.mem_cons_self
    obtain ⟨bs, hbs⟩ := ih fun a ha => h a (List.mem_cons_of_mem _ ha)
    exact ⟨b :: bs, .cons hb hbs⟩

theorem item_of_inspect {file : InboxFile} {item : Item}
    (h : inspect station file = .ok item) :
    item.path = file.path ∧ item.packageType = .str "runtime".toList := by
  unfold inspect at h
  obtain ⟨fields, hfields, h⟩ := bind_eq_ok_iff.mp h
  obtain ⟨-, -, h⟩ := bind_eq_ok_iff.mp h
  obtain ⟨digest, -, h⟩ := bind_eq_ok_iff.mp h
  obtain ⟨packageType, htype, h⟩ := bind_eq_ok_iff.mp h
  obtain ⟨version, -, h⟩ := bind_eq_ok_iff.mp h
  obtain ⟨bytes, -, h⟩ := bind_eq_ok_iff.mp h
  cases h
  rw [subscript_eq_ok, (fields_of_loadPackage hfields).1] at htype
  cases htype
  exact ⟨rfl, rfl⟩

theorem mem_candidates {files : List InboxFile} {records : List PackageRecord}
    (h : List.Forall₂ (Reports station) files records) {item : Item} {mtime : ℤ} :
    (item, mtime) ∈ records.filterMap PackageRecord.candidate ↔
      ∃ file ∈ files, inspect station file = .ok item ∧ file.mtime = some mtime := by
  induction h with
  | nil => simp
  | cons hreports _ ih =>
    obtain ⟨time, htime, ⟨other, hother, rfl⟩ | ⟨hnot, error, rfl⟩⟩ := hreports
    · have htype := (item_of_inspect hother).2
      have hcandidate : (PackageRecord.package other time).candidate = some (other, time) := by
        show (if truthy other.packageType then some (other, time) else none) = _
        rw [htype]
        rfl
      rw [List.filterMap_cons_some hcandidate, List.mem_cons, ih, List.exists_mem_cons_iff,
        hother, htime]
      simp [eq_comm]
    · have hcandidate : ∀ path, (PackageRecord.invalid path error time).candidate = none :=
        fun path => rfl
      rw [List.filterMap_cons_none (hcandidate _), ih, List.exists_mem_cons_iff]
      simp [hnot]

theorem newestOf_eq_none {candidates : List (Item × ℤ)} (h : newestOf candidates = none) :
    candidates = [] := by
  cases candidates with
  | nil => rfl
  | cons candidate rest =>
    unfold newestOf at h
    split at h
    · cases h
    · split at h <;> cases h

theorem newestOf_eq_some {candidates : List (Item × ℤ)} {newest : Item × ℤ}
    (h : newestOf candidates = some newest) :
    newest ∈ candidates ∧ ∀ candidate ∈ candidates, candidate.2 ≤ newest.2 := by
  induction candidates generalizing newest with
  | nil => cases h
  | cons candidate rest ih =>
    unfold newestOf at h
    split at h
    · rename_i hnone
      cases h
      rw [newestOf_eq_none hnone]
      simp
    · rename_i best hbest
      obtain ⟨hmem, hle⟩ := ih hbest
      split at h
      · rename_i hlt
        cases h
        exact ⟨List.mem_cons_of_mem _ hmem, List.forall_mem_cons.mpr ⟨Int.le_of_lt hlt, hle⟩⟩
      · rename_i hlt
        cases h
        refine ⟨List.mem_cons_self, List.forall_mem_cons.mpr ⟨Int.le_refl _, ?_⟩⟩
        exact fun other hother => (hle other hother).trans (Int.not_lt.mp hlt)

theorem latestPath_newest {files : List InboxFile} {records : List PackageRecord}
    (h : List.Forall₂ (Reports station) files records)
    (hsome : ∃ file ∈ files, Compatible station file) :
    ∃ newest ∈ files, Compatible station newest ∧ latestPath records = .ok newest.path ∧
      ∀ file ∈ files, Compatible station file → ∀ mtime latest,
        file.mtime = some mtime → newest.mtime = some latest → mtime ≤ latest := by
  have htimed : ∀ file ∈ files, ∃ mtime, file.mtime = some mtime := by
    clear hsome
    induction h with
    | nil => simp
    | cons hreports _ ih =>
      obtain ⟨time, htime, -⟩ := hreports
      exact List.forall_mem_cons.mpr ⟨⟨time, htime⟩, ih⟩
  unfold latestPath
  cases hmax : newestOf (records.filterMap PackageRecord.candidate) with
  | none =>
    obtain ⟨file, hfile, item, hitem⟩ := hsome
    obtain ⟨mtime, hmtime⟩ := htimed file hfile
    have hmem := (mem_candidates h).mpr ⟨file, hfile, hitem, hmtime⟩
    rw [newestOf_eq_none hmax] at hmem
    exact absurd hmem List.not_mem_nil
  | some found =>
    obtain ⟨item, latest⟩ := found
    obtain ⟨hfound, hle⟩ := newestOf_eq_some hmax
    obtain ⟨newest, hnewest, hitem, hlatest⟩ := (mem_candidates h).mp hfound
    refine ⟨newest, hnewest, ⟨item, hitem⟩, ?_, ?_⟩
    · rw [← (item_of_inspect hitem).1]
    · rintro file hfile ⟨other, hother⟩ mtime latest' hmtime hlatest'
      have hmem := (mem_candidates h).mpr ⟨file, hfile, hother, hmtime⟩
      rw [hlatest] at hlatest'
      cases hlatest'
      exact hle _ hmem

theorem HidesNothing.not_aborts {files : List InboxFile} (h : HidesNothing station files)
    {file : InboxFile} (hfile : file ∈ files) : ¬Aborts station file := by
  obtain ⟨records, hscan, -, -⟩ := h
  have hall := mapM_eq_ok_iff.mp hscan
  obtain ⟨i, hi, heq⟩ := List.getElem_of_mem (mem_sortedFiles.mpr hfile)
  have hrecord := hall.get hi (hall.length_eq ▸ hi)
  rw [List.get_eq_getElem, heq] at hrecord
  exact not_aborts_of_scanFile hrecord

/-- An installation of 1.0.0 that has its key and a working `openssl`. -/
def sampleStation (manifest : Json) : Station where
  py := ⟨fun _ => [], parseInt⟩
  loads _ := .ok manifest
  allowUnsigned := false
  publicKey := true
  publicKeyPath := "share/update/plumos-bubble-update-public.pem".toList
  openssl _ _ := .ok true
  compatVendor := vendorRuntime
  version := "1.0.0".toList
  systemAbi := ['1']
  runtimeAbi := ['1']
  allowExternal := false
  underInbox _ := true

/-- The manifest of an update to 1.1.0 with one file. -/
def sampleManifest : Json :=
  .dict [("format".toList, .int 1),
    ("package_type".toList, .str "runtime".toList),
    ("device_id".toList, .str deviceId),
    ("architecture".toList, .str architecture),
    ("vendor_runtime".toList, .str vendorRuntime),
    ("version".toList, .str "1.1.0".toList),
    ("source_version".toList, .str ['*']),
    ("payload_uncompressed_bytes".toList, .int 3),
    ("system_abi_min".toList, .int 1),
    ("system_abi_max".toList, .int 1),
    ("files".toList, .list [.dict [("path".toList, .str "bin/plumos-text-ui".toList),
      ("type".toList, .str "file".toList),
      ("size".toList, .int 3)]])]

/-- A package that can be read. -/
def samplePackage : InboxFile where
  path := "plumos-bubble-1.1.0.tar.gz".toList
  isFile := true
  members := .ok (["META/manifest.json", "META/manifest.sig", "payload/bin/plumos-text-ui"].map
    fun name => ⟨name.toList, .file []⟩)
  extractfile _ := .ok (some (.ok []))
  sha256 := .ok []
  mtime := some 1

/-- A package whose compressed data ends early. -/
def truncatedPackage : InboxFile :=
  { samplePackage with
    path := "plumos-bubble-1.0.1.tar.gz".toList
    members := .error ⟨.eofError, "Compressed file ended before the end-of-stream marker".toList⟩ }

end Records

end PlumosBubble.Update.Inbox
