import PlumosBubble.Frontend.Json
import PlumosBubble.Sequence.FirstHit

/-! Which launch profile GGFE takes, after `plumos_ggfe_launch.h`: the catalogue of a system, the
profiles of it that are on the device, and the layers that may name one. The table of the
catalogue ends after `GGFE_MAX_PROFILES`. -/

namespace PlumosBubble.Ggfe

open Frontend Sequence

/-- `enum ggfe_runtime`. -/
inductive Runtime where
  | unknown
  | retroarch
  | picoarch
  | standalone
  deriving DecidableEq

/-- What `ggfe_runtime_of` looks for at the start. -/
def runtimeKinds : List (CString × Runtime) :=
  [(lit "retroarch:", .retroarch), (lit "picoarch:", .picoarch), (lit "standalone:", .standalone)]

/-- `ggfe_runtime_of`, with the core in a buffer of 96 bytes. -/
def runtimeOf (profile : CString) : Runtime × CString :=
  (runtimeKinds.findSome? fun kind =>
    ((afterStart kind.1 profile).filter fun core => core ≠ []).map fun core =>
      (kind.2, copied 96 core)).getD (.unknown, [])

/-- `struct ggfe_profile`. -/
structure Profile where
  id : Buffer 128
  runtime : Runtime
  core : CString
  available : Bool
  reason : CString

/-- `GGFE_MAX_PROFILES`. -/
def maxProfiles : ℕ := 12

/-- `struct ggfe_catalog`. -/
structure Catalog where
  systemId : CString
  profiles : List Profile
  defaultProfile : Buffer 128

section Catalog

/-- `ggfe_read_file`: a file of more than 1 MiB is not read. -/
def readFile (file : Option CString) : Option CString :=
  file.filter fun text => text.length ≤ 2 ^ 20

/-- A profile that was read. -/
def readProfile (id : Buffer 128) : Profile where
  id := id
  runtime := (runtimeOf id.text).1
  core := (runtimeOf id.text).2
  available := false
  reason := []

/-- The strings of an array, for as many rounds as are given. -/
def arrayIds : ℕ → CString → List (Buffer 128)
  | 0, _ => []
  | n + 1, body =>
    match jsonNextString 128 body with
    | .found id rest => id :: arrayIds n rest
    | .cleared | .untouched => []

/-- The loop over the profiles, for as many rounds as are given. -/
def readProfiles : ℕ → CString → List Profile → List Profile
  | 0, _, profiles => profiles
  | n + 1, body, profiles =>
    if maxProfiles ≤ profiles.length then profiles
    else
      match jsonNextString 128 body with
      | .found id rest =>
        readProfiles n rest
          (if (runtimeOf id.text).1 = .unknown then profiles else profiles ++ [readProfile id])
      | .cleared | .untouched => profiles

/-- The object of a system in `systems.json`. -/
def systemObject (text systemId : CString) : Option CString :=
  (jsonFindArray (lit "systems") text).bind fun body =>
    (jsonObjects body).find? fun object =>
      match jsonGetString 64 (lit "id") object with
      | .found id _ => id.text = systemId
      | .cleared | .untouched => false

/-- `ggfe_catalog_load`: the catalogue, and whether the system was found. -/
def catalogLoad (systemsJson : Option CString) (systemId : CString) : Catalog × Bool :=
  match (readFile systemsJson).bind fun text => systemObject text systemId with
  | none => (⟨copied 64 systemId, [], .empty⟩, false)
  | some object =>
    ({ systemId := copied 64 systemId
       profiles :=
        match jsonFindArray (lit "launch_profiles") object with
        | none => []
        | some body => readProfiles body.length body []
       defaultProfile :=
        (jsonGetString 128 (lit "default_launch_profile") object).into .empty }, true)

/-- The profiles that `systems.json` lists for a system. -/
def listedIds (systemsJson : Option CString) (systemId : CString) : List (Buffer 128) :=
  match ((readFile systemsJson).bind fun text => systemObject text systemId).bind
      (jsonFindArray (lit "launch_profiles")) with
  | none => []
  | some body => arrayIds body.length body

variable (isRegularFile : CString → Bool) (plumosRoot : CString)

/-- A file of the root is there. -/
def packaged (rel : CString) : Bool := (joinPath pathMax plumosRoot rel).any isRegularFile

/-- Why a profile cannot run; empty if it can. -/
def unavailableReason (p : Profile) : CString :=
  let corePackaged := packaged isRegularFile plumosRoot
    (lit "cores/" ++ p.core ++ lit "_libretro.so")
  let coreReason := (lit "core not packaged: " ++ p.core).take 95
  match p.runtime with
  | .unknown => lit "unknown runtime"
  | .retroarch => if corePackaged then [] else coreReason
  | .picoarch =>
    if !corePackaged then coreReason
    else if packaged isRegularFile plumosRoot (lit "picoarch/bin/picoarch") then []
    else lit "picoarch not packaged"
  | .standalone =>
    if packaged isRegularFile plumosRoot (lit "bin/plumos-standalone-launch") then []
    else lit "standalone not packaged"

/-- `ggfe_probe_profiles`. -/
def probeProfiles (catalog : Catalog) : Catalog :=
  { catalog with profiles := catalog.profiles.map fun p =>
      { p with
        available := unavailableReason isRegularFile plumosRoot p = []
        reason := unavailableReason isRegularFile plumosRoot p } }

/-- The profile with this id is on the device. -/
def isAvailable (id : Buffer 128) : Bool :=
  unavailableReason isRegularFile plumosRoot (readProfile id) = []

end Catalog

section Choice

/-- `struct ggfe_profile_override` of a ROM. -/
structure ProfileOverride where
  relativePath : Buffer 4096
  launchProfile : Buffer 128

/-- `struct ggfe_override_set`. -/
structure OverrideSet where
  hasSystem : Bool
  systemProfile : Buffer 128
  rom : List ProfileOverride

/-- The fields of `struct ggfe_config` that the choice reads. -/
structure LaunchConfig where
  launchProfile : Buffer 128
  usePlumosOverrides : Bool
  launchPrefer : List (Buffer 128)

/-- `struct ggfe_launch_choice`. -/
structure LaunchChoice where
  profile : Option Profile
  source : CString

/-- `ggfe_profile_find`. -/
def profileFind (catalog : Catalog) (id : Option CString) : Option Profile :=
  (id.filter fun id => id ≠ []).bind fun id => catalog.profiles.find? fun p => p.id.text = id

/-- `ggfe_override_for_rom`. -/
def overrideForRom (set : OverrideSet) (romRel : CString) : Option CString :=
  (set.rom.find? fun entry => entry.relativePath.text = romRel).map fun entry =>
    entry.launchProfile.text

/-- A string, if it is not empty. -/
def given (b : Buffer 128) : Option CString := if b.nonempty then some b.text else none

/-- One place that may name a profile. -/
structure Layer where
  id : Option CString
  source : CString
  deriving DecidableEq

variable (config : LaunchConfig) (defaultProfile : Buffer 128) (ggfe plumos : OverrideSet)
  (romRel : CString)

/-- The array `chain` of `ggfe_choose_profile`. -/
def chain : List Layer :=
  [⟨overrideForRom ggfe romRel, lit "ggfe rom override"⟩] ++
  (if config.usePlumosOverrides then [⟨overrideForRom plumos romRel, lit "plumos rom override"⟩]
    else []) ++
  [⟨given config.launchProfile, lit "ggfe system default"⟩] ++
  (if config.usePlumosOverrides then
    [⟨if plumos.hasSystem then some plumos.systemProfile.text else none,
      lit "plumos system override"⟩]
    else []) ++
  [⟨given defaultProfile, lit "systems.json default"⟩]

/-- `ggfe_choose_profile`; it returns whether there is a profile. -/
def chooseProfile (catalog : Catalog) : LaunchChoice :=
  let usable (id : Option CString) := (profileFind catalog id).filter fun p => p.available
  match (chain config catalog.defaultProfile ggfe plumos romRel).findSome? fun layer =>
      (usable layer.id).map fun p => (⟨some p, layer.source⟩ : LaunchChoice) with
  | some choice => choice
  | none =>
    match config.launchPrefer.findSome? fun id => usable (some id.text) with
    | some p => ⟨some p, lit "ggfe preference"⟩
    | none =>
      match catalog.profiles.find? fun p => p.available with
      | some p => ⟨some p, lit "first available"⟩
      | none => ⟨none, lit "none available"⟩

/-- All layers in their order, for a system with these profiles. -/
def layers (listed : List (Buffer 128)) : List Layer :=
  chain config defaultProfile ggfe plumos romRel ++
    config.launchPrefer.map (fun id => ⟨some id.text, lit "ggfe preference"⟩) ++
    listed.map fun id => ⟨some id.text, lit "first available"⟩

/-- The layer names a profile that is listed and on the device. -/
def Layer.usable (listed : List (Buffer 128)) (available : Buffer 128 → Bool) (layer : Layer) :
    Bool :=
  listed.any fun id => available id && layer.id = some id.text

/-- The layer that a choice was made by. -/
def LaunchChoice.layer (choice : LaunchChoice) : Option Layer :=
  choice.profile.map fun p => ⟨some p.id.text, choice.source⟩

end Choice

section Table

/-- GGFE has a runtime for the profile. -/
def isKnown (id : Buffer 128) : Bool := (runtimeOf id.text).1 ≠ .unknown

/-- The profiles that the table takes. -/
def tableIds (listed : List (Buffer 128)) : List (Buffer 128) :=
  (listed.filter isKnown).take maxProfiles

theorem readProfiles_eq (n : ℕ) (body : CString) {profiles : List Profile}
    (h : profiles.length ≤ maxProfiles) : readProfiles n body profiles =
      (profiles ++ ((arrayIds n body).filter isKnown).map readProfile).take maxProfiles := by
  induction n generalizing body profiles with
  | zero => simp [readProfiles, arrayIds, List.take_of_length_le h]
  | succ n ih =>
    unfold readProfiles arrayIds
    by_cases hfull : maxProfiles ≤ profiles.length
    · have hlength : profiles.length = maxProfiles := Nat.le_antisymm h hfull
      rw [if_pos hfull, ← hlength, List.take_left' rfl]
    · rw [if_neg hfull]
      cases jsonNextString 128 body with
      | found id rest =>
        by_cases hknown : (runtimeOf id.text).1 = .unknown
        · have hnot : ¬isKnown id = true := by simp [isKnown, hknown]
          simp only [if_pos hknown]
          rw [ih rest h, List.filter_cons_of_neg hnot]
        · have hyes : isKnown id = true := by simp [isKnown, hknown]
          have hroom : (profiles ++ [readProfile id]).length ≤ maxProfiles := by
            rw [List.length_append, List.length_singleton]
            omega
          simp only [if_neg hknown]
          rw [ih rest hroom, List.filter_cons_of_pos hyes, List.map_cons, List.append_assoc,
            List.singleton_append]
      | cleared => simp [List.take_of_length_le h]
      | untouched => simp [List.take_of_length_le h]

theorem profiles_catalogLoad (systemsJson : Option CString) (systemId : CString) :
    (catalogLoad systemsJson systemId).1.profiles =
      (tableIds (listedIds systemsJson systemId)).map readProfile := by
  unfold catalogLoad listedIds tableIds
  cases (readFile systemsJson).bind fun text => systemObject text systemId with
  | none => rfl
  | some object =>
    simp only [Option.bind_some]
    cases jsonFindArray (lit "launch_profiles") object with
    | none => rfl
    | some body =>
      simp only
      rw [readProfiles_eq _ _ (Nat.zero_le _), List.nil_append, List.map_take]

variable {isRegularFile : CString → Bool} {plumosRoot : CString}

/-- A profile of the catalogue that was probed. -/
def probed (isRegularFile : CString → Bool) (plumosRoot : CString) (id : Buffer 128) : Profile :=
  { readProfile id with
    available := isAvailable isRegularFile plumosRoot id
    reason := unavailableReason isRegularFile plumosRoot (readProfile id) }

theorem profiles_probeProfiles (systemsJson : Option CString) (systemId : CString) :
    (probeProfiles isRegularFile plumosRoot (catalogLoad systemsJson systemId).1).profiles =
      (tableIds (listedIds systemsJson systemId)).map (probed isRegularFile plumosRoot) := by
  unfold probeProfiles
  simp only [profiles_catalogLoad, List.map_map]
  rfl

theorem isKnown_of_isAvailable {id : Buffer 128}
    (h : isAvailable isRegularFile plumosRoot id = true) : isKnown id = true := by
  unfold isKnown
  by_contra hnot
  have hunknown : (readProfile id).runtime = .unknown := by simpa [readProfile] using hnot
  have hreason : lit "unknown runtime" ≠ [] := by decide
  simp [isAvailable, unavailableReason, hunknown, hreason] at h

theorem nonempty_of_isKnown {id : Buffer 128} (h : isKnown id = true) : id.text ≠ [] := by
  intro hnil
  have hnone : (runtimeOf []).1 = .unknown := by decide
  simp [isKnown, hnil, hnone] at h

theorem mem_of_mem_tableIds {listed : List (Buffer 128)} {id : Buffer 128}
    (h : id ∈ tableIds listed) : id ∈ listed ∧ isKnown id = true :=
  List.mem_filter.mp (List.mem_of_mem_take h)

end Table

section Order

variable {isRegularFile : CString → Bool} {plumosRoot : CString} {catalog : Catalog}
  {table : List (Buffer 128)}

local instance : DecidableEq (Buffer 128) := fun a b =>
  decidable_of_iff (a.text = b.text) ⟨Buffer.eq_of_text, congrArg Buffer.text⟩

theorem taken_eq (hcatalog : catalog.profiles = table.map (probed isRegularFile plumosRoot))
    (hknown : ∀ id ∈ table, isKnown id = true) (layer : Layer) :
    (((profileFind catalog layer.id).filter fun p => p.available).map fun p =>
        (⟨some p, layer.source⟩ : LaunchChoice)).bind LaunchChoice.layer =
      if layer.usable table (isAvailable isRegularFile plumosRoot) then some layer else none := by
  cases hid : layer.id with
  | none => simp [profileFind, Layer.usable, hid]
  | some text =>
    have hfind : profileFind catalog (some text) =
        (table.find? fun id => id.text = text).map (probed isRegularFile plumosRoot) := by
      unfold profileFind
      by_cases hnil : text = []
      · have hnone : (table.find? fun id => id.text = text) = none := by
          rw [List.find?_eq_none]
          intro id hid
          simpa [hnil] using nonempty_of_isKnown (hknown id hid)
        rw [hnone, hnil]
        rfl
      · simp only [Option.filter_some, ne_eq, hnil, not_false_eq_true, decide_true, if_true,
          Option.bind_some, hcatalog, List.find?_map]
        rfl
    rw [hfind]
    cases hfound : table.find? fun id => id.text = text with
    | none =>
      have hnot : layer.usable table (isAvailable isRegularFile plumosRoot) = false := by
        rw [← Bool.not_eq_true]
        intro husable
        obtain ⟨id, hmem, hboth⟩ := List.any_eq_true.mp husable
        have hnone := List.find?_eq_none.mp hfound id hmem
        simp only [Bool.and_eq_true, decide_eq_true_eq, hid, Option.some.injEq] at hboth
        simp [hboth.2] at hnone
      simp [hnot]
    | some id =>
      have htext : id.text = text := by simpa using List.find?_some hfound
      have hmem := List.mem_of_find?_eq_some hfound
      have hiff : layer.usable table (isAvailable isRegularFile plumosRoot) =
          isAvailable isRegularFile plumosRoot id := by
        rw [Bool.eq_iff_iff]
        constructor
        · intro husable
          obtain ⟨other, -, hboth⟩ := List.any_eq_true.mp husable
          simp only [Bool.and_eq_true, decide_eq_true_eq, hid, Option.some.injEq] at hboth
          rw [Buffer.eq_of_text (htext.trans hboth.2)]
          exact hboth.1
        · intro havailable
          apply List.any_eq_true.mpr
          exact ⟨id, hmem, by simp [havailable, hid, htext]⟩
      rw [hiff]
      cases havailable : isAvailable isRegularFile plumosRoot id with
      | false => simp [probed, havailable]
      | true =>
        have hlayer : (⟨some id.text, layer.source⟩ : Layer) = layer := by
          rw [htext, ← hid]
        have hfilter : (some (probed isRegularFile plumosRoot id)).filter (fun p => p.available) =
            some (probed isRegularFile plumosRoot id) := by
          rw [Option.filter_some]
          exact if_pos havailable
        rw [Option.map_some, hfilter]
        exact congrArg some hlayer

theorem layer_of_findSome {l : List Layer}
    (hcatalog : catalog.profiles = table.map (probed isRegularFile plumosRoot))
    (hknown : ∀ id ∈ table, isKnown id = true) :
    (l.findSome? fun layer =>
      ((profileFind catalog layer.id).filter fun p => p.available).map fun p =>
        (⟨some p, layer.source⟩ : LaunchChoice)).bind LaunchChoice.layer =
      l.find? fun layer => layer.usable table (isAvailable isRegularFile plumosRoot) := by
  induction l with
  | nil => rfl
  | cons layer l ih =>
    have htaken := taken_eq hcatalog hknown layer
    rw [List.findSome?_cons, List.find?_cons]
    cases husable : layer.usable table (isAvailable isRegularFile plumosRoot) with
    | true =>
      rw [husable, if_pos rfl] at htaken
      cases hchoice : ((profileFind catalog layer.id).filter fun p => p.available).map fun p =>
          (⟨some p, layer.source⟩ : LaunchChoice) with
      | none =>
        rw [hchoice] at htaken
        cases htaken
      | some choice =>
        rw [hchoice] at htaken
        exact htaken
    | false =>
      rw [husable, if_neg (by decide)] at htaken
      cases hprofile : (profileFind catalog layer.id).filter fun p => p.available with
      | none => exact ih
      | some p =>
        rw [hprofile] at htaken
        cases htaken

theorem usable_listed {available : Buffer 128 → Bool} {id : Buffer 128} (hid : id ∈ table)
    (source : CString) :
    Layer.usable table available ⟨some id.text, source⟩ = available id := by
  rw [Bool.eq_iff_iff]
  unfold Layer.usable
  constructor
  · intro h
    obtain ⟨other, -, hboth⟩ := List.any_eq_true.mp h
    simp only [Bool.and_eq_true, decide_eq_true_eq, Option.some.injEq] at hboth
    rw [Buffer.eq_of_text hboth.2]
    exact hboth.1
  · intro h
    exact List.any_eq_true.mpr ⟨id, hid, by simp [h]⟩

variable {config : LaunchConfig} {ggfe plumos : OverrideSet} {romRel : CString}

theorem layer_chooseProfile
    (hcatalog : catalog.profiles = table.map (probed isRegularFile plumosRoot))
    (hknown : ∀ id ∈ table, isKnown id = true) :
    (chooseProfile config ggfe plumos romRel catalog).layer =
      (layers config catalog.defaultProfile ggfe plumos romRel table).find? fun layer =>
        layer.usable table (isAvailable isRegularFile plumosRoot) := by
  have hchain := @layer_of_findSome _ _ _ _
    (chain config catalog.defaultProfile ggfe plumos romRel) hcatalog hknown
  have hprefer := @layer_of_findSome _ _ _ _
    (config.launchPrefer.map fun id => (⟨some id.text, lit "ggfe preference"⟩ : Layer))
    hcatalog hknown
  have hlisted : ((table.map fun id => (⟨some id.text, lit "first available"⟩ : Layer)).find?
      fun layer => layer.usable table (isAvailable isRegularFile plumosRoot)) =
        (table.find? (isAvailable isRegularFile plumosRoot)).map fun id =>
          (⟨some id.text, lit "first available"⟩ : Layer) := by
    rw [List.find?_map]
    congr 1
    apply List.find?_congr
    intro id hid
    exact usable_listed hid _
  rw [List.findSome?_map] at hprefer
  unfold layers
  rw [List.find?_append, List.find?_append, ← hchain, ← hprefer, hlisted]
  unfold chooseProfile
  simp only
  cases hfirst : (chain config catalog.defaultProfile ggfe plumos romRel).findSome? fun layer =>
      ((profileFind catalog layer.id).filter fun p => p.available).map fun p =>
        (⟨some p, layer.source⟩ : LaunchChoice) with
  | some choice =>
    obtain ⟨layer, -, hchoice⟩ := List.exists_of_findSome?_eq_some hfirst
    obtain ⟨p, -, rfl⟩ := Option.map_eq_some_iff.mp hchoice
    rfl
  | none =>
    have hpull : (config.launchPrefer.findSome? ((fun layer : Layer =>
        ((profileFind catalog layer.id).filter fun p => p.available).map fun p =>
          (⟨some p, layer.source⟩ : LaunchChoice)) ∘ fun id => ⟨some id.text,
            lit "ggfe preference"⟩)) =
        (config.launchPrefer.findSome? fun id =>
          (profileFind catalog (some id.text)).filter fun p => p.available).map fun p =>
            (⟨some p, lit "ggfe preference"⟩ : LaunchChoice) := by
      rw [List.map_findSome?]
      rfl
    rw [hpull]
    cases config.launchPrefer.findSome? fun id =>
        (profileFind catalog (some id.text)).filter fun p => p.available with
    | some p => rfl
    | none =>
      have hfind : (catalog.profiles.find? fun p => p.available) =
          (table.find? (isAvailable isRegularFile plumosRoot)).map
            (probed isRegularFile plumosRoot) := by
        rw [hcatalog, List.find?_map]
        rfl
      simp only [hfind, Option.map_none, Option.bind_none, Option.none_or]
      cases table.find? (isAvailable isRegularFile plumosRoot) with
      | some id => rfl
      | none => rfl

variable {listed : List (Buffer 128)}

theorem usable_mono {available : Buffer 128 → Bool} {layer : Layer}
    (h : layer.usable (tableIds listed) available = true) :
    layer.usable listed available = true := by
  obtain ⟨id, hid, hboth⟩ := List.any_eq_true.mp h
  exact List.any_eq_true.mpr ⟨id, (mem_of_mem_tableIds hid).1, hboth⟩

theorem find_table (defaultProfile : Buffer 128) :
    ((layers config defaultProfile ggfe plumos romRel (tableIds listed)).find? fun layer =>
      layer.usable (tableIds listed) (isAvailable isRegularFile plumosRoot)) =
    (layers config defaultProfile ggfe plumos romRel listed).find? fun layer =>
      layer.usable (tableIds listed) (isAvailable isRegularFile plumosRoot) := by
  unfold layers
  simp only [List.find?_append]
  congr 1
  rw [List.find?_map, List.find?_map]
  congr 1
  have hsame : ∀ x y : Buffer 128, x.text = y.text →
      Layer.usable (tableIds listed) (isAvailable isRegularFile plumosRoot)
        ⟨some x.text, lit "first available"⟩ =
      Layer.usable (tableIds listed) (isAvailable isRegularFile plumosRoot)
        ⟨some y.text, lit "first available"⟩ := by
    intro x y hxy
    rw [hxy]
  apply find?_take_filter hsame
  · intro x _ hx
    obtain ⟨y, hy, hboth⟩ := List.any_eq_true.mp hx
    simp only [Bool.and_eq_true, decide_eq_true_eq, Option.some.injEq] at hboth
    have heq := Buffer.eq_of_text hboth.2
    exact ⟨heq ▸ isKnown_of_isAvailable hboth.1, y, hy, hboth.2.symm⟩

/-- The catalogue that the choice is made from. -/
def probedCatalog (isRegularFile : CString → Bool) (plumosRoot : CString)
    (systemsJson : Option CString) (systemId : CString) : Catalog :=
  probeProfiles isRegularFile plumosRoot (catalogLoad systemsJson systemId).1

/-- The layers of a ROM, with all profiles that `systems.json` lists. -/
def allLayers (systemsJson : Option CString) (systemId : CString) (config : LaunchConfig)
    (ggfe plumos : OverrideSet) (romRel : CString) : List Layer :=
  layers config (catalogLoad systemsJson systemId).1.defaultProfile ggfe plumos romRel
    (listedIds systemsJson systemId)

/-- The choice follows the documented order: the first layer of all that names a listed profile
that is on the device makes it, and there is none exactly if no listed profile is there. -/
structure FollowsOrder (choice : LaunchChoice) (all : List Layer) (listed : List (Buffer 128))
    (available : Buffer 128 → Bool) : Prop where
  earliest : choice.layer = all.find? fun layer => layer.usable listed available
  none_iff : choice.profile = none ↔ ∀ id ∈ listed, available id = false

/-- Every layer whose profile is usable, but not in the table, comes behind one with a profile
that is in the table and usable. -/
def TableSuffices (all : List Layer) (listed : List (Buffer 128))
    (available : Buffer 128 → Bool) : Prop :=
  ∀ before layer after, all = before ++ layer :: after → layer.usable listed available = true →
    layer.usable (tableIds listed) available = false →
    ∃ earlier ∈ before, earlier.usable (tableIds listed) available = true

theorem find_layers_eq_none {available : Buffer 128 → Bool} (defaultProfile : Buffer 128) :
    ((layers config defaultProfile ggfe plumos romRel listed).find? fun layer =>
      layer.usable listed available) = none ↔ ∀ id ∈ listed, available id = false := by
  rw [List.find?_eq_none]
  constructor
  · intro h id hid
    have hlayer : (⟨some id.text, lit "first available"⟩ : Layer) ∈
        layers config defaultProfile ggfe plumos romRel listed :=
      List.mem_append_right _ (List.mem_map_of_mem hid)
    have hnot := h _ hlayer
    rw [usable_listed hid] at hnot
    simpa using hnot
  · intro h layer _ husable
    obtain ⟨id, hid, hboth⟩ := List.any_eq_true.mp husable
    simp [h id hid] at hboth

/-- For every catalogue, configuration, pair of override sets and ROM, and whatever is on the
device, the choice follows the documented order exactly if the table of the catalogue suffices
for it. -/
theorem choice_follows_order_iff (isRegularFile : CString → Bool) (plumosRoot : CString)
    (systemsJson : Option CString) (systemId : CString) (config : LaunchConfig)
    (ggfe plumos : OverrideSet) (romRel : CString) :
    FollowsOrder
        (chooseProfile config ggfe plumos romRel
          (probedCatalog isRegularFile plumosRoot systemsJson systemId))
        (allLayers systemsJson systemId config ggfe plumos romRel)
        (listedIds systemsJson systemId) (isAvailable isRegularFile plumosRoot) ↔
      TableSuffices (allLayers systemsJson systemId config ggfe plumos romRel)
        (listedIds systemsJson systemId) (isAvailable isRegularFile plumosRoot) := by
  have hlayer : (chooseProfile config ggfe plumos romRel
      (probedCatalog isRegularFile plumosRoot systemsJson systemId)).layer =
      (layers config (catalogLoad systemsJson systemId).1.defaultProfile ggfe plumos romRel
        (tableIds (listedIds systemsJson systemId))).find? fun layer =>
          layer.usable (tableIds (listedIds systemsJson systemId))
            (isAvailable isRegularFile plumosRoot) :=
    layer_chooseProfile (profiles_probeProfiles systemsJson systemId)
      fun id hid => (mem_of_mem_tableIds hid).2
  rw [find_table] at hlayer
  have hiff := find?_eq_find?_iff
    (p := fun layer => Layer.usable (listedIds systemsJson systemId)
      (isAvailable isRegularFile plumosRoot) layer)
    (q := fun layer => Layer.usable (tableIds (listedIds systemsJson systemId))
      (isAvailable isRegularFile plumosRoot) layer)
    (fun _ h => usable_mono h) (allLayers systemsJson systemId config ggfe plumos romRel)
  unfold TableSuffices
  rw [← hiff]
  constructor
  · intro h
    exact hlayer.symm.trans h.earliest
  · intro heq
    have hearliest := hlayer.trans heq
    constructor
    · exact hearliest
    · have hnone : ∀ choice : LaunchChoice, choice.profile = none ↔ choice.layer = none :=
        fun choice => by simp [LaunchChoice.layer]
      rw [hnone, hearliest]
      exact find_layers_eq_none _

/-- A system with more profiles than the table holds. -/
def sfcSystems : CString :=
  lit "\x7b \"systems\": [ \x7b \"id\": \"sfc\", \"default_launch_profile\": " ++
  lit "\"retroarch:snes9x2005\", \"launch_profiles\": [ \"retroarch:snes9x2005\", " ++
  lit "\"retroarch:snes9x\", \"retroarch:chimerasnes\", " ++
  lit "\"retroarch:mednafen_supafaust\", \"retroarch:snes9x2002\", " ++
  lit "\"retroarch:snes9x2005_plus\", \"retroarch:snes9x2010\", \"picoarch:snes9x2005\", " ++
  lit "\"picoarch:snes9x\", \"picoarch:chimerasnes\", \"picoarch:mednafen_supafaust\", " ++
  lit "\"picoarch:snes9x2002\", \"picoarch:snes9x2005_plus\", \"picoarch:snes9x2010\" ] \x7d ] \x7d"

/-- The ROM's own choice, the last of the list, is on the device and is not taken. -/
theorem last_profile_not_chosen :
    ¬FollowsOrder
      (chooseProfile ⟨.empty, true, []⟩
        ⟨false, .empty, [⟨.cut (lit "SFC/a.sfc"), .cut (lit "picoarch:snes9x2010")⟩]⟩
        ⟨false, .empty, []⟩ (lit "SFC/a.sfc")
        (probedCatalog (fun _ => true) (lit "/mnt/SDCARD/plumos") (some sfcSystems) (lit "sfc")))
      (allLayers (some sfcSystems) (lit "sfc") ⟨.empty, true, []⟩
        ⟨false, .empty, [⟨.cut (lit "SFC/a.sfc"), .cut (lit "picoarch:snes9x2010")⟩]⟩
        ⟨false, .empty, []⟩ (lit "SFC/a.sfc"))
      (listedIds (some sfcSystems) (lit "sfc"))
      (isAvailable (fun _ => true) (lit "/mnt/SDCARD/plumos")) := by
  intro h
  have hother := h.earliest
  revert hother
  decide +kernel

end Order

end PlumosBubble.Ggfe
