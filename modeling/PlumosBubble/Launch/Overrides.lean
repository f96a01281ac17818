import Mathlib.Data.List.Nodup
import PlumosBubble.Frontend.Favorites
import PlumosBubble.Frontend.LaunchPlan

/-! What `plumos_text_ui.c` resolves for a launch: the profiles that `systems.json` lists for a
system, the overrides of systems and of single ROMs, and what is in force for a ROM. -/

namespace PlumosBubble.Frontend.TextUi

/-- `valid_launch_profile_id`. -/
def validLaunchProfileId (s : CString) : Bool :=
  s ≠ [] && s.all fun c => isAlnum c || c = 0x5f || c = 0x2d || c = 0x3a || c = 0x2e

/-- The policies of `valid_cpu_policy`. -/
def cpuPolicies : List CString :=
  [lit "interactive", lit "performance", lit "ondemand", lit "schedutil", lit "conservative"]

/-- `valid_cpu_policy`. -/
def validCpuPolicy (s : CString) : Bool := s ∈ cpuPolicies

/-- The array that holds exactly this string. -/
def bufferOf (size : ℕ) (s : CString) : Option (Buffer size) :=
  if h : s.length < size ∧ 0 ∉ s then some ⟨s, h.1, h.2⟩ else none

/-- The array, or an empty one if its content is refused. -/
def keepIf {size : ℕ} [NeZero size] (ok : CString → Bool) (b : Buffer size) : Buffer size :=
  if ok b.text then b else .empty

section Systems

/-- `MAX_CORE_PROFILES`. -/
def maxCoreProfiles : ℕ := 32

/-- `picoarch_core_id_allowed`. -/
def picoarchCoreIdAllowed (coreId : CString) : Bool :=
  coreId ≠ [] && coreId ∉ [lit "flycast", lit "flycast_xtreme",
    lit "km_duckswanstation_xtreme_amped", lit "mupen64plus_next", lit "parallel_n64",
    lit "yabasanshiro", lit "frodo", lit "chailove"]

/-- `launch_profile_allowed_on_mmf`. -/
def launchProfileAllowedOnMmf (profile : CString) : Bool :=
  profile ≠ [] && profile ≠ lit "picoarch:frodo" &&
    match afterStart (lit "picoarch:") profile with
    | some coreId => picoarchCoreIdAllowed coreId
    | none => true

/-- `picoarch_companion_core_allowed`. -/
def picoarchCompanionCoreAllowed (systemId coreId : CString) : Bool :=
  systemId ≠ lit "n64" && systemId ≠ lit "saturn" && picoarchCoreIdAllowed coreId

/-- `core_profile_index`, as whether there is one. -/
def hasProfile (profiles : List (Buffer 128)) (profile : CString) : Bool :=
  profiles.any fun p => p.text = profile

/-- `add_core_profile`. -/
def addCoreProfile (profiles : List (Buffer 128)) (profile : Buffer 128) :
    List (Buffer 128) :=
  if !validLaunchProfileId profile.text || !launchProfileAllowedOnMmf profile.text then profiles
  else if hasProfile profiles profile.text then profiles
  else if maxCoreProfiles ≤ profiles.length then profiles
  else profiles ++ [profile]

/-- The profile that `add_picoarch_companion_profiles` adds for another one. -/
def companionProfile (systemId : CString) (profile : Buffer 128) : Option (Buffer 128) :=
  match afterStart (lit "retroarch:") profile.text with
  | none => none
  | some coreId =>
    if coreId = [] || !picoarchCompanionCoreAllowed systemId coreId then none
    else (bufferOf 128 (lit "picoarch:" ++ coreId)).filter fun p =>
      launchProfileAllowedOnMmf p.text

/-- One round of the loop of `add_picoarch_companion_profiles`. -/
def addCompanion (systemId : CString) (profiles : List (Buffer 128)) (profile : Buffer 128) :
    List (Buffer 128) :=
  if maxCoreProfiles ≤ profiles.length then profiles
  else
    match companionProfile systemId profile with
    | none => profiles
    | some companion => addCoreProfile profiles companion

/-- `add_picoarch_companion_profiles`. -/
def addPicoarchCompanionProfiles (systemId : CString) (profiles : List (Buffer 128)) :
    List (Buffer 128) :=
  profiles.foldl (addCompanion systemId) profiles

/-- What every list of profiles is. -/
structure ProfileList (profiles : List (Buffer 128)) : Prop where
  valid : ∀ p ∈ profiles, validLaunchProfileId p.text = true
  distinct : profiles.Nodup
  count : profiles.length ≤ maxCoreProfiles

theorem profileList_nil : ProfileList [] where
  valid := by simp
  distinct := List.nodup_nil
  count := Nat.zero_le _

theorem hasProfile_iff {profiles : List (Buffer 128)} {p : Buffer 128} :
    hasProfile profiles p.text = true ↔ p ∈ profiles := by
  constructor
  · intro h
    obtain ⟨q, hq, heq⟩ := List.any_eq_true.1 h
    rwa [← Buffer.eq_of_text (of_decide_eq_true heq)]
  · intro h
    exact List.any_eq_true.2 ⟨p, h, decide_eq_true rfl⟩

theorem ProfileList.add {profiles : List (Buffer 128)} (h : ProfileList profiles)
    (p : Buffer 128) : ProfileList (addCoreProfile profiles p) := by
  unfold addCoreProfile
  split_ifs with hvalid hlisted hfull
  · exact h
  · exact h
  · exact h
  · have hp : validLaunchProfileId p.text = true := by
      simp only [Bool.or_eq_true, Bool.not_eq_true', not_or, Bool.not_eq_false] at hvalid
      exact hvalid.1
    have hnew : p ∉ profiles := fun hmem => hlisted (hasProfile_iff.2 hmem)
    constructor
    · intro q hq
      rcases List.mem_append.1 hq with hq | hq
      · exact h.valid q hq
      · rwa [List.mem_singleton.1 hq]
    · exact h.distinct.append (List.nodup_singleton p) (by simpa using hnew)
    · rw [List.length_append, List.length_singleton]
      omega

theorem ProfileList.companion {profiles : List (Buffer 128)} (h : ProfileList profiles)
    (systemId : CString) (p : Buffer 128) : ProfileList (addCompanion systemId profiles p) := by
  unfold addCompanion
  split
  · exact h
  · cases companionProfile systemId p with
    | none => exact h
    | some companion => exact h.add companion

theorem ProfileList.companions {profiles : List (Buffer 128)} (h : ProfileList profiles)
    (systemId : CString) : ProfileList (addPicoarchCompanionProfiles systemId profiles) := by
  have hfold : ∀ (l all : List (Buffer 128)), ProfileList all →
      ProfileList (l.foldl (addCompanion systemId) all) := by
    intro l
    induction l with
    | nil => exact fun _ hall => hall
    | cons p l ih => exact fun all hall => ih _ (hall.companion systemId p)
  exact hfold profiles profiles h

/-- `struct core_system_def`. The frequency that it also holds is always 0. -/
structure CoreSystem where
  id : Buffer 64
  displayName : Buffer 128
  defaultLaunchProfile : Buffer 128
  defaultCpuPolicy : Buffer 32
  launchProfiles : List (Buffer 128)
  listed : ProfileList launchProfiles

/-- `parse_launch_profile_array` from the array's body, for as many strings as are given. -/
def parseLaunchProfiles : ℕ → CString → List (Buffer 128) → List (Buffer 128)
  | 0, _, profiles => profiles
  | n + 1, body, profiles =>
    if maxCoreProfiles ≤ profiles.length then profiles
    else
      match jsonNextString 128 body with
      | .found profile rest => parseLaunchProfiles n rest (addCoreProfile profiles profile)
      | .cleared | .untouched => profiles

theorem ProfileList.parsed {profiles : List (Buffer 128)} (h : ProfileList profiles) (n : ℕ)
    (body : CString) : ProfileList (parseLaunchProfiles n body profiles) := by
  induction n generalizing body profiles with
  | zero => exact h
  | succ n ih =>
    unfold parseLaunchProfiles
    split
    · exact h
    · cases jsonNextString 128 body with
      | found profile rest => exact ih (h.add profile) rest
      | cleared => exact h
      | untouched => exact h

/-- The profiles of an object of `systems.json`. -/
def objectProfiles (object : CString) (systemId : CString) (default : Buffer 128) :
    List (Buffer 128) :=
  let parsed :=
    match jsonFindArray (lit "launch_profiles") object with
    | none => []
    | some body => parseLaunchProfiles body.length body []
  addPicoarchCompanionProfiles systemId
    (if default.nonempty then addCoreProfile parsed default else parsed)

theorem objectProfiles_listed (object systemId : CString) (default : Buffer 128) :
    ProfileList (objectProfiles object systemId default) := by
  have hparsed : ProfileList (match jsonFindArray (lit "launch_profiles") object with
      | none => []
      | some body => parseLaunchProfiles body.length body []) := by
    cases jsonFindArray (lit "launch_profiles") object with
    | none => exact profileList_nil
    | some body => exact profileList_nil.parsed body.length body
  apply ProfileList.companions
  split
  · exact hparsed.add default
  · exact hparsed

/-- An object of `systems.json`, as `load_core_system_def` reads it. -/
def readCoreSystem (object : CString) : CoreSystem :=
  let id := (jsonGetString 64 (lit "id") object).into .empty
  let displayName := (jsonGetString 128 (lit "display_name") object).into .empty
  let defaultLaunchProfile :=
    (jsonGetString 128 (lit "default_launch_profile") object).into .empty
  { id
    displayName := if displayName.nonempty then displayName else id.copy
    defaultLaunchProfile
    defaultCpuPolicy := keepIf validCpuPolicy
      ((jsonGetString 32 (lit "default_cpu_policy") object).into .empty)
    launchProfiles := objectProfiles object id.text defaultLaunchProfile
    listed := objectProfiles_listed _ _ _ }

/-- `load_core_system_def`. -/
def loadCoreSystemDef (json systemId : CString) : Option CoreSystem :=
  (jsonFindArray (lit "systems") json).bind fun body =>
    ((jsonObjects body).map fun object => readCoreSystem (rangeDup object)).find? fun system =>
      system.id.text = systemId

end Systems

section Overrides

/-- `struct system_core_override`. -/
structure SystemCoreOverride where
  systemId : Buffer 64
  launchProfile : Buffer 128
  cpuPolicy : Buffer 32

/-- `struct rom_core_override`; the loader and the setter take no other suffix. -/
structure RomCoreOverride where
  systemId : Buffer 64
  relativePath : Buffer 1024
  launchProfile : Buffer 128
  cpuPolicy : Buffer 32
  contentSuffix : Buffer 256
  audioDriver : Buffer 16
  audioLatencyMs : ℤ
  dosboxPureForce60fps : Buffer 16
  dosboxPureCycles : Buffer 32
  suffix_valid : contentSuffix.text ≠ [] → validContentSuffix contentSuffix.text = true

/-- `struct core_override_state`. -/
structure CoreOverrides where
  systemOverrides : List SystemCoreOverride
  romOverrides : List RomCoreOverride

/-- The path in front of the content suffix of a DOS game. -/
def dosBase (systemId relativePath : CString) : Option CString :=
  if systemId = lit "dos" && 0x23 ∈ relativePath then
    (splitContentSuffix textPathMax relativePath).filter validRelativeRomPath
  else none

/-- `find_system_core_override`. -/
def findSystemCoreOverride (state : CoreOverrides) (systemId : CString) :
    Option SystemCoreOverride :=
  state.systemOverrides.find? fun entry => entry.systemId.text = systemId

/-- The first override of a ROM under exactly this path. -/
def findRomOverrideAt (state : CoreOverrides) (systemId relativePath : CString) :
    Option RomCoreOverride :=
  state.romOverrides.find? fun entry =>
    entry.systemId.text = systemId && entry.relativePath.text = relativePath

/-- `find_rom_core_override`. -/
def findRomCoreOverride (state : CoreOverrides) (systemId relativePath : CString) :
    Option RomCoreOverride :=
  match findRomOverrideAt state systemId relativePath with
  | some entry => some entry
  | none => (dosBase systemId relativePath).bind (findRomOverrideAt state systemId)

end Overrides

section Resolution

variable (system : CoreSystem) (overrides : CoreOverrides)

/-- `core_profile_is_listed`, with the profile. -/
def listedProfile (profile : Option (Buffer 128)) : Option CString :=
  (profile.filter fun p => p.nonempty && hasProfile system.launchProfiles p.text).map
    Buffer.text

/-- `resolve_launch_profile`, for a ROM or for the system alone. -/
def resolveLaunchProfile (relativePath : Option CString) : CString :=
  let rom := relativePath.bind (findRomCoreOverride overrides system.id.text)
  match listedProfile system (rom.map (·.launchProfile)) with
  | some profile => profile
  | none =>
    let entry := findSystemCoreOverride overrides system.id.text
    match listedProfile system (entry.map (·.launchProfile)) with
    | some profile => profile
    | none => (listedProfile system (some system.defaultLaunchProfile)).getD (lit "auto")

/-- Where a CPU policy comes from. -/
inductive CpuSource where
  | romOverride
  | systemOverride
  | plumosDefault
  | launcherDefault
  deriving DecidableEq

/-- `copy_cpu_setting`, for a setting that is there. -/
def copyCpuSetting (policy : Option (Buffer 32)) : Option (Buffer 32) :=
  policy.filter fun p => p.nonempty && validCpuPolicy p.text

/-- `resolve_cpu_setting`. -/
def resolveCpuSetting (relativePath : Option CString) : Buffer 32 × CpuSource :=
  let rom := relativePath.bind (findRomCoreOverride overrides system.id.text)
  match copyCpuSetting (rom.map (·.cpuPolicy)) with
  | some policy => (policy, .romOverride)
  | none =>
    let entry := findSystemCoreOverride overrides system.id.text
    match copyCpuSetting (entry.map (·.cpuPolicy)) with
    | some policy => (policy, .systemOverride)
    | none =>
      match copyCpuSetting (some system.defaultCpuPolicy) with
      | some policy => (policy, .plumosDefault)
      | none => (.empty, .launcherDefault)

/-- `apply_picoarch_adapter_cpu_defaults`. -/
def applyPicoarchAdapterCpuDefaults (env : LaunchEnv) (plumosRoot launchProfile : CString)
    (setting : Buffer 32 × CpuSource) : Buffer 32 :=
  if lit "picoarch:" <+: launchProfile && picoarchOnionCompatEnabled env plumosRoot &&
      setting.2 = .plumosDefault then .empty
  else setting.1

/-- `resolve_retroarch_runtime_options`. -/
def resolveRetroarchRuntimeOptions (relativePath : CString) : RetroarchOptions :=
  match findRomCoreOverride overrides system.id.text relativePath with
  | none => ⟨[], 0, [], []⟩
  | some entry => ⟨entry.audioDriver.text, entry.audioLatencyMs,
      entry.dosboxPureForce60fps.text, entry.dosboxPureCycles.text⟩

/-- The content suffix in force for a ROM. -/
def contentSuffix (relativePath : CString) : CString :=
  match findRomCoreOverride overrides system.id.text relativePath with
  | none => []
  | some entry => entry.contentSuffix.text

/-- `apply_content_suffix_override`: the path afterwards. -/
def applyContentSuffixOverride (relativePath path : CString) : Option CString :=
  if 0x23 ∈ path || contentSuffix system overrides relativePath = [] then some path
  else appendString textPathMax path (contentSuffix system overrides relativePath)

theorem contentSuffix_hash {relativePath : CString}
    (h : contentSuffix system overrides relativePath ≠ []) :
    0x23 ∈ contentSuffix system overrides relativePath := by
  unfold contentSuffix at h ⊢
  cases hfind : findRomCoreOverride overrides system.id.text relativePath with
  | none => simp [hfind] at h
  | some entry =>
    simp only [hfind] at h ⊢
    have hvalid := entry.suffix_valid h
    cases htext : entry.contentSuffix.text with
    | nil => exact absurd htext h
    | cons c body =>
      rw [htext] at hvalid
      simp only [validContentSuffix, Bool.and_eq_true, decide_eq_true_eq] at hvalid
      simp [hvalid.1.1.1.1.1.1]

theorem applyContentSuffixOverride_idem {relativePath path out : CString}
    (h : applyContentSuffixOverride system overrides relativePath path = some out) :
    applyContentSuffixOverride system overrides relativePath out = some out := by
  unfold applyContentSuffixOverride at h ⊢
  by_cases hsuffix : contentSuffix system overrides relativePath = []
  · simp [hsuffix]
  · have hhash := contentSuffix_hash system overrides hsuffix
    have hout : 0x23 ∈ out := by
      by_cases hpath : 0x23 ∈ path
      · simp only [hpath, decide_true, Bool.true_or, if_true, Option.some.injEq] at h
        rwa [← h]
      · simp only [hpath, hsuffix, decide_false, Bool.or_self, Bool.false_eq_true, if_false,
          appendString] at h
        split at h
        · rw [← Option.some.inj h]
          exact List.mem_append_right _ hhash
        · exact absurd h (by simp)
    simp [hout]

end Resolution

end PlumosBubble.Frontend.TextUi
