import PlumosBubble.Frontend.LaunchCommand
import PlumosBubble.Launch.RecentFile

/-! The three requests for the newest recent game: `boot` of `plumos_text_ui.c`, which plans the
launch by itself, and `launch`, which the controller calls from the Recents list with the
recorded profile and from the Gallery without it. -/

namespace PlumosBubble.Frontend

section Title

/-- The title of a plan that was built, or of the one that could not be. -/
def retitle (title : CString) : Except LaunchPlan LaunchPlan → Except LaunchPlan LaunchPlan
  | .ok plan => .ok { plan with title }
  | .error plan => .error { plan with title }

variable (env : LaunchEnv) (req : LaunchRequest) (plan : LaunchPlan) (title : CString)

theorem retroarchPlan_retitle (coreId : CString) :
    retroarchPlan env req { plan with title } coreId =
      retitle title (retroarchPlan env req plan coreId) := by
  simp only [retroarchPlan, orFail, withCommand, retroarchAppends]
  cases joinPath pathMax req.plumosRoot (lit "bin") with
  | none => rfl
  | some launcherDir =>
  simp only [bind, Except.bind]
  cases joinPath textPathMax launcherDir (lit "plumos-retroarch-launch") with
  | none => rfl
  | some retroarchPath =>
  cases joinPath textPathMax req.plumosRoot
      (lit "config/retroarch/v90s-powervr-quicknes.cfg") with
  | none => rfl
  | some configPath =>
  cases buildRetroarchCorePath textPathMax req.plumosRoot coreId with
  | none => rfl
  | some corePath =>
  simp only []
  generalize runAppends env _ = command
  cases command <;> rfl

theorem pyxelPlan_retitle (profile : CString) :
    pyxelPlan env req { plan with title } profile =
      retitle title (pyxelPlan env req plan profile) := by
  simp only [pyxelPlan, orFail, withCommand, policyAppends]
  cases pyxelLauncher profile with
  | none => rfl
  | some launcherName =>
  simp only [bind, Except.bind]
  cases joinPath pathMax req.plumosRoot (lit "bin") with
  | none => rfl
  | some launcherDir =>
  simp only []
  cases joinPath textPathMax launcherDir launcherName with
  | none => rfl
  | some launcherPath =>
  simp only []
  cases pyxelCommand plan.romPath with
  | none => rfl
  | some pyxel =>
  simp only []
  generalize runAppends env _ = command
  cases command <;> rfl

theorem picoarchPlan_retitle (coreId : CString) :
    picoarchPlan env req { plan with title } coreId =
      retitle title (picoarchPlan env req plan coreId) := by
  simp only [picoarchPlan, orFail, withCommand, policyAppends]
  by_cases hcore : coreId = []
  · simp only [hcore, if_true]
    rfl
  · simp only [hcore, if_false, bind, Except.bind, pure, Except.pure]
    cases joinPath pathMax req.plumosRoot (lit "bin") with
    | none => rfl
    | some launcherDir =>
    simp only []
    cases joinPath textPathMax launcherDir (lit "plumos-picoarch-launch") with
    | none => rfl
    | some launcherPath =>
    cases buildPicoarchCorePath env textPathMax req.plumosRoot coreId with
    | none => rfl
    | some corePath =>
    simp only []
    generalize runAppends env _ = command
    cases command <;> rfl

theorem standalonePlan_retitle (emulatorId : CString) :
    standalonePlan env req { plan with title } emulatorId =
      retitle title (standalonePlan env req plan emulatorId) := by
  simp only [standalonePlan, orFail, withCommand, policyAppends]
  by_cases hid : emulatorId = []
  · simp only [hid, if_true]
    rfl
  · simp only [hid, if_false, bind, Except.bind, pure, Except.pure]
    cases joinPath pathMax req.plumosRoot (lit "bin") with
    | none => rfl
    | some launcherDir =>
    simp only []
    cases joinPath textPathMax launcherDir (lit "plumos-standalone-launch") with
    | none => rfl
    | some launcherPath =>
    simp only []
    generalize runAppends env _ = command
    cases command <;> rfl

theorem externalPlan_retitle (name : CString) :
    externalPlan env req { plan with title } name =
      retitle title (externalPlan env req plan name) := by
  simp only [externalPlan, orFail, withCommand]
  by_cases hport : name = lit "port"
  · simp only [hport, if_true, bind, Except.bind]
    cases joinPath pathMax req.plumosRoot (lit "bin/plumos-portmaster-port-launch") with
    | none => rfl
    | some launcherPath =>
    simp only []
    generalize runAppends env _ = command
    cases command <;> rfl
  · simp only [hport, if_false, bind, Except.bind]
    generalize runAppends env _ = command
    cases command <;> rfl

theorem buildLaunchPlan_title :
    buildLaunchPlan env { req with title } =
      retitle (startPlan env { req with title }).title (buildLaunchPlan env req) := by
  have hstart : startPlan env { req with title } =
      { startPlan env req with title := (startPlan env { req with title }).title } := rfl
  unfold buildLaunchPlan
  rw [hstart]
  cases profileKind req.launchProfile with
  | retroarch coreId => exact retroarchPlan_retitle env req _ _ coreId
  | pyxel profile => exact pyxelPlan_retitle env req _ _ profile
  | picoarch coreId => exact picoarchPlan_retitle env req _ _ coreId
  | standalone emulatorId => exact standalonePlan_retitle env req _ _ emulatorId
  | external name => exact externalPlan_retitle env req _ _ name
  | internal => rfl
  | unknown => rfl

end Title

section Content

variable {env : LaunchEnv} {req : LaunchRequest} {plan out : LaunchPlan}

theorem romPath_buildLaunchPlan (h : buildLaunchPlan env req = .ok out) :
    out.romPath = copied textPathMax req.romPath := by
  unfold buildLaunchPlan at h
  cases hkind : profileKind req.launchProfile with
  | retroarch coreId =>
    simp only [hkind, retroarchPlan, bind_eq_ok, orFail_ok, withCommand_ok] at h
    obtain ⟨_, _, _, _, _, _, _, _, _, ⟨_, _, rfl⟩, hout⟩ := h
    cases hout
    rfl
  | pyxel profile =>
    simp only [hkind, pyxelPlan] at h
    cases hname : pyxelLauncher profile with
    | none =>
      rw [hname] at h
      cases h
      rfl
    | some launcherName =>
      simp only [hname, bind_eq_ok, orFail_ok] at h
      obtain ⟨_, _, _, _, h⟩ := h
      cases hcommand : pyxelCommand (startPlan env req).romPath with
      | none =>
        rw [hcommand] at h
        cases h
        rfl
      | some command =>
        simp only [hcommand, bind_eq_ok, withCommand_ok] at h
        obtain ⟨_, ⟨_, _, rfl⟩, hout⟩ := h
        cases hout
        rfl
  | picoarch coreId =>
    by_cases hcore : coreId = []
    · simp [hkind, picoarchPlan, hcore, throw, throwThe, MonadExceptOf.throw, bind,
        Except.bind] at h
    · simp only [hkind, picoarchPlan, hcore, if_false, bind_eq_ok, orFail_ok,
        withCommand_ok] at h
      obtain ⟨_, _, _, _, _, _, _, ⟨_, _, rfl⟩, hout⟩ := h
      cases hout
      rfl
  | standalone emulatorId =>
    by_cases hid : emulatorId = []
    · simp [hkind, standalonePlan, hid, throw, throwThe, MonadExceptOf.throw, bind,
        Except.bind] at h
    · simp only [hkind, standalonePlan, hid, if_false, bind_eq_ok, orFail_ok,
        withCommand_ok] at h
      obtain ⟨_, _, _, _, _, ⟨_, _, rfl⟩, hout⟩ := h
      cases hout
      rfl
  | external name =>
    by_cases hport : name = lit "port"
    · simp only [hkind, externalPlan, hport, if_true, bind_eq_ok, orFail_ok,
        withCommand_ok] at h
      obtain ⟨_, _, _, ⟨_, _, rfl⟩, hout⟩ := h
      cases hout
      rfl
    · simp only [hkind, externalPlan, hport, if_false, bind_eq_ok, withCommand_ok] at h
      obtain ⟨_, ⟨_, _, rfl⟩, hout⟩ := h
      cases hout
      rfl
  | internal =>
    rw [hkind] at h
    cases h
    rfl
  | unknown =>
    rw [hkind] at h
    cases h
    rfl

end Content

section Requests

open TextUi

/-- What a run of one of the programs finds. -/
structure Card where
  env : LaunchEnv
  plumosRoot : CString
  systemsJson : Option CString
  overrides : CoreOverrides
  /-- `load_rom_entries` for the cache file of a system. -/
  cache : CString → Option (List TextUi.RomEntry)

/-- `load_core_system_def`. -/
def coreSystem (systemsJson : Option CString) (systemId : CString) : Option CoreSystem :=
  systemsJson.bind fun json => loadCoreSystemDef json systemId

/-- `find_rom_by_relative_path`. -/
def findRomByRelativePath (entries : List TextUi.RomEntry) (relativePath : CString) :
    Option TextUi.RomEntry :=
  entries.find? fun entry => entry.relativePath.text = relativePath

/-- `load_selected_rom` with `--no-scan`, from a cache that is there. -/
def loadSelectedRom (cache : CString → Option (List TextUi.RomEntry))
    (systemId relativePath : CString) : Option TextUi.RomEntry := do
  let entries ← cache systemId
  match findRomByRelativePath entries relativePath with
  | some rom => return rom
  | none =>
    let base ← dosBase systemId relativePath
    let rom ← findRomByRelativePath entries base
    let path ← appendString textPathMax rom.path.text (relativePath.dropWhile (· ≠ 0x23))
    let path ← bufferOf 1024 path
    return { rom with relativePath := (bufferOf 1024 relativePath).getD .empty, path }

/-- The arguments of `build_launch_plan` in `launch` and in `boot`. -/
def planRequest (card : Card) (system : CoreSystem)
    (systemId relativePath title path launchProfile : CString) : LaunchRequest where
  plumosRoot := card.plumosRoot
  systemId := systemId
  relativePath := relativePath
  title := title
  romPath := path
  launchProfile := launchProfile
  cpuPolicy := (applyPicoarchAdapterCpuDefaults card.env card.plumosRoot launchProfile
    (resolveCpuSetting system card.overrides (some relativePath))).text
  options := resolveRetroarchRuntimeOptions system card.overrides relativePath
  autoStateLoad := false
  cpuPolicy_fits := (applyPicoarchAdapterCpuDefaults _ _ _ _).fits

/-- The plan, if it is built and can be executed. -/
def executablePlan (env : LaunchEnv) (req : LaunchRequest) : Option LaunchPlan :=
  match buildLaunchPlan env req with
  | .ok plan => if plan.canExecute then some plan else none
  | .error _ => none

/-- A launch that is executed: its plan, and what goes into the list of recent games. -/
structure Launch where
  plan : LaunchPlan
  rom : TextUi.RomEntry
  launchProfile : CString

/-- The profile of a `launch`, asked for or resolved. -/
def requestedProfile (system : CoreSystem) (overrides : CoreOverrides) (relativePath : CString) :
    Option CString → Option CString
  | some profile => if hasProfile system.launchProfiles profile then some profile else none
  | none => some (resolveLaunchProfile system overrides (some relativePath))

/-- `launch SYSTEM RELATIVE_PATH [--profile P] --execute --no-scan`, up to the command. -/
def launch (card : Card) (systemId relativePath : CString) (profile : Option CString) :
    Option Launch :=
  if !validSystemId systemId || !validRelativeRomPath relativePath ||
      profile.any fun p => !validLaunchProfileId p then none
  else do
    let rom ← loadSelectedRom card.cache systemId relativePath
    let system ← coreSystem card.systemsJson systemId
    let launchProfile ← requestedProfile system card.overrides relativePath profile
    let path ← applyContentSuffixOverride system card.overrides relativePath rom.path.text
    let path ← bufferOf 1024 path
    let plan ← executablePlan card.env (planRequest card system systemId relativePath
      rom.title.text path.text launchProfile)
    return ⟨plan, { rom with path }, launchProfile⟩

/-- The list of recent games after a `launch`. -/
def recentsAfter (card : Card) (systemId relativePath : CString) (profile : Option CString)
    (playedAt : CString) (recents : Option CString) : Option CString :=
  match launch card systemId relativePath profile, loadRecent recents with
  | some run, some state => some (saveRecent (addRecentEntry state
      (recentEntryFromRom systemId run.rom run.launchProfile playedAt)))
  | _, _ => recents

/-- `boot --execute` with the mode `on`, up to the command. -/
def boot (card : Card) (recents : Option CString) : Option LaunchPlan := do
  let state ← loadRecent recents
  let last ← state.head?
  let system ← coreSystem card.systemsJson last.systemId.text
  let path ← applyContentSuffixOverride system card.overrides last.relativePath.text
    last.path.text
  let launchProfile :=
    (listedProfile system (some last.launchProfile)).getD
      (resolveLaunchProfile system card.overrides (some last.relativePath.text))
  executablePlan card.env (planRequest card system last.systemId.text last.relativePath.text
    last.title.text path launchProfile)

/-- The controller's side of the card. -/
structure ControllerCard where
  sdcardRoot : CString
  readOnly : Bool
  isFile : CString → Bool

/-- The screen from which a game is started. -/
inductive ListScreen where
  | recent
  | gallery
  deriving DecidableEq

/-- The system of an entry, or the id under which the list itself is open. -/
def entrySystem (entry : ControllerUi.RecentRom) : CString :=
  if entry.systemId.nonempty then entry.systemId.text else lit "recent"

/-- The profile that `launch_rom_entry` passes on. -/
def passedProfile (screen : ListScreen) (entry : ControllerUi.RecentRom) : Option CString :=
  if screen = .recent && entry.launchProfile.nonempty then some entry.launchProfile.text
  else none

/-- The pieces of the command of `launch_rom_entry`. -/
def launchAppends (card : Card) (controller : ControllerCard) (screen : ListScreen)
    (entry : ControllerUi.RecentRom) (textUi logDir logPath : CString) : List Append :=
  [.string (lit "mkdir -p "), .quoted logDir, .string (lit "; PLUMOS_SDCARD_ROOT="),
    .quoted controller.sdcardRoot, .string (lit " PLUMOS_ROOT="), .quoted card.plumosRoot,
    .string (lit " "), .quoted textUi, .string (lit " launch "), .quoted (entrySystem entry),
    .string (lit " "), .quoted entry.relativePath.text] ++
  (match passedProfile screen entry with
    | some profile => [.string (lit " --profile "), .quoted profile]
    | none => []) ++
  [.string (lit " --execute --no-scan >>"), .quoted logPath, .string (lit " 2>&1")]

/-- The command of `launch_rom_entry`, if it comes to run one; the buffer is as long as that of
a launch plan. -/
def launchRomEntry (card : Card) (controller : ControllerCard) (screen : ListScreen)
    (entry : ControllerUi.RecentRom) : Option CString :=
  if entry.relativePath.text = [] || controller.readOnly ||
      !validSystemId (entrySystem entry) then none
  else do
    let textUi ← joinPath pathMax card.plumosRoot (lit "bin/plumos-text-ui")
    let logDir ← joinPath pathMax card.plumosRoot (lit "logs")
    let logPath ← joinPath pathMax logDir (lit "frontend-launch.log")
    if !controller.isFile textUi then none
    else (runAppends card.env (launchAppends card controller screen entry textUi logDir
      logPath)).toOption

/-- What comes of the newest entry of the list, started from a screen of the controller. -/
def startNewest (card : Card) (controller : ControllerCard) (screen : ListScreen)
    (recents : Option CString) : Option LaunchPlan := do
  let entries ← ControllerUi.loadRecentEntries recents
  let entry ← entries.head?
  let _ ← launchRomEntry card controller screen entry
  let run ← launch card (entrySystem entry) entry.relativePath.text (passedProfile screen entry)
  return run.plan

end Requests

end PlumosBubble.Frontend
