import PlumosBubble.Frontend.CString
import PlumosBubble.Shell.Words

/-! The launch command of `plumos_text_ui.c`: `build_launch_plan`, which assembles it for
each kind of launch profile, and `execute_launch_plan`. -/

namespace PlumosBubble.Frontend

open Shell

/-- What the planner sees of its environment and of the file system. -/
structure LaunchEnv where
  deviceId : Option CString
  busybox : Option CString
  plumosRoot : Option CString
  /-- `access(path, X_OK) == 0`. -/
  executable : CString → Bool
  /-- `file_exists`. -/
  isFile : CString → Bool
  /-- `stat` finds a regular file or a directory. -/
  isFileOrDir : CString → Bool
  isFileOrDir_nil : isFileOrDir [] = false

/-- `struct retroarch_runtime_options`. -/
structure RetroarchOptions where
  audioDriver : CString
  audioLatencyMs : ℤ
  dosboxPureForce60fps : CString
  dosboxPureCycles : CString
  deriving DecidableEq

/-- The arguments of `build_launch_plan`; callers hold the policy in 32 bytes. -/
structure LaunchRequest where
  plumosRoot : CString
  systemId : CString
  relativePath : CString
  title : CString
  romPath : CString
  launchProfile : CString
  cpuPolicy : CString
  options : RetroarchOptions
  autoStateLoad : Bool
  cpuPolicy_fits : cpuPolicy.length + 1 ≤ 32

/-- `struct launch_plan`. -/
structure LaunchPlan where
  kind : CString
  systemId : CString
  relativePath : CString
  title : CString
  romPath : CString
  launchProfile : CString
  cpuPolicy : CString
  cpuFreqKhz : ℤ
  retroarchPath : CString
  standaloneLauncherPath : CString
  pyxelLauncherPath : CString
  picoarchLauncherPath : CString
  corePath : CString
  configPath : CString
  command : CString
  options : RetroarchOptions
  autoStateLoad : Bool
  romExists : Bool
  runtimeExists : Bool
  coreExists : Bool
  canExecute : Bool
  deriving DecidableEq

/-- `TEXT_PATH_MAX`. -/
def textPathMax : ℕ := 1024

/-- `TEXT_COMMAND_MAX`. -/
def textCommandMax : ℕ := 8192

section Paths

variable (env : LaunchEnv)

/-- `valid_content_suffix`. -/
def validContentSuffix (suffix : CString) : Bool :=
  match suffix with
  | c :: body =>
    c = 0x23 && body ≠ [] && body.head? ≠ some slash && !(lit "../" <:+: body) &&
      !(lit "/.." <:+: body) && body ≠ lit ".." &&
      body.all fun c => 0x20 ≤ c && c ≠ 0x7f && c ≠ 0x23
  | [] => false

/-- `split_content_suffix`, into a buffer of `size` bytes. -/
def splitContentSuffix (size : ℕ) (path : CString) : Option CString :=
  if path = [] then none
  else if 0x23 ∉ path then copyString size path
  else
    let base := path.takeWhile (· ≠ 0x23)
    if !validContentSuffix (path.dropWhile (· ≠ 0x23)) then none
    else if base = [] then none
    else copyString size base

/-- `rom_path_exists`. -/
def romPathExists (path : CString) : Bool :=
  env.isFileOrDir path ||
    (splitContentSuffix textPathMax path).any fun base => base ≠ path && env.isFileOrDir base

/-- `runtime_shell_path`. -/
def runtimeShellPath : Option CString :=
  let bundled := env.plumosRoot.bind fun root =>
    if root = [] then none
    else copyString pathMax (root ++ lit "/bin/busybox")
  let onCard := lit "/mnt/SDCARD/.tmp_update/busybox"
  match env.busybox.filter fun path => path ≠ [] && env.executable path with
  | some path => some path
  | none =>
    if env.deviceId ≠ some (lit "mf") then some (lit "/bin/sh")
    else if env.executable onCard then some onCard
    else bundled.filter env.executable

/-- `runtime_shell_is_busybox`. -/
def runtimeShellIsBusybox (shellPath : CString) : Bool :=
  shellPath ≠ [] && pathBasename shellPath = lit "busybox"

/-- `path_extension_lower`, into a buffer of `size` bytes. -/
def pathExtensionLower (size : ℕ) (path : CString) : Option CString :=
  match splitLast dot path with
  | none => none
  | some (_, ext) =>
    if slash ∈ ext || ext = [] then none else copyString size (lowerString ext)

/-- `dirname_path`, into a buffer of `size` bytes. -/
def dirnamePath (size : ℕ) (path : CString) : Option CString :=
  if path = [] then none else pathParent size path

/-- `build_retroarch_core_path`, into a buffer of `size` bytes. -/
def buildRetroarchCorePath (size : ℕ) (plumosRoot coreId : CString) : Option CString := do
  let fileName ← copyString 256 (coreId ++ lit "_libretro.so")
  let coresDir ← joinPath pathMax plumosRoot (lit "cores")
  joinPath size coresDir fileName

/-- `build_picoarch_core_path`, into a buffer of `size` bytes. -/
def buildPicoarchCorePath (size : ℕ) (plumosRoot coreId : CString) : Option CString := do
  let fileName ← copyString 256 (coreId ++ lit "_libretro.so")
  let coresDir ← joinPath pathMax plumosRoot (lit "picoarch/cores")
  let picoPath ← joinPath pathMax coresDir fileName
  if env.isFile picoPath then copyString size picoPath
  else
    match (buildRetroarchCorePath pathMax plumosRoot coreId).filter env.isFile with
    | some retroPath => copyString size retroPath
    | none => copyString size picoPath

/-- A file of this name under the root exists. -/
def rootFileExists (plumosRoot name : CString) : Bool :=
  (joinPath pathMax plumosRoot name).any env.isFile

/-- `retroarch_mmf_runtime_enabled`. -/
def retroarchMmfRuntimeEnabled (plumosRoot : CString) : Bool :=
  rootFileExists env plumosRoot (lit "config/enable-mmf-ra-runtime") ||
    rootFileExists env plumosRoot (lit "config/enable-mmf-onion-compatible-ra")

/-- `retroarch_mmf_launcher_exists`. -/
def retroarchMmfLauncherExists (plumosRoot : CString) : Bool :=
  rootFileExists env plumosRoot (lit "bin/plumos-retroarch-mmf-launch") ||
    rootFileExists env plumosRoot (lit "bin/plumos-retroarch-onion-launch")

/-- `picoarch_onion_compat_enabled`. -/
def picoarchOnionCompatEnabled (plumosRoot : CString) : Bool :=
  rootFileExists env plumosRoot (lit "config/enable-mmf-emulator-runtime") ||
    rootFileExists env plumosRoot (lit "config/enable-mmf-onion-compatible-emulators")

/-- `picoarch_onion_launcher_exists`. -/
def picoarchOnionLauncherExists (plumosRoot : CString) : Bool :=
  rootFileExists env plumosRoot (lit "bin/plumos-picoarch-onion-launch") &&
    rootFileExists env plumosRoot (lit "bin/plumos-picoarch-launch.noncompat")

/-- `standalone_content_path_for_emulator`. -/
def standaloneContentPath (emulatorId romPath : CString) : CString :=
  if emulatorId = lit "easyrpg" && pathExtensionLower 32 romPath = some (lit "ldb") then
    (dirnamePath pathMax romPath).getD romPath
  else romPath

end Paths

/-- One call that appends to the command. -/
inductive Append where
  | string (s : CString)
  | quoted (s : CString)
  | script (path : CString)

section Command

variable (env : LaunchEnv)

/-- `append_string` to the command; an error is what the buffer then holds. -/
def appendText (buffer s : CString) : Except CString CString :=
  match appendString textCommandMax buffer s with
  | some buffer => .ok buffer
  | none => .error buffer

/-- `append_shell_quoted`. -/
def appendShellQuoted (buffer s : CString) : Except CString CString := do
  let buffer ← appendText buffer [apostrophe]
  let buffer ← s.foldlM (fun buffer c => appendText buffer (quoteByte c)) buffer
  appendText buffer [apostrophe]

/-- `append_runtime_script_invocation`. -/
def appendRuntimeScriptInvocation (buffer script : CString) : Except CString CString :=
  match runtimeShellPath env with
  | none => .error buffer
  | some shellPath =>
    if script = [] then .error buffer
    else do
      let buffer ← appendShellQuoted buffer shellPath
      let buffer ←
        if runtimeShellIsBusybox shellPath then appendText buffer (lit " sh") else pure buffer
      let buffer ← appendText buffer (lit " ")
      appendShellQuoted buffer script

def Append.run (buffer : CString) : Append → Except CString CString
  | .string s => appendText buffer s
  | .quoted s => appendShellQuoted buffer s
  | .script path => appendRuntimeScriptInvocation env buffer path

/-- The appends in their order, up to the first that fails. -/
def runAppends (appends : List Append) : Except CString CString :=
  appends.foldlM (Append.run env) []

/-- The appends that the source makes if the string is not empty. -/
def unlessEmpty (s : CString) (appends : List Append) : List Append :=
  if s = [] then [] else appends

/-- `snprintf` of a positive `long`; the buffer holds every one of them. -/
def decimal (n : ℤ) : CString := (Nat.toDigits 10 n.toNat).map fun c => c.toNat.toUInt8

/-- Go on with the value, or return with the plan as it stands. -/
def orFail {α : Type} (plan : LaunchPlan) : Option α → Except LaunchPlan α
  | some a => .ok a
  | none => .error plan

/-- Put the command into the plan, whether it is complete or not. -/
def withCommand (plan : LaunchPlan) : Except CString CString → Except LaunchPlan LaunchPlan
  | .ok command => .ok { plan with command }
  | .error command => .error { plan with command }

end Command

section Plan

variable (env : LaunchEnv) (req : LaunchRequest)

/-- The plan before the launch profile is looked at. -/
def startPlan : LaunchPlan where
  kind := []
  systemId := copied 64 req.systemId
  relativePath := copied textPathMax req.relativePath
  title := copied 256 (if req.title = [] then req.relativePath else req.title)
  romPath := copied textPathMax req.romPath
  launchProfile := copied 128 req.launchProfile
  cpuPolicy := copied 32 req.cpuPolicy
  cpuFreqKhz := 0
  retroarchPath := []
  standaloneLauncherPath := []
  pyxelLauncherPath := []
  picoarchLauncherPath := []
  corePath := []
  configPath := []
  command := []
  options := req.options
  autoStateLoad := req.autoStateLoad
  romExists := romPathExists env (copied textPathMax req.romPath)
  runtimeExists := false
  coreExists := false
  canExecute := false

/-- The command of a `retroarch:` profile. -/
def retroarchAppends (plan : LaunchPlan) : List Append :=
  [.script plan.retroarchPath, .string (lit " --system "), .quoted req.systemId,
    .string (lit " --core "), .quoted plan.corePath, .string (lit " --rom "),
    .quoted plan.romPath] ++
  unlessEmpty plan.cpuPolicy [.string (lit " --cpu "), .quoted plan.cpuPolicy] ++
  unlessEmpty plan.options.audioDriver
    [.string (lit " --audio "), .quoted plan.options.audioDriver] ++
  (if 0 < plan.options.audioLatencyMs then
    [.string (lit " --audio-latency "), .quoted (decimal plan.options.audioLatencyMs)]
  else []) ++
  unlessEmpty plan.options.dosboxPureForce60fps
    [.string (lit " --dosbox-pure-force60fps "), .quoted plan.options.dosboxPureForce60fps] ++
  unlessEmpty plan.options.dosboxPureCycles
    [.string (lit " --dosbox-pure-cycles "), .quoted plan.options.dosboxPureCycles] ++
  [.string (lit " --safe-exit false")]

/-- `build_launch_plan` for `retroarch:` and a core. -/
def retroarchPlan (plan : LaunchPlan) (coreId : CString) : Except LaunchPlan LaunchPlan := do
  let plan := { plan with kind := lit "retroarch" }
  let launcherDir ← orFail plan (joinPath pathMax req.plumosRoot (lit "bin"))
  let retroarchPath ← orFail plan
    (joinPath textPathMax launcherDir (lit "plumos-retroarch-launch"))
  let plan := { plan with retroarchPath }
  let configPath ← orFail plan
    (joinPath textPathMax req.plumosRoot (lit "config/retroarch/v90s-powervr-quicknes.cfg"))
  let plan := { plan with configPath }
  let corePath ← orFail plan (buildRetroarchCorePath textPathMax req.plumosRoot coreId)
  let plan := { plan with
    corePath
    runtimeExists := env.isFile retroarchPath &&
      (!retroarchMmfRuntimeEnabled env req.plumosRoot ||
        retroarchMmfLauncherExists env req.plumosRoot)
    coreExists := env.isFile corePath }
  let plan ← withCommand plan (runAppends env (retroarchAppends req plan))
  return { plan with canExecute := plan.runtimeExists && plan.coreExists && plan.romExists }

/-- The launcher of a `pyxel:` profile. -/
def pyxelLauncher (pyxelProfile : CString) : Option CString :=
  if pyxelProfile = lit "bubble" then some (lit "plumos-pyxel-bubble-launch")
  else if pyxelProfile = lit "mf" then some (lit "plumos-pyxel-mf-launch")
  else if pyxelProfile = lit "a30" then some (lit "plumos-pyxel-a30-launch")
  else if pyxelProfile = lit "mmf" then some (lit "plumos-pyxel-mmf-launch")
  else if pyxelProfile = [] || pyxelProfile = lit "v90s" then some (lit "plumos-pyxel-v90s-launch")
  else none

/-- The command of the Pyxel runtime for a file. -/
def pyxelCommand (romPath : CString) : Option CString :=
  match pathExtensionLower 32 romPath with
  | none => none
  | some extension =>
    if extension = lit "pyxapp" then some (lit "play")
    else if extension = lit "py" then some (lit "run")
    else none

/-- The assignment of the CPU policy before a command. -/
def policyAppends (variableName : CString) (plan : LaunchPlan) : List Append :=
  unlessEmpty plan.cpuPolicy
    [.string (variableName ++ lit "="), .quoted plan.cpuPolicy, .string (lit " ")]

/-- `build_launch_plan` for `pyxel:` and a profile. -/
def pyxelPlan (plan : LaunchPlan) (pyxelProfile : CString) : Except LaunchPlan LaunchPlan := do
  let plan := { plan with kind := lit "pyxel" }
  match pyxelLauncher pyxelProfile with
  | none => return plan
  | some launcherName =>
    let launcherDir ← orFail plan (joinPath pathMax req.plumosRoot (lit "bin"))
    let pyxelLauncherPath ← orFail plan (joinPath textPathMax launcherDir launcherName)
    let plan := { plan with
      pyxelLauncherPath
      runtimeExists := env.isFile pyxelLauncherPath
      coreExists := true }
    match pyxelCommand plan.romPath with
    | none => return plan
    | some command =>
      let plan ← withCommand plan (runAppends env
        (policyAppends (lit "PLUMOS_PYXEL_CPU_POLICY") plan ++
          [.script pyxelLauncherPath, .string (lit " -m pyxel "), .string command,
            .string (lit " "), .quoted plan.romPath]))
      return { plan with canExecute := plan.runtimeExists && plan.romExists }

/-- `build_launch_plan` for `picoarch:` and a core. -/
def picoarchPlan (plan : LaunchPlan) (coreId : CString) : Except LaunchPlan LaunchPlan := do
  let plan := { plan with kind := lit "picoarch" }
  if coreId = [] then throw plan
  let launcherDir ← orFail plan (joinPath pathMax req.plumosRoot (lit "bin"))
  let picoarchLauncherPath ← orFail plan
    (joinPath textPathMax launcherDir (lit "plumos-picoarch-launch"))
  let plan := { plan with picoarchLauncherPath }
  let corePath ← orFail plan (buildPicoarchCorePath env textPathMax req.plumosRoot coreId)
  let plan := { plan with
    corePath
    runtimeExists := env.isFile picoarchLauncherPath &&
      (!picoarchOnionCompatEnabled env req.plumosRoot ||
        picoarchOnionLauncherExists env req.plumosRoot)
    coreExists := env.isFile corePath }
  let plan ← withCommand plan (runAppends env
    (policyAppends (lit "PLUMOS_PICOARCH_CPU_POLICY") plan ++
      [.string (lit "PLUMOS_PICOARCH_SYSTEM="), .quoted req.systemId, .string (lit " "),
        .script picoarchLauncherPath, .string (lit " "), .quoted coreId, .string (lit " "),
        .quoted plan.romPath]))
  return { plan with canExecute := plan.runtimeExists && plan.coreExists && plan.romExists }

/-- `build_launch_plan` for `standalone:` and an emulator. -/
def standalonePlan (plan : LaunchPlan) (emulatorId : CString) :
    Except LaunchPlan LaunchPlan := do
  let plan := { plan with kind := lit "standalone" }
  if emulatorId = [] then throw plan
  let launcherDir ← orFail plan (joinPath pathMax req.plumosRoot (lit "bin"))
  let standaloneLauncherPath ← orFail plan
    (joinPath textPathMax launcherDir (lit "plumos-standalone-launch"))
  let plan := { plan with
    standaloneLauncherPath
    runtimeExists := env.isFile standaloneLauncherPath
    coreExists := true }
  let plan ← withCommand plan (runAppends env
    (policyAppends (lit "PLUMOS_STANDALONE_CPU_POLICY") plan ++
      [.script standaloneLauncherPath, .string (lit " "), .quoted emulatorId,
        .string (lit " "), .quoted (standaloneContentPath emulatorId plan.romPath)]))
  return { plan with canExecute := plan.runtimeExists && plan.romExists }

/-- `build_launch_plan` for the other `external:` profiles and for `external:port`. -/
def externalPlan (plan : LaunchPlan) (name : CString) : Except LaunchPlan LaunchPlan := do
  let plan := { plan with kind := lit "external", coreExists := true }
  if name = lit "port" then
    let portmasterLauncher ← orFail plan
      (joinPath pathMax req.plumosRoot (lit "bin/plumos-portmaster-port-launch"))
    let plan := { plan with runtimeExists := env.isFile portmasterLauncher }
    let plan ← withCommand plan (runAppends env
      [.script portmasterLauncher, .string (lit " "), .quoted plan.romPath])
    return { plan with canExecute := plan.runtimeExists && plan.romExists }
  else
    let plan := { plan with runtimeExists := true }
    let plan ← withCommand plan (runAppends env [.script plan.romPath])
    return { plan with canExecute := plan.romExists }

/-- The kinds of launch profiles that `build_launch_plan` tells apart. -/
inductive ProfileKind where
  | retroarch (coreId : CString)
  | pyxel (profile : CString)
  | picoarch (coreId : CString)
  | standalone (emulatorId : CString)
  | external (name : CString)
  | internal
  | unknown
  deriving DecidableEq

def profileKind (launchProfile : CString) : ProfileKind :=
  if let some coreId := afterStart (lit "retroarch:") launchProfile then .retroarch coreId
  else if let some profile := afterStart (lit "pyxel:") launchProfile then .pyxel profile
  else if let some coreId := afterStart (lit "picoarch:") launchProfile then .picoarch coreId
  else if let some emulatorId := afterStart (lit "standalone:") launchProfile then
    .standalone emulatorId
  else if let some name := afterStart (lit "external:") launchProfile then .external name
  else if (afterStart (lit "internal:") launchProfile).isSome then .internal
  else .unknown

/-- `build_launch_plan`: the plan, as an error where the function returns 0. -/
def buildLaunchPlan : Except LaunchPlan LaunchPlan :=
  let plan := startPlan env req
  match profileKind req.launchProfile with
  | .retroarch coreId => retroarchPlan env req plan coreId
  | .pyxel profile => pyxelPlan env req plan profile
  | .picoarch coreId => picoarchPlan env req plan coreId
  | .standalone emulatorId => standalonePlan env req plan emulatorId
  | .external name => externalPlan env req plan name
  | .internal => return { plan with kind := lit "internal" }
  | .unknown => return { plan with kind := lit "unknown" }

/-- The plan that `build_launch_plan` leaves, whatever it returns. -/
def builtPlan : LaunchPlan :=
  match buildLaunchPlan env req with
  | .ok plan => plan
  | .error plan => plan

/-- The arguments with which `run_runtime_shell_command` runs a command. -/
def shellArgv (command : CString) : Option (List CString) :=
  if command = [] then none
  else
    (runtimeShellPath env).map fun shellPath =>
      if runtimeShellIsBusybox shellPath then [shellPath, lit "sh", lit "-c", command]
      else [shellPath, lit "-c", command]

/-- `execute_launch_plan`: the arguments of the shell that it runs, if it runs one. -/
def executeLaunchPlan (plan : LaunchPlan) : Option (List CString) :=
  if !plan.canExecute || plan.command = [] then none else shellArgv env plan.command

end Plan

end PlumosBubble.Frontend
