import PlumosBubble.Frontend.LaunchPlan

/-! The launch command as the shell reads it: whenever a plan can be executed, its command
is the assignments, the program and the arguments that the profile asks for, and a command
that does not fit is never run. -/

namespace PlumosBubble.Frontend

open Shell

/-- A script of the installation, or of the user, with its environment and its arguments. An
argument is a word of the source or a string that comes from elsewhere. -/
structure Invocation where
  assignments : List (CString × CString)
  script : CString
  arguments : List (List Piece)

section Intended

variable (env : LaunchEnv) (req : LaunchRequest)

/-- A script, run by the shell of the device. -/
def scriptWords (script : CString) : List CString :=
  match runtimeShellPath env with
  | none => [script]
  | some shellPath =>
    shellPath :: (if runtimeShellIsBusybox shellPath then [lit "sh"] else []) ++ [script]

/-- What the shell is to run. -/
def Invocation.command (invocation : Invocation) : SimpleCommand :=
  ⟨invocation.assignments, scriptWords env invocation.script ++ invocation.arguments.map bytesOf⟩

/-- A path behind a directory, unless it is absolute. -/
def pathUnder (dir name : CString) : CString :=
  if name.head? = some slash then name else dir ++ separator dir ++ name

/-- A launcher of the installation. -/
def launcherPath (name : CString) : CString := pathUnder (pathUnder req.plumosRoot (lit "bin")) name

/-- The file of a RetroArch core. -/
def retroarchCore (coreId : CString) : CString :=
  pathUnder (pathUnder req.plumosRoot (lit "cores")) (coreId ++ lit "_libretro.so")

/-- An option with its value, where there is one. -/
def optionPieces (option value : CString) : List (List Piece) :=
  if value = [] then [] else [[.raw option], [.quoted value]]

/-- The assignment of the CPU policy, where there is one. -/
def policyAssignment (variableName : CString) : List (CString × CString) :=
  if req.cpuPolicy = [] then [] else [(variableName, req.cpuPolicy)]

/-- A `retroarch:` profile. -/
def retroarchInvocation (coreId : CString) : Invocation where
  assignments := []
  script := launcherPath req (lit "plumos-retroarch-launch")
  arguments :=
    [[.raw (lit "--system")], [.quoted req.systemId], [.raw (lit "--core")],
      [.quoted (retroarchCore req coreId)], [.raw (lit "--rom")], [.quoted req.romPath]] ++
    optionPieces (lit "--cpu") req.cpuPolicy ++
    optionPieces (lit "--audio") req.options.audioDriver ++
    (if 0 < req.options.audioLatencyMs then
      [[.raw (lit "--audio-latency")], [.quoted (decimal req.options.audioLatencyMs)]]
    else []) ++
    optionPieces (lit "--dosbox-pure-force60fps") req.options.dosboxPureForce60fps ++
    optionPieces (lit "--dosbox-pure-cycles") req.options.dosboxPureCycles ++
    [[.raw (lit "--safe-exit")], [.raw (lit "false")]]

/-- A `pyxel:` profile, with its launcher and the command for the file. -/
def pyxelInvocation (launcherName command : CString) : Invocation where
  assignments := policyAssignment req (lit "PLUMOS_PYXEL_CPU_POLICY")
  script := launcherPath req launcherName
  arguments := [[.raw (lit "-m")], [.raw (lit "pyxel")], [.raw command], [.quoted req.romPath]]

/-- A `picoarch:` profile. -/
def picoarchInvocation (coreId : CString) : Invocation where
  assignments := policyAssignment req (lit "PLUMOS_PICOARCH_CPU_POLICY") ++
    [(lit "PLUMOS_PICOARCH_SYSTEM", req.systemId)]
  script := launcherPath req (lit "plumos-picoarch-launch")
  arguments := [[.quoted coreId], [.quoted req.romPath]]

/-- A `standalone:` profile. -/
def standaloneInvocation (emulatorId : CString) : Invocation where
  assignments := policyAssignment req (lit "PLUMOS_STANDALONE_CPU_POLICY")
  script := launcherPath req (lit "plumos-standalone-launch")
  arguments := [[.quoted emulatorId], [.quoted (standaloneContentPath emulatorId req.romPath)]]

/-- A port. -/
def portInvocation : Invocation where
  assignments := []
  script := pathUnder req.plumosRoot (lit "bin/plumos-portmaster-port-launch")
  arguments := [[.quoted req.romPath]]

/-- A file that is a script itself. -/
def scriptInvocation : Invocation where
  assignments := []
  script := req.romPath
  arguments := []

/-- What a launch is meant to run, where its profile has something to run. -/
def intended : Option Invocation :=
  match profileKind req.launchProfile with
  | .retroarch coreId => some (retroarchInvocation req coreId)
  | .pyxel profile => do
    let launcherName ← pyxelLauncher profile
    let command ← pyxelCommand req.romPath
    some (pyxelInvocation req launcherName command)
  | .picoarch coreId => some (picoarchInvocation req coreId)
  | .standalone emulatorId => some (standaloneInvocation req emulatorId)
  | .external name => some (if name = lit "port" then portInvocation req else scriptInvocation req)
  | .internal | .unknown => none

end Intended

section Appends

variable {env : LaunchEnv}

/-- The text that an append adds. -/
def Append.text (env : LaunchEnv) : Append → CString
  | .string s => s
  | .quoted s => quote s
  | .script path =>
    match runtimeShellPath env with
    | none => []
    | some shellPath =>
      quote shellPath ++ (if runtimeShellIsBusybox shellPath then lit " sh" else []) ++ lit " " ++
        quote path

theorem bind_eq_ok {ε α β : Type} {x : Except ε α} {f : α → Except ε β} {b : β} :
    (x >>= f) = .ok b ↔ ∃ a, x = .ok a ∧ f a = .ok b := by
  cases x with
  | error e => simp [bind, Except.bind]
  | ok a => simp [bind, Except.bind]

theorem foldlM_adds {ε α : Type} {f : CString → α → Except ε CString} {added : α → CString}
    {fits : CString → Prop}
    (hstep : ∀ buffer a out, f buffer a = .ok out → out = buffer ++ added a ∧ fits out) :
    ∀ (l : List α) {buffer out : CString}, fits buffer → l.foldlM f buffer = .ok out →
      out = buffer ++ l.flatMap added ∧ fits out := by
  intro l
  induction l with
  | nil =>
    intro buffer out hbuffer h
    cases h
    exact ⟨by simp, hbuffer⟩
  | cons a l ih =>
    intro buffer out hbuffer h
    rw [List.foldlM_cons, bind_eq_ok] at h
    obtain ⟨next, hnext, hrest⟩ := h
    obtain ⟨rfl, hfits⟩ := hstep _ _ _ hnext
    obtain ⟨rfl, hout⟩ := ih hfits hrest
    exact ⟨by simp, hout⟩

/-- The command buffer holds the text. -/
def FitsCommand (s : CString) : Prop := s.length + 1 ≤ textCommandMax

theorem appendText_ok {buffer s out : CString} (h : appendText buffer s = .ok out) :
    out = buffer ++ s ∧ FitsCommand out := by
  unfold appendText appendString at h
  by_cases hfits : buffer.length + s.length + 1 ≤ textCommandMax
  · simp only [hfits, if_true, Except.ok.injEq] at h
    subst h
    exact ⟨rfl, by simpa [FitsCommand] using hfits⟩
  · simp only [hfits, if_false] at h
    cases h

theorem appendShellQuoted_ok {buffer s out : CString} (h : appendShellQuoted buffer s = .ok out) :
    out = buffer ++ quote s ∧ FitsCommand out := by
  unfold appendShellQuoted at h
  obtain ⟨opened, hopened, h⟩ := bind_eq_ok.mp h
  obtain ⟨filled, hfilled, h⟩ := bind_eq_ok.mp h
  obtain ⟨rfl, hfits⟩ := appendText_ok hopened
  obtain ⟨rfl, -⟩ := foldlM_adds (fun _ _ _ hstep => appendText_ok hstep) s hfits hfilled
  obtain ⟨rfl, hout⟩ := appendText_ok h
  exact ⟨by simp [quote], hout⟩

theorem appendRuntimeScriptInvocation_ok {buffer script out : CString}
    (h : appendRuntimeScriptInvocation env buffer script = .ok out) :
    out = buffer ++ Append.text env (.script script) ∧ FitsCommand out := by
  unfold appendRuntimeScriptInvocation at h
  unfold Append.text
  cases hshell : runtimeShellPath env with
  | none =>
    simp only [hshell] at h
    cases h
  | some shellPath =>
    simp only [hshell] at h
    by_cases hscript : script = []
    · simp only [hscript, if_true] at h
      cases h
    · simp only [hscript, if_false] at h
      obtain ⟨started, hstarted, h⟩ := bind_eq_ok.mp h
      obtain ⟨rfl, -⟩ := appendShellQuoted_ok hstarted
      by_cases hbusybox : runtimeShellIsBusybox shellPath = true
      · simp only [hbusybox, if_true] at h ⊢
        obtain ⟨applet, happlet, h⟩ := bind_eq_ok.mp h
        obtain ⟨blank, hblank, h⟩ := bind_eq_ok.mp h
        obtain ⟨rfl, -⟩ := appendText_ok happlet
        obtain ⟨rfl, -⟩ := appendText_ok hblank
        obtain ⟨rfl, hout⟩ := appendShellQuoted_ok h
        exact ⟨by simp only [List.append_assoc], hout⟩
      · simp only [hbusybox, pure_bind] at h ⊢
        obtain ⟨blank, hblank, h⟩ := bind_eq_ok.mp h
        obtain ⟨rfl, -⟩ := appendText_ok hblank
        obtain ⟨rfl, hout⟩ := appendShellQuoted_ok h
        exact ⟨by simp [List.append_assoc], hout⟩

theorem run_ok (buffer : CString) (a : Append) (out : CString)
    (h : Append.run env buffer a = .ok out) :
    out = buffer ++ Append.text env a ∧ FitsCommand out := by
  cases a with
  | string s => exact appendText_ok h
  | quoted s => exact appendShellQuoted_ok h
  | script path => exact appendRuntimeScriptInvocation_ok h

theorem runAppends_ok {appends : List Append} {out : CString}
    (h : runAppends env appends = .ok out) :
    out = appends.flatMap (Append.text env) ∧ FitsCommand out := by
  have hnil : FitsCommand [] := by
    unfold FitsCommand textCommandMax
    simp
  simpa using foldlM_adds run_ok appends hnil h

theorem runtimeShellPath_of_runAppends {appends : List Append} {out path : CString} :
    ∀ {buffer : CString}, appends.foldlM (Append.run env) buffer = .ok out →
      Append.script path ∈ appends → ∃ shellPath, runtimeShellPath env = some shellPath := by
  induction appends with
  | nil => simp
  | cons a appends ih =>
    intro buffer h hmem
    rw [List.foldlM_cons, bind_eq_ok] at h
    obtain ⟨next, hnext, hrest⟩ := h
    rcases List.mem_cons.mp hmem with rfl | hmem
    · cases hshell : runtimeShellPath env with
      | some shellPath => exact ⟨shellPath, rfl⟩
      | none =>
        simp only [Append.run, appendRuntimeScriptInvocation, hshell] at hnext
        cases hnext
    · exact ih hrest hmem

end Appends

section Line

variable (env : LaunchEnv)

/-- An invocation as one line. -/
def Invocation.line (invocation : Invocation) : CString :=
  invocation.assignments.flatMap (fun a => wordText (assignPieces a) ++ [0x20]) ++
    Append.text env (.script invocation.script) ++ tailText invocation.arguments

/-- The assigned names are names, and the words of the source need no quotes. -/
structure Invocation.WellFormed (invocation : Invocation) : Prop where
  names : ∀ a ∈ invocation.assignments, isName a.1 = true
  plain : ∀ pieces ∈ invocation.arguments, pieces ≠ [] ∧ ∀ p ∈ pieces, p.plain = true

theorem commandText_assignments (assigns : List (CString × CString)) (w : List Piece)
    (ws : List (List Piece)) :
    commandText (assigns.map assignPieces ++ w :: ws) =
      assigns.flatMap (fun a => wordText (assignPieces a) ++ [0x20]) ++ commandText (w :: ws) := by
  induction assigns with
  | nil => rfl
  | cons a assigns ih =>
    have hnext : ∀ l : List (List Piece), l ≠ [] → tailText l = 0x20 :: commandText l := by
      intro l hl
      cases l with
      | nil => exact absurd rfl hl
      | cons p l => simp [tailText, commandText_cons]
    rw [List.map_cons, List.cons_append, commandText_cons, hnext _ (by simp), ih,
      List.flatMap_cons]
    simp [List.append_assoc]

theorem parseCommand_line {invocation : Invocation} (hwf : invocation.WellFormed)
    {shellPath : CString} (hshell : runtimeShellPath env = some shellPath) :
    parseCommand (invocation.line env) = some (invocation.command env) := by
  let applet : List (List Piece) :=
    if runtimeShellIsBusybox shellPath then [[.raw (lit "sh")]] else []
  let args := applet ++ [[.quoted invocation.script]] ++ invocation.arguments
  have happlet : tailText applet = if runtimeShellIsBusybox shellPath then lit " sh" else [] := by
    by_cases hbusybox : runtimeShellIsBusybox shellPath = true
    · simp only [applet, hbusybox, if_true]
      rfl
    · simp [applet, hbusybox, tailText]
  have hline : invocation.line env =
      commandText (invocation.assignments.map assignPieces ++ [.quoted shellPath] :: args) := by
    rw [commandText_assignments, commandText_cons, tailText_append, tailText_append, happlet]
    unfold Invocation.line Append.text
    have hblank : lit " " = [0x20] := rfl
    simp [hshell, tailText, wordText, Piece.text, hblank, List.append_assoc]
  have hargs : ∀ pieces ∈ args, pieces ≠ [] ∧ ∀ p ∈ pieces, p.plain = true := by
    intro pieces hmem
    rcases List.mem_append.mp hmem with hmem | hmem
    · rcases List.mem_append.mp hmem with hmem | hmem
      · by_cases hbusybox : runtimeShellIsBusybox shellPath = true
        · simp only [applet, hbusybox, if_true, List.mem_singleton] at hmem
          rw [hmem]
          decide
        · simp [applet, hbusybox] at hmem
      · rw [List.mem_singleton.mp hmem]
        simp [Piece.plain]
    · exact hwf.plain pieces hmem
  rw [hline, parseCommand_commandText hwf.names hargs]
  unfold Invocation.command scriptWords
  by_cases hbusybox : runtimeShellIsBusybox shellPath = true
  · simp [hshell, args, applet, hbusybox]
  · simp [hshell, args, applet, hbusybox]

end Line

section Refusals

/-- What a function leaves when it returns 0 cannot be executed. -/
def Refused {α : Type} (x : Except LaunchPlan α) : Prop :=
  ∀ plan, x = .error plan → plan.canExecute = false

theorem refused_ok {α : Type} (a : α) : Refused (.ok a : Except LaunchPlan α) := by
  intro plan h
  cases h

theorem refused_bind {α β : Type} {x : Except LaunchPlan α} {f : α → Except LaunchPlan β}
    (hx : Refused x) (hf : ∀ a, x = .ok a → Refused (f a)) : Refused (x >>= f) := by
  intro plan h
  cases hvalue : x with
  | error plan' =>
    rw [hvalue] at h
    cases h
    exact hx _ hvalue
  | ok a =>
    rw [hvalue] at h
    exact hf a hvalue plan h

theorem refused_orFail {α : Type} {plan : LaunchPlan} (hplan : plan.canExecute = false)
    (x : Option α) : Refused (orFail plan x) := by
  intro plan' h
  cases x with
  | none =>
    cases h
    exact hplan
  | some a => cases h

theorem refused_withCommand {plan : LaunchPlan} (hplan : plan.canExecute = false)
    (x : Except CString CString) : Refused (withCommand plan x) := by
  intro plan' h
  cases x with
  | error command =>
    cases h
    exact hplan
  | ok command => cases h

theorem orFail_ok {α : Type} {plan : LaunchPlan} {x : Option α} {a : α} :
    orFail plan x = .ok a ↔ x = some a := by
  cases x with
  | none => simp [orFail]
  | some b => simp [orFail]

theorem withCommand_ok {plan out : LaunchPlan} {x : Except CString CString} :
    withCommand plan x = .ok out ↔ ∃ command, x = .ok command ∧ out = { plan with command } := by
  cases x with
  | error command => simp [withCommand]
  | ok command => simp [withCommand, eq_comm]

variable (env : LaunchEnv) (req : LaunchRequest) {plan : LaunchPlan}

theorem refused_retroarchPlan (hplan : plan.canExecute = false) (coreId : CString) :
    Refused (retroarchPlan env req plan coreId) := by
  unfold retroarchPlan
  apply refused_bind
  · apply refused_orFail
    exact hplan
  intro launcherDir _
  apply refused_bind
  · apply refused_orFail
    exact hplan
  intro retroarchPath _
  apply refused_bind
  · apply refused_orFail
    exact hplan
  intro configPath _
  apply refused_bind
  · apply refused_orFail
    exact hplan
  intro corePath _
  apply refused_bind
  · apply refused_withCommand
    exact hplan
  intro _ _
  apply refused_ok

theorem refused_pyxelPlan (hplan : plan.canExecute = false) (profile : CString) :
    Refused (pyxelPlan env req plan profile) := by
  unfold pyxelPlan
  cases hname : pyxelLauncher profile with
  | none => exact refused_ok _
  | some launcherName =>
    apply refused_bind
    · apply refused_orFail
      exact hplan
    intro launcherDir _
    apply refused_bind
    · apply refused_orFail
      exact hplan
    intro launcherPath _
    dsimp only
    cases hcommand : pyxelCommand plan.romPath with
    | none => exact refused_ok _
    | some command =>
      apply refused_bind
      · apply refused_withCommand
        exact hplan
      intro _ _
      apply refused_ok

theorem refused_picoarchPlan (hplan : plan.canExecute = false) (coreId : CString) :
    Refused (picoarchPlan env req plan coreId) := by
  unfold picoarchPlan
  by_cases hcore : coreId = []
  · rw [if_pos hcore]
    intro plan' h
    cases h
    exact hplan
  · rw [if_neg hcore]
    apply refused_bind
    · apply refused_orFail
      exact hplan
    intro launcherDir _
    apply refused_bind
    · apply refused_orFail
      exact hplan
    intro launcherPath _
    apply refused_bind
    · apply refused_orFail
      exact hplan
    intro corePath _
    apply refused_bind
    · apply refused_withCommand
      exact hplan
    intro _ _
    apply refused_ok

theorem refused_standalonePlan (hplan : plan.canExecute = false) (emulatorId : CString) :
    Refused (standalonePlan env req plan emulatorId) := by
  unfold standalonePlan
  by_cases hemulator : emulatorId = []
  · rw [if_pos hemulator]
    intro plan' h
    cases h
    exact hplan
  · rw [if_neg hemulator]
    apply refused_bind
    · apply refused_orFail
      exact hplan
    intro launcherDir _
    apply refused_bind
    · apply refused_orFail
      exact hplan
    intro launcherPath _
    apply refused_bind
    · apply refused_withCommand
      exact hplan
    intro _ _
    apply refused_ok

theorem refused_externalPlan (hplan : plan.canExecute = false) (name : CString) :
    Refused (externalPlan env req plan name) := by
  unfold externalPlan
  by_cases hname : name = lit "port"
  · rw [if_pos hname]
    apply refused_bind
    · apply refused_orFail
      exact hplan
    intro launcher _
    apply refused_bind
    · apply refused_withCommand
      exact hplan
    intro _ _
    apply refused_ok
  · rw [if_neg hname]
    apply refused_bind
    · apply refused_withCommand
      exact hplan
    intro _ _
    apply refused_ok

/-- Where `build_launch_plan` returns 0, the plan cannot be executed. -/
theorem refused_buildLaunchPlan : Refused (buildLaunchPlan env req) := by
  have hstart : (startPlan env req).canExecute = false := rfl
  unfold buildLaunchPlan
  cases profileKind req.launchProfile with
  | retroarch coreId => exact refused_retroarchPlan env req hstart coreId
  | pyxel profile => exact refused_pyxelPlan env req hstart profile
  | picoarch coreId => exact refused_picoarchPlan env req hstart coreId
  | standalone emulatorId => exact refused_standalonePlan env req hstart emulatorId
  | external name => exact refused_externalPlan env req hstart name
  | internal => exact refused_ok _
  | unknown => exact refused_ok _

end Refusals

section Complete

variable {env : LaunchEnv} {req : LaunchRequest}

theorem joinPath_eq {size : ℕ} {a b out : CString} (h : joinPath size a b = some out) :
    out = pathUnder a b := by
  unfold joinPath at h
  unfold pathUnder
  by_cases habsolute : b.head? = some slash
  · rw [if_pos habsolute] at h ⊢
    exact (copyString_eq_some.mp h).1
  · rw [if_neg habsolute] at h ⊢
    exact (copyString_eq_some.mp h).1

theorem joinPath_launcherPath {n m : ℕ} {dir name out : CString}
    (hdir : joinPath n req.plumosRoot (lit "bin") = some dir)
    (hout : joinPath m dir name = some out) : out = launcherPath req name := by
  rw [joinPath_eq hout, joinPath_eq hdir]
  rfl

theorem buildRetroarchCorePath_eq {size : ℕ} {coreId out : CString}
    (h : buildRetroarchCorePath size req.plumosRoot coreId = some out) :
    out = retroarchCore req coreId := by
  unfold buildRetroarchCorePath at h
  simp only [Option.bind_eq_bind, Option.bind_eq_some_iff] at h
  obtain ⟨fileName, hfile, coresDir, hdir, hout⟩ := h
  rw [joinPath_eq hout, joinPath_eq hdir, (copyString_eq_some.mp hfile).1]
  rfl

theorem copied_eq {size : ℕ} {s : CString} (h : copied size s ≠ []) : copied size s = s := by
  unfold copied copyString at h ⊢
  by_cases hfits : s.length + 1 ≤ size
  · simp [hfits]
  · simp [hfits] at h

theorem romPath_startPlan (h : (startPlan env req).romExists = true) :
    (startPlan env req).romPath = req.romPath := by
  apply copied_eq
  intro hnil
  have hexists : romPathExists env (copied textPathMax req.romPath) = true := h
  rw [hnil] at hexists
  simp [romPathExists, env.isFileOrDir_nil, splitContentSuffix] at hexists

theorem cpuPolicy_startPlan : (startPlan env req).cpuPolicy = req.cpuPolicy := by
  show copied 32 req.cpuPolicy = req.cpuPolicy
  unfold copied copyString
  rw [if_pos req.cpuPolicy_fits]
  rfl

/-- The command is the whole line of the invocation, and there is a shell to run it. -/
structure RunsWhole (env : LaunchEnv) (invocation : Invocation) (command : CString) : Prop where
  command_eq : command = invocation.line env
  fits : FitsCommand command
  shell : ∃ shellPath, runtimeShellPath env = some shellPath

/-- The appends write the line of the invocation. -/
structure Writes (env : LaunchEnv) (appends : List Append) (invocation : Invocation) : Prop where
  script : Append.script invocation.script ∈ appends
  text : appends.flatMap (Append.text env) = invocation.line env

theorem Writes.runsWhole {appends : List Append} {invocation : Invocation} {command : CString}
    (hwrites : Writes env appends invocation) (h : runAppends env appends = .ok command) :
    RunsWhole env invocation command where
  command_eq := (runAppends_ok h).1.trans hwrites.text
  fits := (runAppends_ok h).2
  shell := runtimeShellPath_of_runAppends h hwrites.script

theorem tailText_option (s option : CString) (hs : s = 0x20 :: (option ++ [0x20]))
    (value : CString) : s ++ quote value = tailText [[.raw option], [.quoted value]] := by
  simp [tailText, wordText, Piece.text, hs]

theorem text_unlessEmpty (s option : CString) (hs : s = 0x20 :: (option ++ [0x20]))
    (value : CString) :
    (unlessEmpty value [.string s, .quoted value]).flatMap (Append.text env) =
      tailText (optionPieces option value) := by
  unfold unlessEmpty optionPieces
  by_cases hvalue : value = []
  · simp [hvalue, tailText]
  · simp only [hvalue, if_false, ← tailText_option s option hs]
    simp [Append.text]

theorem text_policyAppends {plan : LaunchPlan} (hplan : plan.cpuPolicy = req.cpuPolicy)
    (variableName : CString) :
    (policyAppends variableName plan).flatMap (Append.text env) =
      (policyAssignment req variableName).flatMap
        (fun a => wordText (assignPieces a) ++ [0x20]) := by
  unfold policyAppends policyAssignment unlessEmpty
  rw [hplan]
  by_cases hpolicy : req.cpuPolicy = []
  · simp [hpolicy]
  · have hequals : lit "=" = [0x3d] := rfl
    have hblank : lit " " = [0x20] := rfl
    simp [hpolicy, Append.text, wordText, assignPieces, Piece.text, hequals, hblank]

theorem text_latency (latency : ℤ) :
    (if 0 < latency then [Append.string (lit " --audio-latency "), .quoted (decimal latency)]
      else []).flatMap (Append.text env) =
    tailText (if 0 < latency then [[.raw (lit "--audio-latency")], [.quoted (decimal latency)]]
      else []) := by
  by_cases hlatency : 0 < latency
  · simp only [hlatency, if_true, ← tailText_option (lit " --audio-latency ") (lit "--audio-latency") rfl]
    simp [Append.text]
  · simp [hlatency, tailText]

theorem writes_retroarchAppends {plan : LaunchPlan} {coreId : CString}
    (hlauncher : plan.retroarchPath = launcherPath req (lit "plumos-retroarch-launch"))
    (hcore : plan.corePath = retroarchCore req coreId) (hrom : plan.romPath = req.romPath)
    (hpolicy : plan.cpuPolicy = req.cpuPolicy) (hoptions : plan.options = req.options) :
    Writes env (retroarchAppends req plan) (retroarchInvocation req coreId) := by
  have hwords : tailText [[.raw (lit "--system")], [.quoted req.systemId], [.raw (lit "--core")],
      [.quoted (retroarchCore req coreId)], [.raw (lit "--rom")], [.quoted req.romPath]] =
      lit " --system " ++ quote req.systemId ++ (lit " --core " ++ quote (retroarchCore req coreId)) ++
        (lit " --rom " ++ quote req.romPath) := by
    rw [tailText_option (lit " --system ") (lit "--system") rfl,
      tailText_option (lit " --core ") (lit "--core") rfl,
      tailText_option (lit " --rom ") (lit "--rom") rfl, ← tailText_append, ← tailText_append]
    rfl
  have hexit : tailText [[.raw (lit "--safe-exit")], [.raw (lit "false")]] =
      lit " --safe-exit false" := rfl
  constructor
  · simp [retroarchAppends, retroarchInvocation, hlauncher]
  · unfold retroarchAppends retroarchInvocation Invocation.line
    simp only [List.flatMap_append, tailText_append, hwords, hexit, hlauncher, hcore, hrom,
      hpolicy, hoptions, text_latency]
    rw [text_unlessEmpty (lit " --cpu ") (lit "--cpu") rfl,
      text_unlessEmpty (lit " --audio ") (lit "--audio") rfl,
      text_unlessEmpty (lit " --dosbox-pure-force60fps ") (lit "--dosbox-pure-force60fps") rfl,
      text_unlessEmpty (lit " --dosbox-pure-cycles ") (lit "--dosbox-pure-cycles") rfl]
    simp [Append.text, List.append_assoc]

theorem blank_eq : lit " " = [0x20] := rfl

theorem writes_script {assigning arguing : List Append} {script : CString} {invocation : Invocation}
    (hscript : script = invocation.script)
    (hassigning : assigning.flatMap (Append.text env) =
      invocation.assignments.flatMap fun a => wordText (assignPieces a) ++ [0x20])
    (harguing : arguing.flatMap (Append.text env) = tailText invocation.arguments) :
    Writes env (assigning ++ .script script :: arguing) invocation := by
  constructor
  · simp [hscript]
  · unfold Invocation.line
    rw [List.flatMap_append, List.flatMap_cons, harguing, hassigning, hscript]
    simp only [List.append_assoc]

/-- What a plan that can be executed runs is what is intended. -/
def Intends (env : LaunchEnv) (req : LaunchRequest) (plan : LaunchPlan) : Prop :=
  plan.canExecute = true → ∃ invocation, intended req = some invocation ∧
    RunsWhole env invocation plan.command

theorem intends_retroarchPlan {coreId : CString} {out : LaunchPlan}
    (hkind : profileKind req.launchProfile = .retroarch coreId)
    (h : retroarchPlan env req (startPlan env req) coreId = .ok out) : Intends env req out := by
  unfold retroarchPlan at h
  simp only [bind_eq_ok, orFail_ok, withCommand_ok] at h
  obtain ⟨launcherDir, hdir, retroarchPath, hpath, configPath, -, corePath, hcore, plan,
    ⟨command, hrun, hplan⟩, hout⟩ := h
  subst hplan
  cases hout
  intro hexec
  have hrom := romPath_startPlan (Bool.and_eq_true_iff.mp hexec).2
  have hpolicy := @cpuPolicy_startPlan env req
  refine ⟨retroarchInvocation req coreId, by rw [intended, hkind], ?_⟩
  apply Writes.runsWhole _ hrun
  apply writes_retroarchAppends
  · exact joinPath_launcherPath hdir hpath
  · exact buildRetroarchCorePath_eq hcore
  · exact hrom
  · exact hpolicy
  · rfl

theorem intends_pyxelPlan {profile : CString} {out : LaunchPlan}
    (hkind : profileKind req.launchProfile = .pyxel profile)
    (h : pyxelPlan env req (startPlan env req) profile = .ok out) : Intends env req out := by
  intro hexec
  unfold pyxelPlan at h
  cases hname : pyxelLauncher profile with
  | none =>
    rw [hname] at h
    cases h
    cases hexec
  | some launcherName =>
    simp only [hname, bind_eq_ok, orFail_ok] at h
    obtain ⟨launcherDir, hdir, launcher, hpath, h⟩ := h
    cases hcommand : pyxelCommand (startPlan env req).romPath with
    | none =>
      rw [hcommand] at h
      cases h
      cases hexec
    | some pyxel =>
      simp only [hcommand, bind_eq_ok, withCommand_ok] at h
      obtain ⟨plan, ⟨command, hrun, hplan⟩, hout⟩ := h
      subst hplan
      cases hout
      have hrom := romPath_startPlan (Bool.and_eq_true_iff.mp hexec).2
      have hpolicy := @cpuPolicy_startPlan env req
      rw [hrom] at hcommand
      rw [joinPath_launcherPath hdir hpath, hrom] at hrun
      refine ⟨pyxelInvocation req launcherName pyxel, ?_, ?_⟩
      · simp [intended, hkind, hname, hcommand]
      · apply Writes.runsWhole _ hrun
        apply writes_script
        · rfl
        · exact text_policyAppends hpolicy _
        · have hmodule : lit " -m pyxel " =
              0x20 :: (lit "-m" ++ 0x20 :: (lit "pyxel" ++ [0x20])) := rfl
          simp [pyxelInvocation, Append.text, tailText, wordText, Piece.text, hmodule, blank_eq]

theorem intends_picoarchPlan {coreId : CString} {out : LaunchPlan}
    (hkind : profileKind req.launchProfile = .picoarch coreId)
    (h : picoarchPlan env req (startPlan env req) coreId = .ok out) : Intends env req out := by
  intro hexec
  unfold picoarchPlan at h
  by_cases hcore : coreId = []
  · rw [if_pos hcore] at h
    cases h
  · rw [if_neg hcore] at h
    simp only [bind_eq_ok, orFail_ok, withCommand_ok] at h
    obtain ⟨launcherDir, hdir, launcher, hpath, corePath, -, plan, ⟨command, hrun, hplan⟩,
      hout⟩ := h
    subst hplan
    cases hout
    have hrom := romPath_startPlan (Bool.and_eq_true_iff.mp hexec).2
    have hpolicy := @cpuPolicy_startPlan env req
    have hsystem : lit "PLUMOS_PICOARCH_SYSTEM=" = lit "PLUMOS_PICOARCH_SYSTEM" ++ [0x3d] := rfl
    rw [joinPath_launcherPath hdir hpath, hrom] at hrun
    refine ⟨picoarchInvocation req coreId, by rw [intended, hkind], ?_⟩
    apply Writes.runsWhole _ hrun
    constructor
    · simp [picoarchInvocation]
    · unfold Invocation.line picoarchInvocation
      rw [List.flatMap_append, List.flatMap_append, @text_policyAppends env req]
      · simp [Append.text, tailText, wordText, assignPieces, Piece.text, hsystem, blank_eq]
      · exact hpolicy

theorem intends_standalonePlan {emulatorId : CString} {out : LaunchPlan}
    (hkind : profileKind req.launchProfile = .standalone emulatorId)
    (h : standalonePlan env req (startPlan env req) emulatorId = .ok out) :
    Intends env req out := by
  intro hexec
  unfold standalonePlan at h
  by_cases hemulator : emulatorId = []
  · rw [if_pos hemulator] at h
    cases h
  · rw [if_neg hemulator] at h
    simp only [bind_eq_ok, orFail_ok, withCommand_ok] at h
    obtain ⟨launcherDir, hdir, launcher, hpath, plan, ⟨command, hrun, hplan⟩, hout⟩ := h
    subst hplan
    cases hout
    have hrom := romPath_startPlan (Bool.and_eq_true_iff.mp hexec).2
    have hpolicy := @cpuPolicy_startPlan env req
    rw [joinPath_launcherPath hdir hpath, hrom] at hrun
    refine ⟨standaloneInvocation req emulatorId, by rw [intended, hkind], ?_⟩
    apply Writes.runsWhole _ hrun
    apply writes_script
    · rfl
    · exact text_policyAppends hpolicy _
    · simp [standaloneInvocation, Append.text, tailText, wordText, Piece.text, blank_eq]

theorem intends_externalPlan {name : CString} {out : LaunchPlan}
    (hkind : profileKind req.launchProfile = .external name)
    (h : externalPlan env req (startPlan env req) name = .ok out) : Intends env req out := by
  intro hexec
  unfold externalPlan at h
  by_cases hname : name = lit "port"
  · rw [if_pos hname] at h
    simp only [bind_eq_ok, orFail_ok, withCommand_ok] at h
    obtain ⟨launcher, hpath, plan, ⟨command, hrun, hplan⟩, hout⟩ := h
    subst hplan
    cases hout
    have hrom := romPath_startPlan (Bool.and_eq_true_iff.mp hexec).2
    rw [joinPath_eq hpath, hrom] at hrun
    refine ⟨portInvocation req, by simp only [intended, hkind, hname, if_true], ?_⟩
    apply Writes.runsWhole _ hrun
    apply @writes_script env []
    · rfl
    · rfl
    · simp [portInvocation, Append.text, tailText, wordText, Piece.text, blank_eq]
  · rw [if_neg hname] at h
    simp only [bind_eq_ok, withCommand_ok] at h
    obtain ⟨plan, ⟨command, hrun, hplan⟩, hout⟩ := h
    subst hplan
    cases hout
    have hrom := romPath_startPlan hexec
    rw [hrom] at hrun
    refine ⟨scriptInvocation req, by simp only [intended, hkind, hname, if_false], ?_⟩
    exact Writes.runsWhole (@writes_script env [] [] _ _ rfl rfl rfl) hrun

/-- Where `build_launch_plan` returns 1, a plan that can be executed runs what is intended. -/
theorem intends_buildLaunchPlan {out : LaunchPlan} (h : buildLaunchPlan env req = .ok out) :
    Intends env req out := by
  unfold buildLaunchPlan at h
  cases hkind : profileKind req.launchProfile with
  | retroarch coreId => exact intends_retroarchPlan hkind (by rwa [hkind] at h)
  | pyxel profile => exact intends_pyxelPlan hkind (by rwa [hkind] at h)
  | picoarch coreId => exact intends_picoarchPlan hkind (by rwa [hkind] at h)
  | standalone emulatorId => exact intends_standalonePlan hkind (by rwa [hkind] at h)
  | external name => exact intends_externalPlan hkind (by rwa [hkind] at h)
  | internal =>
    rw [hkind] at h
    cases h
    intro hexec
    cases hexec
  | unknown =>
    rw [hkind] at h
    cases h
    intro hexec
    cases hexec

end Complete

section WellFormed

variable (req : LaunchRequest)

@[simp] theorem plain_quoted (s : CString) : (Piece.quoted s).plain = true := rfl

theorem plain_optionPieces {option : CString} (hoption : (Piece.raw option).plain = true)
    (value : CString) : ∀ pieces ∈ optionPieces option value,
      pieces ≠ [] ∧ ∀ p ∈ pieces, p.plain = true := by
  unfold optionPieces
  by_cases hvalue : value = []
  · simp [hvalue]
  · simp [hvalue, hoption]

theorem isName_policyAssignment {variableName : CString} (hname : isName variableName = true) :
    ∀ a ∈ policyAssignment req variableName, isName a.1 = true := by
  unfold policyAssignment
  by_cases hpolicy : req.cpuPolicy = []
  · simp [hpolicy]
  · simp [hpolicy, hname]

theorem plain_pyxelCommand {romPath command : CString} (h : pyxelCommand romPath = some command) :
    (Piece.raw command).plain = true := by
  have hplain : (Piece.raw (lit "play")).plain = true ∧ (Piece.raw (lit "run")).plain = true := by
    decide
  unfold pyxelCommand at h
  split at h
  · cases h
  · split_ifs at h
    · cases h
      exact hplain.1
    · cases h
      exact hplain.2

theorem wellFormed_retroarchInvocation (coreId : CString) :
    (retroarchInvocation req coreId).WellFormed := by
  constructor
  · simp [retroarchInvocation]
  · unfold retroarchInvocation
    simp only [List.forall_mem_append]
    refine ⟨⟨⟨⟨⟨⟨?_, plain_optionPieces (by decide) _⟩, plain_optionPieces (by decide) _⟩, ?_⟩,
      plain_optionPieces (by decide) _⟩, plain_optionPieces (by decide) _⟩, by decide⟩
    · have hsystem : (Piece.raw (lit "--system")).plain = true := by decide
      have hcore : (Piece.raw (lit "--core")).plain = true := by decide
      have hrom : (Piece.raw (lit "--rom")).plain = true := by decide
      simp [hsystem, hcore, hrom]
    · have hoption : (Piece.raw (lit "--audio-latency")).plain = true := by decide
      by_cases hlatency : 0 < req.options.audioLatencyMs
      · simp [hlatency, hoption]
      · simp [hlatency]

theorem wellFormed_pyxelInvocation {romPath launcherName command : CString}
    (h : pyxelCommand romPath = some command) :
    (pyxelInvocation req launcherName command).WellFormed := by
  constructor
  · exact isName_policyAssignment req (by decide)
  · have hflag : (Piece.raw (lit "-m")).plain = true := by decide
    have hmodule : (Piece.raw (lit "pyxel")).plain = true := by decide
    simp [pyxelInvocation, hflag, hmodule, plain_pyxelCommand h]

theorem wellFormed_picoarchInvocation (coreId : CString) :
    (picoarchInvocation req coreId).WellFormed := by
  constructor
  · simp only [picoarchInvocation, List.forall_mem_append]
    refine ⟨isName_policyAssignment req (by decide), ?_⟩
    have hname : isName (lit "PLUMOS_PICOARCH_SYSTEM") = true := by decide
    simp [hname]
  · simp [picoarchInvocation]

theorem wellFormed_standaloneInvocation (emulatorId : CString) :
    (standaloneInvocation req emulatorId).WellFormed := by
  constructor
  · exact isName_policyAssignment req (by decide)
  · simp [standaloneInvocation]

theorem wellFormed_of_intended {invocation : Invocation} (h : intended req = some invocation) :
    invocation.WellFormed := by
  unfold intended at h
  split at h
  · cases h
    exact wellFormed_retroarchInvocation req _
  · simp only [Option.bind_eq_bind, Option.bind_eq_some_iff] at h
    obtain ⟨launcherName, -, command, hcommand, h⟩ := h
    cases h
    exact wellFormed_pyxelInvocation req hcommand
  · cases h
    exact wellFormed_picoarchInvocation req _
  · cases h
    exact wellFormed_standaloneInvocation req _
  · cases h
    split_ifs
    · constructor <;> simp [portInvocation]
    · constructor <;> simp [scriptInvocation]
  · cases h
  · cases h

end WellFormed

section Exact

variable (env : LaunchEnv) (req : LaunchRequest)

theorem builtPlan_intends : Intends env req (builtPlan env req) := by
  unfold builtPlan
  cases hbuild : buildLaunchPlan env req with
  | ok plan => exact intends_buildLaunchPlan hbuild
  | error plan =>
    intro hexec
    rw [refused_buildLaunchPlan env req plan hbuild] at hexec
    cases hexec

theorem canExecute_of_executeLaunchPlan {plan : LaunchPlan} {argv : List CString}
    (h : executeLaunchPlan env plan = some argv) : plan.canExecute = true := by
  unfold executeLaunchPlan at h
  by_contra hexec
  simp [hexec] at h

theorem parseCommand_of_intended {invocation : Invocation} {command : CString}
    (hintended : intended req = some invocation) (hruns : RunsWhole env invocation command) :
    parseCommand command = some (invocation.command env) := by
  obtain ⟨shellPath, hshell⟩ := hruns.shell
  rw [hruns.command_eq]
  exact parseCommand_line env (wellFormed_of_intended req hintended) hshell

/-- A plan that can be executed holds the whole command, and the shell reads it as what is
intended; a plan that was given up, or whose command does not fit, is not executed. -/
theorem launch_command_exact :
    ((builtPlan env req).canExecute = true → ∃ invocation, intended req = some invocation ∧
      (builtPlan env req).command = invocation.line env ∧
      parseCommand (builtPlan env req).command = some (invocation.command env)) ∧
    (∀ argv, executeLaunchPlan env (builtPlan env req) = some argv →
      ∃ invocation shellPath, intended req = some invocation ∧
        runtimeShellPath env = some shellPath ∧
        argv = shellPath :: (if runtimeShellIsBusybox shellPath then [lit "sh"] else []) ++
          [lit "-c", invocation.line env] ∧
        parseCommand (invocation.line env) = some (invocation.command env)) ∧
    (∀ plan, buildLaunchPlan env req = .error plan →
      plan.canExecute = false ∧ executeLaunchPlan env plan = none) ∧
    (∀ invocation, intended req = some invocation →
      textCommandMax < (invocation.line env).length + 1 →
        (builtPlan env req).canExecute = false ∧
          executeLaunchPlan env (builtPlan env req) = none) := by
  have hintends := builtPlan_intends env req
  have hnever : ∀ plan : LaunchPlan, plan.canExecute = false →
      plan.canExecute = false ∧ executeLaunchPlan env plan = none := by
    intro plan hplan
    exact ⟨hplan, by simp [executeLaunchPlan, hplan]⟩
  refine ⟨?_, ?_, ?_, ?_⟩
  · intro hexec
    obtain ⟨invocation, hintended, hruns⟩ := hintends hexec
    exact ⟨invocation, hintended, hruns.command_eq, parseCommand_of_intended env req hintended hruns⟩
  · intro argv hargv
    obtain ⟨invocation, hintended, hruns⟩ := hintends (canExecute_of_executeLaunchPlan env hargv)
    obtain ⟨shellPath, hshell⟩ := hruns.shell
    have hparse := parseCommand_of_intended env req hintended hruns
    rw [hruns.command_eq] at hparse
    refine ⟨invocation, shellPath, hintended, hshell, ?_, hparse⟩
    unfold executeLaunchPlan shellArgv at hargv
    rw [hruns.command_eq] at hargv
    split_ifs at hargv
    simp only [hshell, Option.map_some, Option.some.injEq] at hargv
    rw [← hargv]
    by_cases hbusybox : runtimeShellIsBusybox shellPath = true
    · simp [hbusybox]
    · simp [hbusybox]
  · intro plan hbuild
    exact hnever plan (refused_buildLaunchPlan env req plan hbuild)
  · intro invocation hintended hlong
    apply hnever
    by_contra hexec
    obtain ⟨invocation', hintended', hruns⟩ := hintends (by simpa using hexec)
    rw [hintended] at hintended'
    cases hintended'
    have hfits := hruns.fits
    rw [hruns.command_eq] at hfits
    unfold FitsCommand at hfits
    omega

end Exact

end PlumosBubble.Frontend
