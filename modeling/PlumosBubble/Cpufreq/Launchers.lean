import PlumosBubble.Cpufreq.Control
import PlumosBubble.Script.Signals

/-! `plumos-retroarch-launch`, `plumos-picoarch-launch`, `plumos-ggfe-launch` and
`plumos-standalone-launch`: the CPU policy of each, with its traps and `set -e`, from the
snapshot to the restore. The program of a launcher may run launchers in its turn. A command of
`plumos-cpu-control` is atomic; a command that changes nothing here, and whose failure is
ignored, is left out. -/

namespace PlumosBubble.Cpufreq

open Scripts

/-- The emulators of `plumos-standalone-launch`. -/
inductive Emulator where
  | ppsspp
  | openbor
  | drastic
  | yabasanshiro
  | pcsxRearmed
  deriving DecidableEq

inductive Launcher where
  | retroarch
  | picoarch
  | ggfe
  | standalone (emulator : Emulator)
  deriving DecidableEq

inductive Signal where
  | hup
  | int
  | term
  deriving DecidableEq

/-- The processors; which launcher each invocation is, the policy that it is asked for, and the
invocation whose program starts it. -/
structure Setup (N G : Type) where
  cpus : Cpus N G
  launcher : ℕ → Launcher
  cpuPolicy : ℕ → G
  host : ℕ → Option ℕ

/-- One invocation: `cpu_snapshot_active`, `set -e`, the exit trap and the traps of the signals,
whether the pid of the program, `stop_rc` and `runner_pid` are set, whether the shell waits for a
program in the foreground, whether the program is there, and the snapshot file. Nothing reads
the rest: the governors it has found, whether it has applied its policy and not restored them,
how many of its commands have failed in a way that ends it, and how often a restore has failed
that had something to give back. -/
structure Cell (N G : Type) where
  snapshotActive : Bool
  errexit : Bool
  exitTrap : Bool
  traps : Signal → Bool
  childPid : Bool
  stopRc : Bool
  runnerPid : Bool
  foreground : Bool
  program : Bool
  saved : Option (List (N × G))
  before : N → G
  applied : Bool
  failures : ℕ
  lost : ℕ

structure State (N G : Type) where
  governor : N → G
  running : List ℕ
  cell : ℕ → Cell N G

variable {N G : Type} [DecidableEq N] [DecidableEq G]

/-- An invocation ends early in one way: it exits or is killed. -/
abbrev Sh (N G : Type) := Script (State N G) Unit

/-- After `set -eu`; a snapshot file may be left of an earlier process with the same pid. -/
def Cell.start (saved : Option (List (N × G))) (before : N → G) : Cell N G where
  snapshotActive := false
  errexit := true
  exitTrap := false
  traps _ := false
  childPid := false
  stopRc := false
  runnerPid := false
  foreground := false
  program := false
  saved := saved
  before := before
  applied := false
  failures := 0
  lost := 0

def Cell.ended (c : Cell N G) : Cell N G := { c with program := false }

namespace State

variable (s : State N G) (i : ℕ)

def setCell (f : Cell N G → Cell N G) : State N G :=
  { s with cell := Function.update s.cell i (f (s.cell i)) }

def start : State N G :=
  { s with
    running := i :: s.running
    cell := Function.update s.cell i (.start (s.cell i).saved s.governor) }

def leave : State N G := { s with running := s.running.erase i }

/-- The program is gone. -/
def endProgram : State N G := s.setCell i Cell.ended

/-- A command has failed, and the script ends for it. -/
def fail : State N G := s.setCell i fun c => { c with failures := c.failures + 1 }

def lose : State N G := s.setCell i fun c => { c with lost := c.lost + 1 }

end State

variable (x : Setup N G) (i : ℕ)

section Commands

/-- An assignment, a `set` or a `trap`. -/
def assign (f : Cell N G → Cell N G) : Sh N G Unit := Script.run fun s => [((), s.setCell i f)]

def ask (f : Cell N G → Bool) : Sh N G Bool := Script.read fun s => f (s.cell i)

/-- A choice that the script makes by what is not modelled. -/
def perhaps (m : Sh N G Unit) : Sh N G Unit := do
  let taken ← Script.run fun s => [(true, s), (false, s)]
  if taken then m else pure ()

/-- The shell is gone. -/
def die : Sh N G Unit := do
  Script.run fun s => [((), s.leave i)]
  Script.raise ()

/-- A command of its own; where it fails under `set -e` the script goes on with `exit`. -/
def attempt (f : Cell N G → Cell N G) (exit : Sh N G Unit) : Sh N G Unit := do
  let goesOn ← Script.run fun s =>
    [(true, s.setCell i f), if (s.cell i).errexit then (false, s.fail i) else (true, s)]
  if goesOn then pure () else exit

/-- One that changes nothing here. -/
def simple (exit : Sh N G Unit) : Sh N G Unit := attempt i id exit

def simples (exit : Sh N G Unit) (n : ℕ) : Sh N G Unit :=
  Script.forEach (fun _ => simple i exit) (List.replicate n ())

/-- `[ -x "$cpu_control" ] && … snapshot`. -/
def snapshotCommand : Sh N G Bool := Script.run fun s =>
  match x.cpus.snapshot s.governor with
  | some target => [(true, s.setCell i fun c => { c with saved := some target }), (false, s)]
  | none => [(false, s)]

/-- `… apply "$cpu_policy"`. -/
def applyCommand : Sh N G Bool := Script.run fun s =>
  match x.cpus.applyGovernor (x.cpuPolicy i) s.governor with
  | some now =>
    [(true, { s with governor := now }.setCell i fun c => { c with applied := true }), (false, s)]
  | none => [(false, s)]

/-- `… restore`, which removes the snapshot. -/
def restoreCommand : Sh N G Unit := Script.run fun s =>
  match (s.cell i).saved.bind fun target => x.cpus.restore target s.governor with
  | some now =>
    [((), { s with governor := now }.setCell i fun c =>
      { c with saved := none, applied := false }), ((), s.lose i)]
  | none => [((), s)]

/-- `restore_cpu_policy`. -/
def restoreCpuPolicy : Sh N G Unit := do
  let active ← ask i fun c => c.snapshotActive
  if active then do
    restoreCommand x i
    assign i fun c => { c with snapshotActive := false }
  else pure ()

def trapExit : Sh N G Unit := assign i fun c => { c with exitTrap := true }

def trapSignal (signal : Signal) : Sh N G Unit :=
  assign i fun c => { c with traps := Function.update c.traps signal true }

/-- The three traps of the signals, in their order. -/
def trapSignals : Sh N G Unit := do
  trapSignal i .hup
  trapSignal i .int
  trapSignal i .term

/-- `trap - EXIT HUP INT TERM`; without an exit trap `trap - HUP INT TERM` is the same. -/
def clearTraps : Sh N G Unit :=
  assign i fun c => { c with exitTrap := false, traps := fun _ => false }

def setErrexit (errexit : Bool) : Sh N G Unit := assign i fun c => { c with errexit := errexit }

/-- `wait` for the program. -/
def waitProgram : Sh N G Unit :=
  Script.run fun s => if (s.cell i).program then [] else [((), s)]

/-- The program in the background, with its pid. -/
def startProgram : Sh N G Unit := do
  assign i fun c => { c with program := true }
  assign i fun c => { c with childPid := true }

/-- The program in the foreground: a signal is handled when it has ended. -/
def runForeground : Sh N G Unit := do
  assign i fun c => { c with program := true, foreground := true }
  Script.run fun s =>
    if (s.cell i).program then [] else [((), s.setCell i fun c => { c with foreground := false })]

/-- `kill -TERM`, of which the program may end at once. One that has ended may not have been
waited for. -/
def killTerm : Sh N G Bool := Script.run fun s =>
  if (s.cell i).program then [(true, s), (true, s.endProgram i)] else [(true, s), (false, s)]

/-- `while kill -0 …` with a bound. -/
def waitGone (exit : Sh N G Unit) : ℕ → Sh N G Unit
  | 0 => pure ()
  | n + 1 => do
    let there ← Script.run fun s =>
      if (s.cell i).program then [(true, s), (false, s.endProgram i)] else [(false, s)]
    if there then do
      simple i exit
      waitGone exit n
    else pure ()

/-- `kill -KILL`. -/
def killProgram : Sh N G Unit := Script.run fun s => [((), s.endProgram i)]

/-- `wait` for a program that has been sent a signal. -/
def waitKilled : Sh N G Unit := Script.run fun s => [((), s.endProgram i)]

/-- The program in the background is asked to end, and made to. -/
def endChild (exit : Sh N G Unit) (turns : ℕ) : Sh N G Unit := do
  let _ ← killTerm i
  waitGone i exit turns
  killProgram i

end Commands

section RetroarchCleanup

/-- `cleanup` of `plumos-retroarch-launch`. -/
def cleanup (exit : Sh N G Unit) : Sh N G Unit := do
  simple i exit
  restoreCpuPolicy x i

def killRetroarch (exit : Sh N G Unit) : Sh N G Unit := do
  let child ← ask i fun c => c.childPid && c.program
  if child then endChild i exit 50 else pure ()

/-- `terminate_retroarch` without its last line. -/
def terminateRetroarch (exit : Sh N G Unit) : Sh N G Unit := do
  killRetroarch i exit
  cleanup x i exit
  clearTraps i

end RetroarchCleanup

section PicoarchCleanup

/-- `stop_child` behind the test of its child. -/
def stopStarted : Sh N G Unit := do
  let sent ← killTerm i
  if sent then do
    waitGone i (die i) 10
    killProgram i
    restoreCpuPolicy x i
  else pure ()

/-- `stop_child`. -/
def stopChild : Sh N G Unit := do
  assign i fun c => { c with stopRc := true }
  let child ← ask i fun c => c.childPid
  if child then stopStarted x i else pure ()

end PicoarchCleanup

section GgfeCleanup

def killGgfe : Sh N G Unit := do
  let child ← ask i fun c => c.childPid
  if child then do
    endChild i (die i) 10
    assign i fun c => { c with childPid := false }
  else pure ()

/-- `cleanup_ggfe`. -/
def cleanupGgfe : Sh N G Unit := do
  clearTraps i
  killGgfe i
  restoreCpuPolicy x i
  die i

end GgfeCleanup

section StandaloneCleanup

def killPpsspp : Sh N G Unit := do
  let child ← ask i fun c => c.childPid && c.program
  if child then do
    let _ ← killTerm i
    waitKilled i
  else pure ()

/-- `restore_ppsspp_runtime`. -/
def restorePpssppRuntime : Sh N G Unit := do
  killPpsspp i
  assign i fun c => { c with childPid := false }
  restoreCpuPolicy x i

/-- The runner of DraStic, a program that starts no launcher; the loop makes twenty pauses at
most. -/
def killRunner (exit : Sh N G Unit) : Sh N G Unit := do
  let runner ← ask i fun c => c.runnerPid
  if runner then perhaps (simples i exit 20) else pure ()

/-- `restore_drastic_runtime`. -/
def restoreDrasticRuntime (exit : Sh N G Unit) : Sh N G Unit := do
  killRunner i exit
  assign i fun c => { c with runnerPid := false }
  simple i exit
  restoreCpuPolicy x i

/-- The function that the script calls where `apply` fails, and at its end. -/
def restoreRuntime (exit : Sh N G Unit) : Emulator → Sh N G Unit
  | .drastic => restoreDrasticRuntime x i exit
  | _ => restoreCpuPolicy x i

/-- The exit trap. -/
def standaloneTrap (exit : Sh N G Unit) : Emulator → Sh N G Unit
  | .ppsspp => restorePpssppRuntime x i
  | .drastic => restoreDrasticRuntime x i exit
  | _ => restoreCpuPolicy x i

end StandaloneCleanup

section Exit

/-- What the exit trap runs; it has no exit trap itself. -/
def exitTrap : Launcher → Sh N G Unit
  | .retroarch => cleanup x i (die i)
  | .picoarch => pure ()
  | .ggfe => cleanupGgfe x i
  | .standalone emulator => standaloneTrap x i (die i) emulator

def runExitTrap : Sh N G Unit := do
  let trapped ← Script.run fun s =>
    [((s.cell i).exitTrap, s.setCell i fun c => { c with exitTrap := false })]
  if trapped then exitTrap x i (x.launcher i) else pure ()

/-- `exit`. -/
def exitNow : Sh N G Unit := do
  runExitTrap x i
  die i

/-- What the traps of the signals run. -/
def signalTrap : Launcher → Sh N G Unit
  | .retroarch => do
    terminateRetroarch x i (exitNow x i)
    exitNow x i
  | .picoarch => stopChild x i
  | .ggfe => cleanupGgfe x i
  | .standalone _ => exitNow x i

/-- Without a trap a signal ends the shell, and no exit trap is run. -/
def handler (signal : Signal) (s : State N G) : Sh N G Unit :=
  if (s.cell i).traps signal then signalTrap x i (x.launcher i) else die i

end Exit

section Launch

/-- `|| exit`. -/
def orExit (ok : Bool) : Sh N G Unit := if ok then pure () else exitNow x i

/-- Commands whose failure ends the script, whatever `set -e` is. -/
def check : Sh N G Unit := do
  let ok ← Script.run fun s => [(true, s), (false, s.fail i)]
  orExit x i ok

/-- `cpu_snapshot_active=1`. -/
def activate : Sh N G Unit := assign i fun c => { c with snapshotActive := true }

/-- The commands of `plumos-retroarch-launch` that write the configuration of this launch. -/
def writeAppendConfig : Sh N G Unit := do
  simple i (exitNow x i)
  perhaps do
    simple i (exitNow x i)
    perhaps (simples i (exitNow x i) 4)
    simples i (exitNow x i) 2
  perhaps (simples i (exitNow x i) 7)
  simple i (exitNow x i)
  perhaps (simple i (exitNow x i))
  simples i (exitNow x i) 3
  perhaps (simple i (exitNow x i))

/-- `apply` of `plumos-retroarch-launch`; where it fails the governors are restored at once. -/
def applyOrRestore : Sh N G Unit := do
  let ok ← applyCommand x i
  if ok then pure ()
  else do
    restoreCommand x i
    assign i fun c => { c with snapshotActive := false }
    exitNow x i

/-- `plumos-retroarch-launch`. -/
def retroarchLaunch : Sh N G Unit := do
  check x i
  let saved ← snapshotCommand x i
  orExit x i saved
  activate i
  applyOrRestore x i
  writeAppendConfig x i
  trapExit i
  trapSignals i
  simple i (exitNow x i)
  setErrexit i false
  startProgram i
  waitProgram i
  assign i fun c => { c with childPid := false }
  setErrexit i true
  simple i (exitNow x i)
  cleanup x i (exitNow x i)
  clearTraps i
  exitNow x i

/-- `apply` of `plumos-picoarch-launch`. -/
def applyOrStop : Sh N G Unit := do
  let ok ← applyCommand x i
  if ok then pure ()
  else do
    restoreCpuPolicy x i
    exitNow x i

/-- The second `wait` where a signal has come. -/
def waitStopped : Sh N G Unit := do
  let stopped ← ask i fun c => c.stopRc
  if stopped then waitProgram i else pure ()

/-- `plumos-picoarch-launch`. -/
def picoarchLaunch : Sh N G Unit := do
  check x i
  trapSignals i
  let saved ← snapshotCommand x i
  orExit x i saved
  activate i
  applyOrStop x i
  setErrexit i false
  startProgram i
  waitProgram i
  setErrexit i true
  waitStopped i
  clearTraps i
  restoreCpuPolicy x i
  simples i (exitNow x i) 2
  exitNow x i

/-- `plumos-ggfe-launch`. -/
def ggfeLaunch : Sh N G Unit := do
  check x i
  trapExit i
  trapSignals i
  check x i
  let saved ← snapshotCommand x i
  orExit x i saved
  activate i
  let applied ← applyCommand x i
  simple i (exitNow x i)
  orExit x i applied
  simple i (exitNow x i)
  setErrexit i false
  startProgram i
  waitProgram i
  assign i fun c => { c with childPid := false }
  setErrexit i true
  restoreCpuPolicy x i
  clearTraps i
  exitNow x i

/-- The CPU policy of `plumos-standalone-launch`, which goes on without one. -/
def applyOrGoOn (emulator : Emulator) : Sh N G Unit := do
  let saved ← snapshotCommand x i
  if saved then do
    activate i
    let ok ← applyCommand x i
    if ok then pure () else restoreRuntime x i (exitNow x i) emulator
  else attempt i (fun c => { c with saved := none }) (exitNow x i)

/-- `wait` for the runner of DraStic: a pause in each turn of the loop, at most a hundred. -/
def awaitRunner : Sh N G Unit := do
  perhaps (simples i (exitNow x i) 100)
  perhaps do
    perhaps do
      setErrexit i false
      setErrexit i true
      assign i fun c => { c with runnerPid := false }
    simples i (exitNow x i) 2
    restoreDrasticRuntime x i (exitNow x i)
    exitNow x i

/-- The mounts and the runner of DraStic. -/
def prepareDrastic : Sh N G Unit := do
  Script.forEach (fun _ => check x i) (List.replicate 7 ())
  simple i (exitNow x i)
  assign i fun c => { c with runnerPid := true }
  awaitRunner x i

/-- The emulator between `set +e` and `set -e`. -/
def runEmulator : Emulator → Sh N G Unit
  | .ppsspp => do
    simple i (exitNow x i)
    setErrexit i false
    startProgram i
    waitProgram i
    assign i fun c => { c with childPid := false }
    setErrexit i true
  | .drastic => do
    prepareDrastic x i
    simples i (exitNow x i) 2
    setErrexit i false
    runForeground i
    setErrexit i true
  | _ => do
    simple i (exitNow x i)
    setErrexit i false
    runForeground i
    setErrexit i true

/-- `plumos-standalone-launch`. -/
def standaloneLaunch (emulator : Emulator) : Sh N G Unit := do
  check x i
  trapExit i
  trapSignals i
  applyOrGoOn x i emulator
  runEmulator x i emulator
  simple i (exitNow x i)
  restoreRuntime x i (exitNow x i) emulator
  clearTraps i
  simple i (exitNow x i)
  exitNow x i

def launch : Launcher → Sh N G Unit
  | .retroarch => retroarchLaunch x i
  | .picoarch => picoarchLaunch x i
  | .ggfe => ggfeLaunch x i
  | .standalone emulator => standaloneLaunch x i emulator

/-- The program of the host is there. -/
def hosted (s : State N G) : Bool :=
  match x.host i with
  | some j => (s.cell j).program
  | none => true

/-- An invocation is started by the program of its host, or from outside; there is one at a
time. -/
def mayStart (s : State N G) : Bool :=
  hosted x i s && s.running.all fun j => decide (x.host j ≠ x.host i)

/-- One invocation, from its start. -/
def invocation : Sh N G Unit := do
  Script.run fun s => if mayStart x i s then [((), s.start i)] else []
  launch x i (x.launcher i)

end Launch

/-- No launcher runs in the program of the invocation. -/
def vacant (s : State N G) : Bool := s.running.all fun j => decide (x.host j ≠ some i)

/-- The programs, which end one after another; each waits for the launchers that it starts. -/
def programs : List ℕ → Sh N G Unit
  | [] => pure ()
  | i :: ends => do
    Script.run fun s => [((), if vacant x i s then s.endProgram i else s)]
    programs ends

/-- All invocations, and the programs. -/
def thread (ends : List ℕ) : Option ℕ → Sh N G Unit
  | some i => invocation x i
  | none => programs x ends

/-- A shell takes signals unless it waits for a program in the foreground. -/
def handling : Handling (Option ℕ) Signal (State N G) Unit where
  ready
    | some i, s => i ∈ s.running ∧ (s.cell i).foreground = false
    | none, _ => False
  handler
    | some i, signal, s => handler x i signal s
    | none, _, _ => pure ()

end PlumosBubble.Cpufreq
