import Mathlib.Logic.Function.Basic
import PlumosBubble.Script.Threads

/-! `plumos-portmaster-port-launch`: the checks, the bind mounts, the hold on the frontend, the
port and its records, and the cleanup that is both the exit trap and the handler of HUP, INT
and TERM. Any number of invocations share the mounts, the records and the helpers; the
commands that the cleanup calls are atomic. -/

namespace PlumosBubble.PortLaunch

open Scripts

/-- What the script bind-mounts. -/
inductive Target where
  | compat
  | patcher
  | config
  | libs
  | themes
  deriving DecidableEq

/-- The processes of a port that are running: the child itself, others of its group with the
session's id in their environment and without it, and those with the id outside of the group. -/
structure Port where
  child : Bool
  member : Bool
  stray : Bool
  escaped : Bool
  deriving DecidableEq

namespace Port

def gone : Port := ⟨false, false, false, false⟩

def started : Port := ⟨true, false, false, false⟩

/-- `kill -KILL "-$child"`. -/
def killGroup (p : Port) : Port := { p with child := false, member := false, stray := false }

/-- `plumos-portmaster-session-cleanup`: no process with the id is left. -/
def sweep (p : Port) : Port := { p with child := false, member := false, escaped := false }

/-- What the processes themselves can make of it: a process begets processes of its own kind, one
with the id may lose it or leave the group, and each of them may end. -/
def Becomes (p q : Port) : Prop :=
  (q.child = true → p.child = true) ∧
  (q.member = true → p.child = true ∨ p.member = true) ∧
  (q.stray = true → p.child = true ∨ p.member = true ∨ p.stray = true) ∧
  (q.escaped = true → p.child = true ∨ p.member = true ∨ p.escaped = true)

instance (p q : Port) : Decidable (p.Becomes q) :=
  inferInstanceAs (Decidable (_ ∧ _ ∧ _ ∧ _))

end Port

/-- A pid record: whose child it names, and whether its write was complete. -/
structure Record where
  maker : ℕ
  complete : Bool
  deriving DecidableEq

/-- The variables of an invocation: `child` is not empty, `restore_frontend`, `cleanup_done`, and
`PLUMOS_PORTMASTER_SESSION_ID` is set by the script. -/
structure Vars where
  child : Bool
  restore : Bool
  cleanupDone : Bool
  sessionId : Bool
  deriving DecidableEq

def Vars.start : Vars := ⟨false, false, false, false⟩

/-- The mounts on each target with the invocations that made them, the one whose port has a
gptokeyb helper, and the records; by invocation the hold that it has on the frontend, its port
and its variables, and whether it was started with a session's id in its environment. Nothing
reads the rest: whether a signal has arrived, how many mounts, holds, children and records it
has made, how often it has swept its session, and whether it was refused; and the invocations
that have passed the check of the pid record, or begun their cleanup, and not ended yet. -/
structure State where
  mounts : Target → List ℕ
  helper : Option ℕ
  pid : Option Record
  starttime : Option ℕ
  script : Option ℕ
  hold : ℕ → Bool
  port : ℕ → Port
  vars : ℕ → Vars
  inherited : ℕ → Bool
  signalled : ℕ → Bool
  deeds : ℕ → ℕ
  sweeps : ℕ → ℕ
  refused : ℕ → Bool
  inside : List ℕ

/-- How a script ends early: by its exit status, or killed. -/
inductive End where
  | exit (status : ℕ)
  | killed

abbrev Sh := Script State End

namespace State

variable (s : State) (i : ℕ)

def setVars (f : Vars → Vars) : State := { s with vars := Function.update s.vars i (f (s.vars i)) }

def setPort (port : Port) : State := { s with port := Function.update s.port i port }

def setHold (hold : Bool) : State := { s with hold := Function.update s.hold i hold }

def enter : State := { s with inside := s.inside.insert i }

def leave : State := { s with inside := s.inside.erase i }

def refuse : State := { s with refused := Function.update s.refused i true }

def signal : State := { s with signalled := Function.update s.signalled i true }

/-- One more thing made. -/
def deed : State := { s with deeds := Function.update s.deeds i (s.deeds i + 1) }

def sweep : State :=
  { s.setPort i (s.port i).sweep with sweeps := Function.update s.sweeps i (s.sweeps i + 1) }

/-- `rm -f "$PID_FILE" "$START_FILE" "$SCRIPT_FILE"`. -/
def removeRecords : State := { s with pid := none, starttime := none, script := none }

/-- `plumos-portmaster-mount-cleanup` with the fixed targets. -/
def unmountAll : State := { s with mounts := fun _ => [] }

/-- `plumos-portmaster-gptokeyb-stop stop`. -/
def stopHelper : State := { s with helper := none }

def mount (target : Target) : State :=
  { s.deed i with mounts := Function.update s.mounts target (i :: s.mounts target) }

end State

section Cleanup

variable (i : ℕ)

/-- A command that cannot fail, or whose failure changes nothing. -/
def command (f : State → State) : Sh Unit := Script.run fun s => [((), f s)]

/-- The group is killed where the record names the child. -/
def killOwn : Sh Unit := do
  let own ← Script.read fun s => decide ((s.vars i).child = true ∧ s.pid = some ⟨i, true⟩)
  if own then command fun s => s.setPort i (s.port i).killGroup else pure ()

/-- The session is swept; one whose id was inherited has the script itself in it. -/
def sweepSession : Sh Unit := do
  let tagged ← Script.read fun s => (s.vars i).sessionId || s.inherited i
  if tagged then do
    let own ← Script.run fun s => [(s.inherited i, s.sweep i)]
    if own then Script.raise .killed else pure ()
  else pure ()

def releaseHold : Sh Unit := do
  let restore ← Script.read fun s => (s.vars i).restore
  if restore then command fun s => s.setHold i false else pure ()

/-- `cleanup` behind its first two lines. -/
def cleanupOnce : Sh Unit := do
  killOwn i
  sweepSession i
  command State.stopHelper
  command State.unmountAll
  command State.removeRecords
  releaseHold i

/-- `cleanup`; the test of `cleanup_done` and its assignment are one command. -/
def cleanup : Sh Unit := do
  let done ← Script.run fun s =>
    [((s.vars i).cleanupDone, (s.setVars i fun v => { v with cleanupDone := true }).enter i)]
  if done then pure () else cleanupOnce i

end Cleanup

section Launch

variable (signals : Bool) (i : ℕ)

/-- Between two commands, and after one that was waited for: HUP, INT or TERM may have arrived. -/
def signalPoint : Sh Unit :=
  if signals then do
    let arrived ← Script.run fun s => [(false, s), (true, s.signal i)]
    if arrived then cleanup i else pure ()
  else pure ()

/-- `… || exit status`. -/
def orExit (status : ℕ) (ok : Bool) : Sh Unit :=
  if ok then pure () else Script.raise (.exit status)

/-- A command that ends the script where it fails. -/
def attempt (status : ℕ) (f : State → State) : Sh Unit := do
  let ok ← Script.run fun s => [(true, f s), (false, s)]
  signalPoint signals i
  orExit status ok

/-- A check. -/
def check (status : ℕ) : Sh Unit := attempt signals i status id

/-- A command without consequences for the script. -/
def act (f : State → State) : Sh Unit := do
  command f
  signalPoint signals i

/-- `port_requires_armhf`. -/
def checkArmhf : Sh Unit := do
  let ok ← Script.run fun s => [(true, s), (false, s.refuse i)]
  signalPoint signals i
  orExit 78 ok

/-- `/proc/$old_pid` is there; without a pid it is `/proc/`. -/
def recordedRuns (s : State) : Bool :=
  match s.pid with
  | some ⟨j, true⟩ => (s.port j).child
  | _ => true

/-- The pid record. -/
def checkRunning : Sh Unit := do
  let recorded ← Script.run fun s =>
    [(s.pid.isSome, if s.pid.isSome then s else s.enter i)]
  signalPoint signals i
  if recorded then do
    let running ← Script.run fun s =>
      [(recordedRuns s, if recordedRuns s then s.refuse i else s.enter i)]
    signalPoint signals i
    orExit 75 (!running)
    act signals i State.removeRecords
  else pure ()

/-- One bind mount with its line in `MOUNTS_FILE`; `strict` says that a failure to write this line
ends the script. -/
def bindMount (strict : Bool) (target : Target) : Sh Unit := do
  let stale ← Script.read fun s => decide (s.mounts target ≠ [])
  signalPoint signals i
  orExit 1 (!stale)
  attempt signals i 1 fun s => s.mount i target
  if strict then check signals i 1 else pure ()

/-- `prepare_compat_mount`; a root without the directory needs no mount. -/
def prepareCompatMount : Sh Unit := do
  let there ← Script.run fun s => [(true, s), (false, s)]
  signalPoint signals i
  if there then bindMount signals i true .compat else pure ()

/-- `prepare_patcher_compat`. -/
def preparePatcherCompat : Sh Unit := do
  check signals i 1
  bindMount signals i true .patcher

/-- The loop over `config libs themes`. -/
def mountState : Sh Unit :=
  Script.forEach (bindMount signals i false) [.config, .libs, .themes]

/-- The hold on a frontend that is no ancestor. -/
def holdFrontend : Sh Unit := do
  let needed ← Script.run fun s => [(true, s), (false, s)]
  signalPoint signals i
  if needed then do
    attempt signals i 1 fun s => (s.setHold i true).deed i
    act signals i fun s => (s.setVars i fun v => { v with restore := true }).deed i
  else pure ()

/-- `printf … > "$PID_FILE"`, which may fail before or after it has created the file. -/
def writePid : Sh Unit := do
  Script.run fun s =>
    [((), { s.deed i with pid := some ⟨i, true⟩ }), ((), { s.deed i with pid := some ⟨i, false⟩ }),
      ((), s)]
  signalPoint signals i

/-- `… > "$START_FILE"`. -/
def writeStart : Sh Unit := do
  Script.run fun s => [((), { s.deed i with starttime := some i }), ((), s)]
  signalPoint signals i

/-- `… > "$SCRIPT_FILE"`. -/
def writeScript : Sh Unit := do
  Script.run fun s => [((), { s.deed i with script := some i }), ((), s)]
  signalPoint signals i

/-- `wait "$child"`: the child has ended, or a signal has arrived. -/
def waitChild : Sh Unit := do
  let arrived ← Script.run fun s =>
    (if (s.port i).child then [] else [(false, s)]) ++
      if signals then [(true, s.signal i)] else []
  if arrived then cleanup i else pure ()

/-- The port with its records. -/
def startPort : Sh Unit := do
  act signals i fun s => s.setVars i fun v => { v with sessionId := true }
  attempt signals i 2 fun s => (s.setPort i .started).deed i
  act signals i fun s => (s.setVars i fun v => { v with child := true }).deed i
  writePid signals i
  writeStart signals i
  writeScript signals i
  waitChild signals i

/-- The script from its trap on. -/
def launch : Sh Unit := do
  checkArmhf signals i
  check signals i 127
  checkRunning signals i
  check signals i 127
  attempt signals i 1 State.unmountAll
  check signals i 1
  check signals i 1
  check signals i 1
  prepareCompatMount signals i
  preparePatcherCompat signals i
  mountState signals i
  check signals i 127
  check signals i 127
  check signals i 127
  holdFrontend signals i
  startPort signals i

/-- The end of a script with the exit trap; one that is killed has no trap. -/
def atExit (m : Sh Unit) : Sh Unit :=
  Script.andThen
    (do
      m.handle fun e =>
        match e with
        | .exit _ => pure ()
        | .killed => Script.raise .killed
      cleanup i)
    (command fun s => s.leave i)

/-- `plumos-portmaster-port-launch`; it ends before the trap where a first check fails or a signal
arrives. -/
def portLaunch : Sh Unit := do
  let trapped ← Script.run fun s => [(true, s), (false, s)]
  if trapped then atExit i (launch signals i) else pure ()

end Launch

/-- What becomes of the ports themselves. -/
inductive Event where
  | processes (i : ℕ) (port : Port)
  | helper (i : ℕ)

/-- The ports, one event after another. -/
def world : List Event → Sh Unit
  | [] => pure ()
  | .processes i port :: events => do
    command fun s => if (s.port i).Becomes port then s.setPort i port else s
    world events
  | .helper i :: events => do
    command fun s => if (s.port i).child then { s with helper := some i } else s
    world events

/-- Before an invocation: nothing is its own. -/
structure Untouched (i : ℕ) (s : State) : Prop where
  mounts : ∀ target, i ∉ s.mounts target
  pid : ∀ complete, s.pid ≠ some ⟨i, complete⟩
  starttime : s.starttime ≠ some i
  script : s.script ≠ some i
  hold : s.hold i = false
  port : s.port i = .gone
  vars : s.vars i = .start
  signalled : s.signalled i = false

/-- Before anything has run. -/
def State.start : State where
  mounts _ := []
  helper := none
  pid := none
  starttime := none
  script := none
  hold _ := false
  port _ := .gone
  vars _ := .start
  inherited _ := false
  signalled _ := false
  deeds _ := 0
  sweeps _ := 0
  refused _ := false
  inside := []

theorem untouched_start (i : ℕ) : Untouched i .start :=
  ⟨fun _ => List.not_mem_nil, (fun _ h => by cases h), (fun h => by cases h), (fun h => by cases h),
    rfl, rfl, rfl, rfl⟩

end PlumosBubble.PortLaunch
