import Mathlib.Logic.Function.Basic
import PlumosBubble.Script.Sections

/-! `plumos-portmaster-launch`: the check of the pid record, the bind mounts, the hold on the
frontend, the GUI with its restarts, and the cleanup of the exit trap. The commands that the
cleanup calls are atomic, and no signal arrives. -/

namespace PlumosBubble.GuiLaunch

open Scripts

/-- What the script bind-mounts. -/
inductive Target where
  | log
  | config
  | libs
  | themes
  deriving DecidableEq

/-- The processes of a session that are running: the GUI of one of its rounds, and others. -/
structure Gui where
  child : Option ℕ
  others : Bool
  deriving DecidableEq

namespace Gui

def gone : Gui := ⟨none, false⟩

/-- What the processes themselves can make of it. -/
def Becomes (p q : Gui) : Prop :=
  (q.child = none ∨ q.child = p.child) ∧ (q.others = true → p.child ≠ none ∨ p.others = true)

instance (p q : Gui) : Decidable (p.Becomes q) := inferInstanceAs (Decidable (_ ∧ _))

end Gui

/-- The pid record: the invocation and the round whose child it names, and whether its write was
complete. -/
structure Record where
  maker : ℕ
  round : ℕ
  complete : Bool
  deriving DecidableEq

/-- The variables of an invocation: the round of `child_pid`, whether `gui_session_id` is set,
`restore_frontend` and `cleanup_done`. -/
structure Vars where
  childPid : Option ℕ
  sessionId : Bool
  restore : Bool
  cleanupDone : Bool
  deriving DecidableEq

/-- The mounts on each target with the invocations that made them, the pid record and the restart
marker; by invocation its restart limit, where that is valid, the hold that it has on the
frontend, its processes and its variables. Nothing reads the rest: whether an invocation was
refused, and the invocations that have passed the check of the pid record, or begun their
cleanup, and not ended yet. -/
structure State where
  mounts : Target → List ℕ
  pid : Option Record
  marker : Bool
  restartLimit : ℕ → Option ℕ
  hold : ℕ → Bool
  gui : ℕ → Gui
  vars : ℕ → Vars
  refused : ℕ → Bool
  inside : List ℕ

/-- A script may end early by its exit status. -/
abbrev Sh := Script State ℕ

namespace State

variable (s : State) (i : ℕ)

def setVars (f : Vars → Vars) : State := { s with vars := Function.update s.vars i (f (s.vars i)) }

def setGui (gui : Gui) : State := { s with gui := Function.update s.gui i gui }

def setHold (hold : Bool) : State := { s with hold := Function.update s.hold i hold }

def enter : State := { s with inside := s.inside.insert i }

def leave : State := { s with inside := s.inside.erase i }

def refuse : State := { s with refused := Function.update s.refused i true }

/-- `plumos-portmaster-mount-cleanup` with the fixed targets. -/
def unmountAll : State := { s with mounts := fun _ => [] }

def mount (target : Target) : State :=
  { s with mounts := Function.update s.mounts target (i :: s.mounts target) }

/-- `rm -f "$PID_FILE"`. -/
def removePid : State := { s with pid := none }

/-- `rm -f "$RESTART_FILE"`. -/
def removeMarker : State := { s with marker := false }

end State

variable (i : ℕ)

section Cleanup

/-- A command that cannot fail, or whose failure changes nothing. -/
def command (f : State → State) : Sh Unit := Script.run fun s => [((), f s)]

def sweepSession : Sh Unit := do
  let tagged ← Script.read fun s => (s.vars i).sessionId
  if tagged then command fun s => s.setGui i .gone else pure ()

/-- `$recorded` is `$child_pid`. -/
def ownsRecord (s : State) : Bool :=
  match s.pid, (s.vars i).childPid with
  | some record, some round => decide (record = ⟨i, round, true⟩)
  | _, _ => false

def removeOwn : Sh Unit := do
  let own ← Script.read (ownsRecord i)
  if own then command State.removePid else pure ()

def releaseHold : Sh Unit := do
  let restore ← Script.read fun s => (s.vars i).restore
  if restore then command fun s => s.setHold i false else pure ()

/-- `cleanup`; the test of `cleanup_done` and its assignment are one command. -/
def cleanup : Sh Unit := do
  let done ← Script.run fun s =>
    [((s.vars i).cleanupDone, (s.setVars i fun v => { v with cleanupDone := true }).enter i)]
  if done then pure ()
  else do
    sweepSession i
    command State.unmountAll
    removeOwn i
    releaseHold i

end Cleanup

section Launch

/-- `… || exit status`. -/
def orExit (status : ℕ) (ok : Bool) : Sh Unit := if ok then pure () else Script.raise status

/-- A command that ends the script where it fails. -/
def attempt (status : ℕ) (f : State → State) : Sh Unit := do
  let ok ← Script.run fun s => [(true, f s), (false, s)]
  orExit status ok

def check (status : ℕ) : Sh Unit := attempt status id

/-- The command line of the recorded process is that of a GUI. -/
def recordedRuns (s : State) : Bool :=
  match s.pid with
  | some ⟨j, round, true⟩ => decide ((s.gui j).child = some round)
  | _ => false

/-- The pid record. -/
def checkRunning : Sh Unit := do
  let recorded ← Script.run fun s => [(s.pid.isSome, if s.pid.isSome then s else s.enter i)]
  if recorded then do
    let running ← Script.run fun s =>
      [(recordedRuns s, if recordedRuns s then s.refuse i else s.enter i)]
    orExit 75 (!running)
    command State.removePid
  else pure ()

def bindMount (target : Target) : Sh Unit := do
  let stale ← Script.read fun s => decide (s.mounts target ≠ [])
  orExit 1 (!stale)
  attempt 1 fun s => s.mount i target

/-- The hold on a frontend that is no ancestor. -/
def holdFrontend : Sh Unit := do
  let needed ← Script.run fun s => [(true, s), (false, s)]
  if needed then do
    attempt 1 fun s => s.setHold i true
    command fun s => s.setVars i fun v => { v with restore := true }
  else pure ()

/-- A restart marker that an interrupted session has left. -/
def consumeStale : Sh Unit := do
  let stale ← Script.read State.marker
  if stale then attempt 1 State.removeMarker else pure ()

/-- `printf … > "$PID_FILE"`, which may fail before or after it has created the file. -/
def writePid (round : ℕ) : Sh Unit :=
  Script.run fun s =>
    [((), { s with pid := some ⟨i, round, true⟩ }), ((), { s with pid := some ⟨i, round, false⟩ }),
      ((), s)]

/-- `wait "$child_pid"`. -/
def waitChild : Sh Unit :=
  Script.run fun s => if (s.gui i).child = none then [((), s)] else []

/-- One GUI; the result says whether it has asked for a restart. -/
def runGui (round : ℕ) : Sh Bool := do
  command fun s => s.setGui i ⟨some round, (s.gui i).others⟩
  command fun s => s.setVars i fun v => { v with childPid := some round }
  writePid i round
  waitChild i
  let again ← Script.read State.marker
  if again then do
    attempt 1 State.removeMarker
    pure true
  else pure false

/-- The rounds that `restart_limit` leaves. -/
def rounds (round : ℕ) : ℕ → Sh Unit
  | 0 => Script.raise 75
  | left + 1 => do
    let again ← runGui i round
    if again then rounds (round + 1) left else pure ()

/-- The loop with its limit; the first round takes place with any valid one. -/
def runRounds (limit : Option ℕ) : Sh Unit :=
  match limit with
  | none => Script.raise 64
  | some limit => do
    command fun s => s.setVars i fun v => { v with sessionId := true }
    rounds i 0 (max limit 1)

/-- The script from its trap on. -/
def launch : Sh Unit := do
  checkRunning i
  check 127
  attempt 1 State.unmountAll
  check 1
  check 1
  bindMount i .log
  Script.forEach (bindMount i) [.config, .libs, .themes]
  check 1
  check 1
  check 127
  check 70
  holdFrontend i
  consumeStale
  let limit ← Script.read fun s => s.restartLimit i
  runRounds i limit

/-- `plumos-portmaster-launch`. -/
def portmasterLaunch : Sh Unit := do
  (launch i).handle fun _ => pure ()
  cleanup i
  command fun s => s.leave i

end Launch

/-- What the processes of the GUIs do: they start others and end, and one that is running may ask
for a restart. -/
inductive Event where
  | processes (i : ℕ) (gui : Gui)
  | restart (i : ℕ)

/-- The GUIs, one event after another. -/
def world : List Event → Sh Unit
  | [] => pure ()
  | .processes i gui :: events => do
    command fun s => if (s.gui i).Becomes gui then s.setGui i gui else s
    world events
  | .restart i :: events => do
    command fun s => if (s.gui i).child = none then s else { s with marker := true }
    world events

/-- Before anything has run. -/
def State.start : State where
  mounts _ := []
  pid := none
  marker := false
  restartLimit _ := some 8
  hold _ := false
  gui _ := .gone
  vars _ := ⟨none, false, false, false⟩
  refused _ := false
  inside := []

end PlumosBubble.GuiLaunch
