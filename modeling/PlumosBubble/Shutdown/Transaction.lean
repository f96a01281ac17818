import PlumosBubble.Script.Threads
import PlumosBubble.Update.Text

/-! The power transaction: `plumos-safe-shutdown` with `--reboot` or `--shutdown --poweroff`,
the finalizer it arms, and `finalize_power_action` of PID 1. Which commands fail in a run is
its input. A write to a marker file reaches the card at a `sync`, at the unmount or read-only
remount of its filesystem, or at any time before. -/

namespace PlumosBubble.Shutdown

open Scripts
open Update (Text)

section State

/-- `ACTION`. -/
inductive PowerAction where
  | reboot
  | shutdown
  deriving DecidableEq

/-- Whether a marker file is there, in the running system and on the card. -/
structure Marker where
  cached : Bool
  stored : Bool
  deriving DecidableEq

def Marker.set (m : Marker) (there : Bool) : Marker := { m with cached := there }
def Marker.flush (m : Marker) : Marker := { m with stored := m.cached }

/-- `user` is the device mounted at `/storage/user`, `readOnly` is about `/storage`, `claim` is
the claim directory with the process that made it. -/
structure Machine where
  user : Option Text
  readOnly : Bool
  p3Marker : Marker
  p4Marker : Marker
  request : Option PowerAction
  userSource : Option Text
  claim : Option ℕ
  off : Bool
  deriving DecidableEq

namespace Machine

def flush (s : Machine) : Machine :=
  { s with p3Marker := s.p3Marker.flush, p4Marker := s.p4Marker.flush }

def setRequest (s : Machine) (request : Option PowerAction) : Machine :=
  { s with request := request }

def setSource (s : Machine) (source : Text) : Machine := { s with userSource := some source }

/-- `touch` of the marker on `/storage`. -/
def touchP3 (s : Machine) : Option Machine :=
  if s.readOnly then none else some { s with p3Marker := s.p3Marker.set true }

/-- `touch` of the marker in `/storage/user`, which is on p4 while that is mounted. -/
def touchP4 (s : Machine) : Option Machine :=
  if s.user.isSome then some { s with p4Marker := s.p4Marker.set true }
  else if s.readOnly then none else some s

/-- `rm -f` of the marker on `/storage`. -/
def removeP3 (s : Machine) : Option Machine :=
  if s.p3Marker.cached = false then some s
  else if s.readOnly then none else some { s with p3Marker := s.p3Marker.set false }

/-- `rm -f` of the marker in `/storage/user`. -/
def removeP4 (s : Machine) : Option Machine :=
  if s.user.isSome then some { s with p4Marker := s.p4Marker.set false } else some s

def umountUser (s : Machine) : Option Machine :=
  if s.user.isSome then some { s with user := none, p4Marker := s.p4Marker.flush } else none

def mountUser (device : Text) (s : Machine) : Option Machine := some { s with user := some device }

/-- `mount -o remount,ro /storage`. -/
def remountStorage (s : Machine) : Option Machine :=
  some { s with readOnly := true, p3Marker := s.p3Marker.flush }

def makeClaim (i : ℕ) (s : Machine) : Option Machine :=
  if s.claim.isSome then none else some { s with claim := some i }

def removeClaim (s : Machine) : Option Machine := some { s with claim := none }

end Machine

end State

section Commands

/-- The commands that may fail. `dropProof` is the removal of the p3 marker by a finalizer that
finds the user partition still mounted, `unquietProof` by PID 1 that cannot end the writers,
`refuseProof` where the action is refused. -/
inductive Site where
  | terminateActive
  | terminateUserStorage
  | requestDirectory
  | stage
  | commit
  | stageSource
  | commitSource
  | markerDirectory
  | touchP3
  | touchP4
  | umountUser
  | removeP3
  | removeP4
  | terminateStorage
  | claim
  | removeRequest
  | dropProof
  | stopSd2
  | remountStorage
  | unquietProof
  | refuseProof
  | remountUser
  | removeUserMarker
  | removeClaim
  | backend
  deriving DecidableEq

/-- Which commands of a run fail, and the exit status of a power backend that returns. -/
structure Fate where
  fails : Site → Bool
  backendRc : ℕ

/-- Every command succeeds. -/
def Fate.smooth : Fate := ⟨fun _ => false, 0⟩

/-- `.raise n` is `exit n`. -/
abbrev Sh := Script Machine ℕ

def command (fails : Bool) (f : Machine → Option Machine) : Sh Bool := Script.run fun s =>
  match fails, f s with
  | false, some t => [(true, t)]
  | _, _ => [(false, s)]

/-- A command whose failure is ignored. -/
def ignoring (fails : Bool) (f : Machine → Option Machine) : Sh Unit := do
  let _ ← command fails f
  pure ()

/-- A command whose failure ends the script. -/
def require (fails : Bool) (f : Machine → Option Machine) : Sh Unit := do
  let ok ← command fails f
  if ok then pure () else .raise 1

def sync : Sh Unit := Script.run fun s => [((), s.flush)]

end Commands

section SafeShutdown

variable (fate : Fate) (action : PowerAction)

/-- The request of an earlier run is kept, or changed to this action. -/
def restage (pending : PowerAction) : Sh Unit :=
  if pending = action then pure ()
  else do
    require (fate.fails .stage) some
    require (fate.fails .commit) fun s => some (s.setRequest (some action))

/-- Where the user partition is unmounted and a request is committed already. -/
def reuseRequest (pending : PowerAction) : Sh Unit := do
  restage fate action pending
  sync
  .raise 0

def isDevicePath (source : Text) : Bool := "/dev/".toList.isPrefixOf source

/-- `USER_SOURCE_FILE` names the device that is mounted. -/
def recordSource : Sh Unit := do
  let source ← Script.read Machine.user
  match source with
  | none => pure ()
  | some device =>
    if isDevicePath device then do
      let staged ← command (fate.fails .stageSource) some
      if staged then ignoring (fate.fails .commitSource) fun s => some (s.setSource device)
      else pure ()
    else pure ()

def removeMarkers : Sh Unit := do
  ignoring (fate.fails .removeP3) Machine.removeP3
  ignoring (fate.fails .removeP4) Machine.removeP4

/-- `touch` goes on with the second marker where the first one failed. -/
def touchMarkers : Sh Bool := do
  let directory ← command (fate.fails .markerDirectory) some
  if directory then do
    let p3 ← command (fate.fails .touchP3) Machine.touchP3
    let p4 ← command (fate.fails .touchP4) Machine.touchP4
    pure (p3 && p4)
  else pure false

def writeMarkers : Sh Bool := do
  let written ← touchMarkers fate
  if written then do
    sync
    pure true
  else do
    removeMarkers fate
    pure false

/-- The user partition is marked and unmounted. -/
def releaseUser : Sh Bool := do
  recordSource fate
  let written ← writeMarkers fate
  if written then do
    let unmounted ← command (fate.fails .umountUser) Machine.umountUser
    if unmounted then pure true
    else do
      removeMarkers fate
      sync
      pure false
  else pure false

/-- The same, where it may not be mounted. -/
def cleanUser : Sh Bool := do
  let mounted ← Script.read fun s => s.user.isSome
  if mounted then releaseUser fate
  else do
    ignoring (fate.fails .removeP3) Machine.removeP3
    pure false

/-- From the unmount on. -/
def commitRequest : Sh Unit := do
  sync
  let terminated ← command (fate.fails .terminateStorage) some
  if terminated then do
    let committed ← command (fate.fails .commit) fun s => some (s.setRequest (some action))
    if committed then .raise 0
    else do
      ignoring (fate.fails .removeP3) Machine.removeP3
      sync
      .raise 1
  else do
    ignoring (fate.fails .removeP3) Machine.removeP3
    .raise 1

/-- A transaction from its start. -/
def transact : Sh Unit := do
  require (fate.fails .stage) some
  let clean ← cleanUser fate
  if clean then commitRequest fate action
  else do
    sync
    .raise 1

/-- `stage=terminal`. -/
def terminal : Sh Unit := do
  require (fate.fails .requestDirectory) some
  let pending ← Script.read Machine.request
  let mounted ← Script.read fun s => s.user.isSome
  match mounted, pending with
  | false, some pending => reuseRequest fate action pending
  | _, _ => transact fate action

/-- `plumos-safe-shutdown`. -/
def safeShutdown : Sh Unit := do
  sync
  require (fate.fails .terminateActive) some
  require (fate.fails .terminateUserStorage) some
  sync
  terminal fate action

end SafeShutdown

section Finalizers

variable (i : ℕ) (fate : Fate) (action : PowerAction)

/-- `user_source`, with its default. -/
def sourceDevice (source : Option Text) : Text :=
  let device := source.getD []
  if isDevicePath device then device else "/dev/mmcblk1p4".toList

/-- What both finalizers begin with: the request is consumed, and the proof is dropped if the
user partition is still mounted. -/
def consumeRequest : Sh Unit := do
  ignoring (fate.fails .removeRequest) fun s => some (s.setRequest none)
  sync
  let mounted ← Script.read fun s => s.user.isSome
  if mounted then ignoring (fate.fails .dropProof) Machine.removeP3 else pure ()

def recoverUser : Sh Unit := do
  let source ← Script.read Machine.userSource
  let mounted ← Script.read fun s => s.user.isSome
  if mounted then pure ()
  else ignoring (fate.fails .remountUser) (Machine.mountUser (sourceDevice source))

/-- The action is refused. -/
def refuse : Sh Unit := do
  ignoring (fate.fails .refuseProof) Machine.removeP3
  sync
  recoverUser fate
  ignoring (fate.fails .removeUserMarker) Machine.removeP4
  ignoring (fate.fails .removeClaim) Machine.removeClaim
  .raise 1

/-- `reboot -f` or `poweroff -f`, and whether it returns. -/
def backend : Sh Bool := Script.run fun s =>
  if fate.fails .backend then [(true, s)] else [(false, { s with off := true })]

/-- `writer_quiesce_ok` of the finalizer. -/
def endWritersAndSd2 : Sh Bool := do
  let quiet ← command (fate.fails .terminateStorage) some
  if quiet then command (fate.fails .stopSd2) some else pure false

/-- `/storage` read-only, where its writers have ended. -/
def remountQuiet (quiet : Bool) : Sh Bool :=
  if quiet then command (fate.fails .remountStorage) Machine.remountStorage else pure false

/-- The finalizer, once it has the claim. -/
def finalizeClaimed : Sh Unit := do
  consumeRequest fate
  let quiet ← endWritersAndSd2 fate
  let remounted ← remountQuiet fate quiet
  if remounted then do
    sync
    let returned ← backend fate
    if returned then do
      ignoring (fate.fails .removeClaim) Machine.removeClaim
      .raise fate.backendRc
    else .raise 0
  else refuse fate

/-- `plumos-power-request-finalizer`, process `i`, after its delay. -/
def finalizer : Sh Unit := do
  let request ← Script.read Machine.request
  if request = some action then do
    let claimed ← command (fate.fails .claim) (Machine.makeClaim i)
    if claimed then do
      let request ← Script.read Machine.request
      if request = some action then finalizeClaimed fate
      else do
        ignoring (fate.fails .removeClaim) Machine.removeClaim
        .raise 0
    else .raise 0
  else .raise 0

/-- `writer_quiesce_ok` of PID 1. -/
def endWriters : Sh Bool := do
  let quiet ← command (fate.fails .terminateStorage) some
  if quiet then pure true
  else do
    ignoring (fate.fails .unquietProof) Machine.removeP3
    pure false

/-- `finalize_power_action`, once it has the claim. -/
def finalizePowerClaimed : Sh Unit := do
  consumeRequest fate
  let quiet ← endWriters fate
  sync
  let remounted ← remountQuiet fate quiet
  if remounted then do
    sync
    -- it is executed in the place of the shell, so nothing follows where it returns
    let _ ← backend fate
    .raise 1
  else refuse fate

def finalizePowerAction : Sh Unit := do
  let claimed ← command (fate.fails .claim) (Machine.makeClaim i)
  if claimed then finalizePowerClaimed fate else .raise 0

/-- PID 1, where it looks for a request. -/
def powerWatch : Sh Unit := do
  let request ← Script.read Machine.request
  if request.isSome then finalizePowerAction i fate else .raise 0

end Finalizers

section Programs

inductive Program where
  | safeShutdown (fate : Fate) (action : PowerAction)
  | finalizer (fate : Fate) (action : PowerAction)
  | powerWatch (fate : Fate)

/-- The script of process `i`. -/
def Program.script (i : ℕ) : Program → Sh Unit
  | .safeShutdown fate action => Shutdown.safeShutdown fate action
  | .finalizer fate action => Shutdown.finalizer i fate action
  | .powerWatch fate => Shutdown.powerWatch i fate

end Programs

end PlumosBubble.Shutdown
