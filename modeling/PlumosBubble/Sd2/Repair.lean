import PlumosBubble.Script.Threads

/-! `plumos-sd2-repair` and the part of `plumos-bubble-mount-sd2` that it calls, for any number
of invocations at a time. A shell handles a signal when the command before it has ended, and
its exit trap runs however it ends. -/

namespace PlumosBubble.Sd2

open Scripts

inductive Access where
  | rw
  | ro
  deriving DecidableEq

/-- SD2 and the lock. `roms` and `bios` say whether its content is bound there, `elsewhere`
whether it is mounted in any other place. The last four are kept for the statements: who is
past the lock, who runs the checker, what it returned, and who mounted SD2 read-write, with
what the checker had returned to it. -/
structure State where
  lock : Bool
  media : Option Access
  roms : Bool
  bios : Bool
  elsewhere : Bool
  inside : ℕ → Bool
  checking : ℕ → Bool
  checked : ℕ → Option ℕ
  rwMounts : List (ℕ × Option ℕ)

/-- How a script ends early: a helper that fails or is killed, or an invocation that exits,
with its variable `mounted`. -/
inductive Stop where
  | helperFailed
  | exit (mounted : Bool)

abbrev Sh := Script State Stop

section Commands

/-- A question whose answer the state does not tell. -/
def choice : Sh Bool := Script.run fun s => [(true, s), (false, s)]

/-- A command of a helper: it succeeds or fails, and the helper may be killed at it. -/
def tryCommand (f : State → State) : Sh Bool := do
  let result ← Script.run fun s =>
    [(some true, f s), (some false, s), (none, f s), (none, s)]
  match result with
  | some ok => pure ok
  | none => .raise .helperFailed

/-- The place of a signal, or of a command that fails under `set -e`. -/
def signalPoint (mounted : Bool) : Sh Unit := do
  let caught ← choice
  if caught then .raise (.exit mounted) else pure ()

/-- A helper that is called in a condition. -/
def callHelper (m : Sh Bool) : Sh Bool := m.handle fun stop =>
  match stop with
  | .helperFailed => pure false
  | .exit mounted => .raise (.exit mounted)

end Commands

section Mounts

def State.setMedia (s : State) (media : Option Access) : State := { s with media := media }
def State.setRoms (s : State) (bound : Bool) : State := { s with roms := bound }
def State.setBios (s : State) (bound : Bool) : State := { s with bios := bound }

/-- `mount` or `mount -o remount` by invocation `i`. -/
def State.mountAs (s : State) (i : ℕ) (access : Access) : State :=
  { s with
    media := some access
    rwMounts := if access = .rw then s.rwMounts ++ [(i, s.checked i)] else s.rwMounts }

/-- `unbind_content_dir`; something else may be mounted there. -/
def unbindContentDir (bound : State → Bool) (clear : State → State) : Sh Bool := do
  let there ← Script.read bound
  if there then do
    let source ← Script.read fun s => s.media.isSome
    if source then tryCommand clear else pure false
  else choice

/-- The end of `stop_sd2`: read-only first, then unmounted. -/
def unmountSd2 : Sh Bool := do
  let access ← Script.read fun s => s.media
  match access with
  | none => pure true
  | some .ro => tryCommand (·.setMedia none)
  | some .rw => do
    let remounted ← tryCommand (·.setMedia (some .ro))
    if remounted then tryCommand (·.setMedia none) else pure false

/-- `stop_sd2`. -/
def stopSd2 : Sh Bool := do
  let bios ← unbindContentDir State.bios (·.setBios false)
  let roms ← unbindContentDir State.roms (·.setRoms false)
  if bios && roms then unmountSd2 else pure false

/-- `bind_content_dir`, where the card has such a directory. -/
def bindContentDir (bound : State → Bool) (bind : State → State) : Sh Bool := do
  let there ← choice
  if there then do
    let already ← Script.read bound
    if already then tryCommand id else tryCommand bind
  else pure true

/-- What `start_sd2` does once SD2 is mounted. -/
def bindContent : Sh Bool := do
  let roms ← bindContentDir State.roms (·.setRoms true)
  let bios ← bindContentDir State.bios (·.setBios true)
  pure (roms && bios)

/-- `mount_sd2` where nothing is mounted. -/
def mountFresh (i : ℕ) (access : Access) : Sh Bool := do
  let ok ← tryCommand (·.mountAs i access)
  if ok then pure true
  else
    match access with
    | .rw => tryCommand (·.mountAs i .ro)
    | .ro => pure false

/-- `mount_sd2` where SD2 is mounted already, or something else. -/
def mountAgain (i : ℕ) (access current : Access) : Sh Bool := do
  let own ← choice
  if own then
    if current = access then pure true
    else do
      let _ ← tryCommand (·.mountAs i access)
      pure true
  else pure false

/-- `start_sd2` with `PLUMOS_SD2_ACCESS`. -/
def startSd2 (i : ℕ) (access : Access) : Sh Bool := do
  let resolved ← choice
  if resolved then do
    let media ← Script.read State.media
    let mounted ← match media with
      | some current => mountAgain i access current
      | none => mountFresh i access
    if mounted then bindContent else pure false
  else pure true

end Mounts

section Repair

/-- `mkdir "$LOCK"`. -/
def mkdirLock (i : ℕ) : Sh Bool := Script.run fun s =>
  if s.lock then [(false, s)]
  else [(true, { s with lock := true, inside := Function.update s.inside i true }), (false, s)]

/-- `rmdir "$LOCK"` and the exit. -/
def rmdirLock (i : ℕ) : Sh Unit := Script.run fun s =>
  let gone := { s with inside := Function.update s.inside i false }
  [((), { gone with lock := false }), ((), gone)]

/-- The FAT checker runs and returns. -/
def runChecker (i : ℕ) : Sh ℕ := do
  Script.run fun s => [((), { s with checking := Function.update s.checking i true })]
  Script.run fun s => (List.range 256).map fun rc => (rc, { s with
    checking := Function.update s.checking i false
    checked := Function.update s.checked i (some rc) })

/-- `case "$check_rc" in`. -/
def accessFor (rc : ℕ) : Access := if rc = 0 ∨ rc = 1 then .rw else .ro

/-- Check and remount, once SD2 is unmounted. -/
def checkAndRemount (i : ℕ) : Sh Unit := do
  signalPoint false
  let checkRc ← runChecker i
  signalPoint false
  let started ← callHelper (startSd2 i (accessFor checkRc))
  signalPoint false
  if started then signalPoint true else .raise (.exit false)

/-- What an invocation does past the lock. -/
def pastLock (i : ℕ) : Sh Unit := do
  signalPoint true
  let mounted ← Script.read fun s => s.media.isSome
  let accepted ← choice
  if mounted && accepted then do
    let stopped ← callHelper stopSd2
    signalPoint true
    if stopped then checkAndRemount i else .raise (.exit true)
  else .raise (.exit true)

/-- One invocation up to its exit trap. -/
def body (i : ℕ) : Sh Unit := do
  signalPoint true
  let locked ← mkdirLock i
  if locked then pastLock i else .raise (.exit true)

/-- The recovery mount of `cleanup`. -/
def recover (i : ℕ) (mounted : Bool) : Sh Unit :=
  if mounted then pure ()
  else do
    let _ ← callHelper (startSd2 i .ro)
    pure ()

/-- `cleanup`. -/
def cleanup (i : ℕ) (mounted : Bool) : Sh Unit := do
  recover i mounted
  rmdirLock i

/-- The body with the value of `mounted` at its end. -/
def bodyMounted (i : ℕ) : Sh Bool :=
  Script.handle
    (do
      body i
      pure true)
    fun stop =>
      match stop with
      | .exit mounted => pure mounted
      | .helperFailed => pure true

/-- `plumos-sd2-repair`, invocation `i`. -/
def repair (i : ℕ) : Sh Unit := do
  let mounted ← bodyMounted i
  cleanup i mounted

/-- Any number of invocations, each of them not started yet. -/
def invocations (s : State) : Pool ℕ State Stop Unit := ⟨s, repair⟩

end Repair

end PlumosBubble.Sd2
