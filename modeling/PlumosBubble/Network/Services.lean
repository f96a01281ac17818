import Mathlib.Data.Finset.Insert
import Mathlib.Data.Fintype.Defs
import Mathlib.Data.List.Infix
import PlumosBubble.Script.Threads
import PlumosBubble.Update.Text

/-! `plumos-network-services` as far as it reads and writes `services.conf`: the start and the
stop of each service, which record what the user wants, and `start-enabled`, which starts what
is recorded. The daemons themselves are left open. -/

namespace PlumosBubble.Network

open Scripts
open Update (Text)

inductive Service where
  | ssh
  | ftp
  | sftp
  | samba
  | adb
  deriving DecidableEq

instance : Fintype Service :=
  ⟨{.ssh, .ftp, .sftp, .samba, .adb}, fun service => by cases service <;> decide⟩

inductive Action where
  | start
  | stop
  deriving DecidableEq

/-- `services.conf`, line by line, if it is there. -/
abbrev Conf := Option (List Text)

section Lines

def Service.name : Service → Text
  | .ssh => "ssh".toList
  | .ftp => "ftp".toList
  | .sftp => "sftp".toList
  | .samba => "samba".toList
  | .adb => "adb".toList

/-- `config_key`. -/
def configKey (service : Service) : Text := service.name ++ "_enabled".toList

/-- The `key=` at the start of a line. -/
def keyStart (service : Service) : Text := configKey service ++ ['=']

/-- What `sed -n "s/^key=//p"` makes of a line. -/
def lineValue (service : Service) (line : Text) : Option Text :=
  if keyStart service <+: line then some (line.drop (keyStart service).length) else none

/-- `enabled`. -/
def enabled (service : Service) (conf : Conf) : Bool :=
  match ((conf.getD []).filterMap (lineValue service)).getLast? with
  | none | some [] => service = .ssh
  | some value => value ∈ ["1".toList, "true".toList, "on".toList]

/-- `grep -v "^key="`. -/
def otherLines (service : Service) (lines : List Text) : List Text :=
  lines.filter fun line => !(keyStart service).isPrefixOf line

/-- The line that `set_enabled` appends. -/
def enabledLine (service : Service) (on : Bool) : Text :=
  keyStart service ++ if on then ['1'] else ['0']

end Lines

/-- The user's commands, one after another, and the runs of `start-enabled`. -/
inductive Process where
  | user
  | run (i : ℕ)
  deriving DecidableEq

/-- `services.conf` and, by process, the copy that it will rename. `editing` is the service whose
line that copy sets; nothing reads it. -/
structure State where
  conf : Conf
  next : Process → List Text
  editing : Process → Service

abbrev Sh := Script State Empty

section Commands

variable (p : Process)

/-- What becomes of a daemon. -/
def daemon : Sh Bool := Script.run fun s => [(true, s), (false, s)]

/-- `grep -v … >"$next"`, or `: >"$next"` where there was no file. -/
def State.copy (s : State) (service : Service) (readable : Bool) : State :=
  { s with
    next := Function.update s.next p
      (if readable then otherLines service (s.conf.getD []) else [])
    editing := Function.update s.editing p service }

/-- `printf … >>"$next"`. -/
def State.append (s : State) (line : Text) : State :=
  { s with next := Function.update s.next p (s.next p ++ [line]) }

/-- `mv -f "$next" "$SERVICES_CONF"`. -/
def State.rename (s : State) : State := { s with conf := some (s.next p) }

/-- `set_enabled`. -/
def setEnabled (service : Service) (on : Bool) : Sh Unit := do
  let readable ← Script.read fun s => s.conf.isSome
  Script.run fun s => [((), s.copy p service readable)]
  Script.run fun s => [((), s.append p (enabledLine service on))]
  Script.run fun s => [((), s.rename p)]

/-- `start_ssh`, `start_ftp` and `start_samba`. -/
def startOnly (service : Service) : Sh Bool := do
  setEnabled p service true
  daemon

def startSsh : Sh Bool := startOnly p .ssh
def startFtp : Sh Bool := startOnly p .ftp
def startSamba : Sh Bool := startOnly p .samba

def stopSsh : Sh Bool := do
  setEnabled p .ssh false
  setEnabled p .sftp false
  pure true

/-- `stop_ftp`, `stop_sftp` and `stop_samba`. -/
def stopOnly (service : Service) : Sh Bool := do
  setEnabled p service false
  pure true

def stopFtp : Sh Bool := stopOnly p .ftp
def stopSftp : Sh Bool := stopOnly p .sftp
def stopSamba : Sh Bool := stopOnly p .samba

variable (sftpInstalled : Bool)

/-- `start_sftp`; its server is the one of SSH. -/
def startSftp : Sh Bool := do
  setEnabled p .sftp true
  if sftpInstalled then do
    let running ← startSsh p
    if running then Script.read fun s => enabled .sftp s.conf else pure false
  else pure false

/-- `run_one`. -/
def runOne : Action → Service → Sh Bool
  | .start, .ssh => startSsh p
  | .stop, .ssh => stopSsh p
  | .start, .ftp => startFtp p
  | .stop, .ftp => stopFtp p
  | .start, .sftp => startSftp p sftpInstalled
  | .stop, .sftp => stopSftp p
  | .start, .samba => startSamba p
  | .stop, .samba => stopSamba p
  | .start, .adb | .stop, .adb => pure false

/-- The loop of `start-enabled`. -/
def startEnabled : List Service → Bool → Sh Bool
  | [], result => pure result
  | candidate :: candidates, result => do
    let on ← Script.read fun s => enabled candidate s.conf
    if on then do
      let ok ← runOne p sftpInstalled .start candidate
      startEnabled candidates (result && ok)
    else startEnabled candidates result

/-- The `start-enabled` of one run. -/
def startEnabledRun (i : ℕ) : Sh Bool :=
  startEnabled (.run i) sftpInstalled [.ftp, .sftp, .samba] true

/-- The user's commands, one after another. -/
def userCommands : List (Action × Service) → Sh Bool
  | [] => pure true
  | (action, service) :: commands => do
    let _ ← runOne .user sftpInstalled action service
    userCommands commands

end Commands

/-- The user's commands with `n` runs of `start-enabled`. -/
def programs (sftpInstalled : Bool) (commands : List (Action × Service)) (n : ℕ) :
    Process → Sh Bool
  | .user => userCommands sftpInstalled commands
  | .run i => if i < n then startEnabledRun sftpInstalled i else pure true

/-- Before anything has run. -/
def State.start (conf : Conf) : State := ⟨conf, fun _ => [], fun _ => .ssh⟩

abbrev Session := Pool Process State Empty Bool

def session (conf : Conf) (sftpInstalled : Bool) (commands : List (Action × Service)) (n : ℕ) :
    Session :=
  ⟨.start conf, programs sftpInstalled commands n⟩

end PlumosBubble.Network
