import Mathlib.Data.List.DropRight
import Mathlib.Data.List.Infix
import Mathlib.Logic.Function.Basic
import PlumosBubble.Update.Text

/-! The records of storage health: `plumos-storage-health` and the statuses that
`plumos-sd2-repair` writes. What a run finds on the system is its input. -/

namespace PlumosBubble.Health

open Update (Text isDigit)

section Mounts

/-- A line of `/proc/mounts`. -/
structure Mount where
  device : Text
  path : Text
  fstype : Text
  options : Text
  named : device ≠ []
  deriving DecidableEq

/-- `mount_line`. -/
def mountLine (mounts : List Mount) (path : Text) : Option Mount :=
  mounts.find? fun m => m.path = path

def sd2Root : Text := "/run/media/sd2".toList

def storageRoot : Text := "/storage".toList

/-- `printf ',%s,' "$options" | grep -q ',ro,'`. -/
def readOnly (options : Text) : Bool :=
  decide (",ro,".toList <:+: ',' :: options ++ [','])

/-- `${device##*/}`. -/
def kernelName (device : Text) : Text := device.rtakeWhile (· ≠ '/')

def isKeyChar (c : Char) : Bool := c.isAlphanum || c = '_' || c = '.' || c = '-'

def mediaKey (device : Text) : Text :=
  (kernelName device).map fun c => if isKeyChar c then c else '_'

/-- The pattern `*/mmcblk*p[0-9]*`. -/
def isMmcPartition (device : Text) : Bool :=
  device.tails.any fun t => "/mmcblk".toList.isPrefixOf t &&
    (t.drop 7).tails.any fun u =>
      match u with
      | 'p' :: c :: _ => isDigit c
      | _ => false

/-- The pattern `/dev/sd*[0-9]`. -/
def isSdPartition (device : Text) : Bool :=
  "/dev/sd".toList.isPrefixOf device && (device.drop 7).getLast?.any isDigit

/-- `device_disk`. -/
def deviceDisk (device : Text) : Text :=
  if isMmcPartition device then (device.rdropWhile (· ≠ 'p')).dropLast
  else if isSdPartition device then device.rdropWhile isDigit
  else device

end Mounts

section Records

inductive Result where
  | notMounted
  | dirty
  | inconsistent
  | observed
  | checkRefused
  | unavailable
  | clean
  | timeout
  | unsupported
  | refused
  | repairRefused
  deriving DecidableEq

/-- A status file. -/
structure Report where
  result : Result
  lastCheck : Text
  mountPath : Text
  device : Text
  filesystem : Text
  mountOptions : Text
  evidence : Text
  deriving DecidableEq

/-- `STATE_DIR`: the status of the last run, and the one of each media key. -/
structure Store where
  status : Option Report
  media : Text → Option Report

/-- `${value:-unknown}`. -/
def orUnknown (value : Text) : Text := if value = [] then "unknown".toList else value

/-- What both tools write about the mounted line, or about none. -/
def reportOf (result : Result) (now root : Text) (line : Option Mount) (options : Text)
    (evidence : String) : Report where
  result := result
  lastCheck := now
  mountPath := root
  device := orUnknown ((line.map Mount.device).getD [])
  filesystem := orUnknown ((line.map Mount.fstype).getD [])
  mountOptions := orUnknown options
  evidence := evidence.toList

/-- The report becomes the status, and the record of the device if there is one. -/
def Store.write (s : Store) (line : Option Mount) (report : Report) : Store where
  status := some report
  media :=
    match line with
    | some m => Function.update s.media (mediaKey m.device) (some report)
    | none => s.media

end Records

section StorageHealth

/-- What a run of `plumos-storage-health` finds: `PLUMOS_SDCARD_ROOT`, the mounts, the kernel
names for which the kernel log has a filesystem error, whether a FAT checker is installed, and
the exit status of `timeout 120 "$checker" -n "$device"`. -/
structure Surroundings where
  sdcardRoot : Text
  mounts : List Mount
  kernelError : Text → Bool
  checker : Bool
  checkRc : ℕ
  now : Text

inductive Action where
  | observe
  | check
  deriving DecidableEq

namespace Surroundings

def mediaRoot (e : Surroundings) : Text :=
  if e.sdcardRoot = storageRoot ∧ e.mounts.any fun m => m.path = sd2Root then sd2Root
  else e.sdcardRoot

def line (e : Surroundings) : Option Mount := mountLine e.mounts e.mediaRoot

end Surroundings

/-- `awk -F= '$1 == … { print $2; exit }'`. -/
def field (value : Text) : Text := value.takeWhile (· ≠ '=')

/-- `previous_result`. -/
def previousResult (s : Store) (root : Text) (m : Mount) : Option Result :=
  match s.media (mediaKey m.device) with
  | some record => some record.result
  | none =>
    match s.status with
    | some status =>
      if field status.device = m.device ∧ field status.mountPath = root ∧
          field status.filesystem = m.fstype then
        some status.result
      else none
    | none => none

def isFat (fstype : Text) : Bool :=
  fstype = "vfat".toList || fstype = "msdos".toList || fstype = "exfat".toList

/-- The branch of `observe`. -/
def observeResult (m : Mount) (previous : Option Result) : Result × String :=
  if isFat m.fstype ∧ previous = some .dirty then
    (.dirty, "previous filesystem error remains until a read-only check proves clean")
  else if isFat m.fstype ∧ previous = some .inconsistent then
    (.inconsistent, "previous filesystem error remains until a read-only check proves clean")
  else (.observed, "no filesystem error found in current boot log")

/-- The branch of `check`. -/
def checkResult (e : Surroundings) (m : Mount) : Result × String :=
  if readOnly m.options = false then
    (.checkRefused, "read-only check refused because media is mounted read-write")
  else if e.checker = false then
    (.unavailable, "read-only FAT checker is not installed")
  else if e.checkRc = 0 then (.clean, "read-only FAT check completed clean")
  else if e.checkRc = 124 ∨ e.checkRc = 137 then (.timeout, "read-only FAT check timed out")
  else (.dirty, "read-only FAT check reported rc=" ++ toString e.checkRc ++
    "; no repair attempted")

/-- `result` and `evidence`. -/
def judge (action : Action) (e : Surroundings) (s : Store) : Result × String :=
  match e.line with
  | none => (.notMounted, "media root is not mounted")
  | some m =>
    if e.kernelError (kernelName m.device) then
      (.dirty, "kernel reported filesystem corruption; no repair attempted")
    else
      match action with
      | .observe => observeResult m (previousResult s e.mediaRoot m)
      | .check => checkResult e m

/-- The report of a run. -/
def healthReport (action : Action) (e : Surroundings) (s : Store) : Report :=
  reportOf (judge action e s).1 e.now e.mediaRoot e.line ((e.line.map Mount.options).getD [])
    (judge action e s).2

/-- `plumos-storage-health observe` and `check`. -/
def storageHealth (action : Action) (e : Surroundings) (s : Store) : Store :=
  s.write e.line (healthReport action e s)

end StorageHealth

section Repair

/-- What a run of `plumos-sd2-repair` finds, and how the mount helper and the checker end. -/
structure Attempt where
  mediaRoot : Text
  lockFree : Bool
  mounts : List Mount
  regularAllowed : Bool
  toolsPresent : Bool
  stopOk : Bool
  checkRc : ℕ
  startOk : Bool
  mountsAfter : List Mount
  now : Text

namespace Attempt

/-- It has the lock, for SD2. -/
def Begun (a : Attempt) : Prop := a.lockFree = true ∧ a.mediaRoot = sd2Root

instance (a : Attempt) : Decidable a.Begun := inferInstanceAs (Decidable (_ ∧ _))

def line (a : Attempt) : Option Mount := mountLine a.mounts a.mediaRoot

def safeDevice (a : Attempt) (m : Mount) : Bool :=
  "/dev/".toList.isPrefixOf m.device || a.regularAllowed

def osDevice (a : Attempt) (m : Mount) : Bool :=
  (mountLine a.mounts storageRoot).any fun storage =>
    deviceDisk m.device = deviceDisk storage.device

end Attempt

def isRepairable (fstype : Text) : Bool := fstype = "vfat".toList || fstype = "msdos".toList

def accessFor (checkRc : ℕ) : Text :=
  if checkRc = 0 ∨ checkRc = 1 then "rw".toList else "ro".toList

/-- `case "$check_rc" in`. -/
def repairResult (checkRc : ℕ) : Result × String :=
  if checkRc = 0 then (.clean, "FAT32 check completed; no repair was needed")
  else if checkRc = 1 then (.clean, "FAT32 errors were repaired")
  else if checkRc = 124 ∨ checkRc = 137 then
    (.timeout, "FAT32 repair timed out; remounted read-only")
  else (.dirty, "FAT32 repair failed rc=" ++ toString checkRc ++ "; remounted read-only")

/-- `${new_options:-$access}`. -/
def Attempt.newOptions (a : Attempt) : Text :=
  let options := ((mountLine a.mountsAfter a.mediaRoot).map Mount.options).getD []
  if options = [] then accessFor a.checkRc else options

/-- Result, evidence and options for a mounted SD2. -/
def repairJudge (a : Attempt) (m : Mount) : (Result × String) × Text :=
  if isRepairable m.fstype = false then
    ((.unsupported, "SD2 is not FAT32; no repair attempted"), m.options)
  else if a.safeDevice m = false then
    ((.refused, "SD2 device identity is unsafe; no repair attempted"), m.options)
  else if a.osDevice m then
    ((.refused, "OS storage device refused; no repair attempted"), m.options)
  else if a.toolsPresent = false then
    ((.unavailable, "SD2 repair tool is not installed"), m.options)
  else if a.stopOk = false then
    ((.repairRefused, "SD2 is in use; close transfers and try again"), m.options)
  else if a.startOk = false then
    ((.dirty, "Repair finished but SD2 remount failed; reboot safely"), "unmounted".toList)
  else (repairResult a.checkRc, a.newOptions)

/-- The arguments of its `write_status`. -/
def repairReport (a : Attempt) : Report :=
  match a.line with
  | none => reportOf .notMounted a.now a.mediaRoot none "unknown".toList
      "SD2 is not mounted; no repair attempted"
  | some m =>
    let judged := repairJudge a m
    reportOf judged.1.1 a.now a.mediaRoot (some m) judged.2 judged.1.2

/-- `plumos-sd2-repair`. -/
def sd2Repair (a : Attempt) (s : Store) : Store :=
  if a.Begun then s.write a.line (repairReport a) else s

end Repair

end PlumosBubble.Health
