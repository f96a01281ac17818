import Mathlib.Logic.Function.Basic
import PlumosBubble.Script.Basic
import PlumosBubble.Sd2.Device

/-! `start_sd2` and `stop_sd2` of `plumos-bubble-mount-sd2` on the kernel's mount table. The
table lists the mounts in the order in which they were made; what a command does to a mount
point it does to the last one there. A command may always fail, and then changes nothing. -/

namespace PlumosBubble.Sd2.Content

open Frontend Scripts

/-- A line of the mount table, with the flag of the mount itself. -/
structure Row where
  source : CString
  target : CString
  readOnly : Bool
  deriving DecidableEq

/-- The mounts, and which devices hold a file system that is read-only as a whole. -/
structure Mounts where
  rows : List Row
  frozen : CString → Bool

/-- The last mount on `target` is replaced by what `f` makes of it. -/
def changeTop (target : CString) (f : Row → List Row) : List Row → List Row
  | [] => []
  | row :: rows =>
    if rows.any (·.target = target) then row :: changeTop target f rows
    else if row.target = target then f row ++ rows
    else row :: rows

/-- The source of the last mount on a path. -/
def topSource (rows : List Row) (path : CString) : Option CString :=
  (rows.findRev? (·.target = path)).map Row.source

/-- `mount_source`: the first line for the path decides. -/
def mountSource (rows : List Row) (path : CString) : Option CString :=
  (rows.find? (·.target = path)).map Row.source

/-- The options of a line show `ro`. -/
def Mounts.access (m : Mounts) (row : Row) : Bool := row.readOnly || m.frozen row.source

/-- The table as it can be read. -/
def Mounts.shown (m : Mounts) : List (CString × CString × Bool) :=
  m.rows.map fun row => (row.source, row.target, m.access row)

/-- `mount_access`, where `ro` is true. -/
def mountAccess (m : Mounts) (path : CString) : Bool :=
  ((m.rows.find? (·.target = path)).map m.access).getD false

/-- The commands on mounts, where `readOnly` tells `ro` from `rw`. -/
inductive Command
  | mount (device target : CString) (readOnly : Bool)
  | remount (target : CString) (readOnly : Bool)
  | remountBind (target : CString) (readOnly : Bool)
  | bind (directory target : CString)
  | umount (target : CString)
  deriving DecidableEq

/-- A path lies in what is mounted on `target`. -/
def covers (target path : CString) : Bool :=
  target = [slash] || target = path || (target ++ [slash]).isPrefixOf path

/-- The device of the file system that a path lies in. -/
def sourceOf (rows : List Row) (path : CString) : CString :=
  ((rows.findRev? fun row => covers row.target path).map Row.source).getD []

/-- What a command does when it succeeds. -/
def Command.effect (m : Mounts) : Command → Mounts
  | mount device target readOnly =>
    { rows := m.rows ++ [⟨device, target, readOnly⟩]
      frozen := if m.rows.any (·.source = device) then m.frozen
        else Function.update m.frozen device readOnly }
  | remount target readOnly =>
    { rows := changeTop target (fun row => [{ row with readOnly }]) m.rows
      frozen := match topSource m.rows target with
        | some device => Function.update m.frozen device readOnly
        | none => m.frozen }
  | remountBind target readOnly =>
    { m with rows := changeTop target (fun row => [{ row with readOnly }]) m.rows }
  | bind directory target =>
    { m with rows := m.rows ++ [⟨sourceOf m.rows directory, target, false⟩] }
  | umount target => { m with rows := changeTop target (fun _ => []) m.rows }

/-- A command that was run, with the mounts it met. -/
structure Record where
  mounts : Mounts
  command : Command
  ok : Bool

structure State where
  mounts : Mounts
  /-- The commands so far. -/
  log : List Record

abbrev Sh := Script State Empty

/-- A command on mounts. -/
def attempt (command : Command) : Sh Bool :=
  Script.run fun s =>
    [(true, ⟨command.effect s.mounts, s.log ++ [⟨s.mounts, command, true⟩]⟩),
      (false, ⟨s.mounts, s.log ++ [⟨s.mounts, command, false⟩]⟩)]

/-- Another command, of which only the success matters. -/
def succeeds : Sh Bool := Script.run fun s => [(true, s), (false, s)]

/-- The paths of the script. -/
structure Config where
  sd2Mount : CString
  romTarget : CString
  biosTarget : CString

/-- What an invocation finds: its environment, the identity that was saved, the devices and
the directories. `readOnly` is `SD2_ACCESS`, and an unset variable is empty. -/
structure Surroundings where
  readOnly : Bool
  deviceOverride : CString
  fallbackDevice : CString
  requestedUuid : CString
  requestedLabel : CString
  savedUuid : CString
  savedLabel : CString
  testAllowRegular : Bool
  findfs : CString → Option CString
  isBlock : CString → Bool
  isRegular : CString → Bool
  isDirectory : CString → Bool

def storage : CString := lit "/storage"

/-- `find_identity`. -/
def findIdentity (w : Surroundings) (kind value : CString) : Option CString :=
  if value = [] then none
  else match w.findfs (kind ++ lit "=" ++ value) with
    | none => none
    | some candidate =>
      if lit "/dev/" <+: candidate then some candidate
      else if w.testAllowRegular && w.isRegular candidate then some candidate
      else none

/-- `${requested:-saved}`. -/
def orSaved (requested saved : CString) : CString := if requested = [] then saved else requested

/-- `device_available`. -/
def deviceAvailable (w : Surroundings) (candidate : CString) : Bool :=
  w.isBlock candidate || w.testAllowRegular && w.isRegular candidate

/-- `validate_device`. -/
def validateDevice (w : Surroundings) (rows : List Row) (candidate : CString) : Bool :=
  deviceAvailable w candidate &&
    match mountSource rows storage with
    | none => true
    | some source => candidate ≠ source && deviceDisk candidate ≠ deviceDisk source

/-- The device that `resolve_device` looks at. -/
def candidate (w : Surroundings) : CString :=
  if w.deviceOverride ≠ [] then w.deviceOverride
  else match findIdentity w (lit "UUID") (orSaved w.requestedUuid w.savedUuid) with
    | some device => device
    | none =>
      match findIdentity w (lit "LABEL") (orSaved w.requestedLabel w.savedLabel) with
      | some device => device
      | none => w.fallbackDevice

/-- `resolve_device`. -/
def resolveDevice (w : Surroundings) (rows : List Row) : Option CString :=
  if validateDevice w rows (candidate w) then some (candidate w) else none

/-- `find_content_dir`. -/
def findContentDir (w : Surroundings) (base : CString) (names : List CString) : Option CString :=
  (names.find? fun name => w.isDirectory (base ++ [slash] ++ name)).map (base ++ [slash] ++ ·)

/-- `bind_content_dir`; true is a return of 0. -/
def bindContentDir (c : Config) (sourceDir targetDir : CString) : Sh Bool := do
  let m ← Script.read State.mounts
  match mountSource m.rows c.sd2Mount, mountSource m.rows targetDir with
  | none, _ => pure false
  | some sd2Source, some currentSource =>
    if currentSource = sd2Source then
      if mountAccess m targetDir ≠ mountAccess m c.sd2Mount then
        attempt (.remountBind targetDir (mountAccess m c.sd2Mount))
      else pure true
    else pure false
  | some _, none => do
    let made ← succeeds
    if made then attempt (.bind sourceDir targetDir) else pure false

/-- `unbind_content_dir`. -/
def unbindContentDir (c : Config) (targetDir : CString) : Sh Bool := do
  let m ← Script.read State.mounts
  match mountSource m.rows targetDir with
  | none => pure true
  | some currentSource =>
    if mountSource m.rows c.sd2Mount = some currentSource then attempt (.umount targetDir)
    else pure false

/-- `mount_sd2`, with its return code. -/
def mountSd2 (c : Config) (w : Surroundings) : Sh ℕ := do
  let m ← Script.read State.mounts
  match resolveDevice w m.rows with
  | none => pure 2
  | some device =>
    match mountSource m.rows c.sd2Mount with
    | some mountedSource =>
      if mountedSource = device then
        if mountAccess m c.sd2Mount ≠ w.readOnly then do
          let _ ← attempt (.remount c.sd2Mount w.readOnly)
          pure 0
        else pure 0
      else pure 1
    | none => do
      let mounted ← attempt (.mount device c.sd2Mount w.readOnly)
      if mounted then pure 0
      else if w.readOnly then pure 1
      else do
        let fallback ← attempt (.mount device c.sd2Mount true)
        pure (if fallback then 0 else 1)

/-- A content directory of SD2 is bound, if there is one. -/
def bindFound (c : Config) (found : Option CString) (targetDir : CString) : Sh Bool :=
  match found with
  | some sourceDir => bindContentDir c sourceDir targetDir
  | none => pure true

/-- `start_sd2`; the identity file and the logs are no mounts. -/
def startSd2 (c : Config) (w : Surroundings) : Sh Bool := do
  let mountRc ← mountSd2 c w
  if mountRc = 0 then do
    let roms ← bindFound c
      (findContentDir w c.sd2Mount [lit "roms", lit "ROMS", lit "Roms"]) c.romTarget
    let bios ← bindFound c
      (findContentDir w c.sd2Mount [lit "bios", lit "BIOS", lit "Bios"]) c.biosTarget
    pure (roms && bios)
  else pure (mountRc = 2)

/-- The last part of `stop_sd2`: SD2 is unmounted. -/
def unmountSd2 (c : Config) : Sh Bool := attempt (.umount c.sd2Mount)

/-- `stop_sd2`. -/
def stopSd2 (c : Config) : Sh Bool := do
  let bios ← unbindContentDir c c.biosTarget
  let roms ← unbindContentDir c c.romTarget
  if bios && roms then do
    let m ← Script.read State.mounts
    match mountSource m.rows c.sd2Mount with
    | none => pure true
    | some _ =>
      if mountAccess m c.sd2Mount then unmountSd2 c
      else do
        let remounted ← attempt (.remount c.sd2Mount true)
        if remounted then unmountSd2 c else pure false
  else pure false

/-- A call of the script. -/
inductive Call
  | start (w : Surroundings)
  | stop

def Call.script (c : Config) : Call → Sh Bool
  | start w => startSd2 c w
  | stop => stopSd2 c

/-- Calls one after the other, whatever they return. -/
def callAll (c : Config) (calls : List Call) : Sh Unit :=
  Script.forEach (fun call => do
    let _ ← call.script c
    pure ()) calls

end PlumosBubble.Sd2.Content
