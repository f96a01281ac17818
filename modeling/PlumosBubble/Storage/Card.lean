import PlumosBubble.Script.Basic
import PlumosBubble.Update.Text

/-! First-boot provisioning: `plumos-bubble-provision-storage` and the part of the external
initramfs `init` around it. The state is the card with what the running system has not yet
written to it. The partitioning and filesystem tools are atomic, and each may fail, with its
effect or without it, where `mayFail` allows it. -/

namespace PlumosBubble.Storage

open Scripts
open Update (Text)

structure Partition where
  start : ℕ
  size : ℕ
  deriving DecidableEq

/-- What the scripts read or write on p3, text files by their lines. -/
structure Files where
  manifest : Option (List Text)
  intent : Option (List Text)
  complete : Bool
  deriving DecidableEq

/-- The card. `area` is what is on the sectors of p4, or on those that p4 will get;
`p4AfterIntent` says whether the intent marker was on p3 when p4 was created, for the
statements only: nothing reads it. -/
structure Card (Bytes : Type) where
  sectors : ℕ
  p1 : Partition
  p2 : Partition
  p3 : Partition
  p4 : Option Partition
  p1Label : Text
  p1Authorized : Bool
  p3Label : Text
  p3FilesystemSectors : ℕ
  files : Files
  area : Bytes
  p4AfterIntent : Bool

section Names

def bootStart : ℕ := 32768
def bootSectors : ℕ := 1048576
def matchingStart : ℕ := 1081344
def matchingSectors : ℕ := 131072
def runtimeStart : ℕ := 1212416
def runtimeSeedSectors : ℕ := 4718592
def runtimeTargetSectors : ℕ := 16777216
def runtimeTargetEnd : ℕ := runtimeStart + runtimeTargetSectors - 1
def userdataStart : ℕ := runtimeTargetEnd + 1
def minimumDiskSectors : ℕ := 29360128
def p4MinimumSectors : ℕ := 1048576

def plumboot : Text := "PLUMBOOT".toList
def plumosSys : Text := "PLUMOS_SYS".toList
def plumos : Text := "PLUMOS".toList
def vfat : Text := "vfat".toList
def authorizedYes : Text := "authorized=yes".toList
def intentLine : Text := "format=plumos-bubble-p4-create-intent-v1".toList

end Names

/-- What `has_p4_intent` looks for. -/
def Files.hasIntent (files : Files) : Bool :=
  match files.intent with
  | some lines => lines.contains intentLine
  | none => false

/-- What the tools make of the bytes of p4, and how `parted` aligns the end of a partition. -/
structure Tools (Bytes : Type) where
  blkidType : Bytes → Text
  blkidLabel : Bytes → Text
  mkfsFat : Bytes → Bytes
  fsckFat : Bytes → Bytes
  grain : ℕ
  mayFail : Bool

/-- The runs that change a card. -/
inductive Tool where
  | resizePart3
  | mkPart4
  | e2fsck
  | resize2fs
  | mkfsFat
  | fsckFat
  deriving DecidableEq

variable {Bytes : Type}

/-- The size of a partition from `userdata_start` to `100%`. -/
def Tools.p4Size (tools : Tools Bytes) (sectors : ℕ) : ℕ :=
  sectors / tools.grain * tools.grain - userdataStart

/-- What a tool does to a card. -/
def Tool.effect (tools : Tools Bytes) : Tool → Card Bytes → Card Bytes
  | .resizePart3, c => { c with p3 := ⟨c.p3.start, runtimeTargetEnd + 1 - c.p3.start⟩ }
  | .mkPart4, c =>
    match c.p4 with
    | none => { c with
        p4 := some ⟨userdataStart, tools.p4Size c.sectors⟩
        p4AfterIntent := c.files.hasIntent }
    | some _ => c
  | .e2fsck, c => c
  | .resize2fs, c => { c with p3FilesystemSectors := c.p3.size }
  | .mkfsFat, c => { c with area := tools.mkfsFat c.area }
  | .fsckFat, c => { c with area := tools.fsckFat c.area }

/-- A card in the device. `mounted` are the files of p3 as the system sees them where p3 is
mounted; `history` lists the tools that were run, each with the card before it. -/
structure Machine (Bytes : Type) where
  card : Card Bytes
  mounted : Option Files
  history : List (Tool × Card Bytes)

/-- What `fail` prints. -/
structure Failure where
  stage : String
  detail : String
  value : Text
  deriving DecidableEq

abbrev Sh (Bytes : Type) := Script (Machine Bytes) Failure

section Commands

variable (tools : Tools Bytes)

def Machine.powerOff (m : Machine Bytes) : Machine Bytes := { m with mounted := none }

/-- The run of a tool is put on record. -/
def Machine.record (m : Machine Bytes) (tool : Tool) : Machine Bytes :=
  { m with history := m.history ++ [(tool, m.card)] }

def Machine.apply (m : Machine Bytes) (tool : Tool) : Machine Bytes :=
  { m.record tool with card := tool.effect tools m.card }

/-- One file of the mounted p3 changes there. -/
def Machine.edit (m : Machine Bytes) (f : Files → Files) : Machine Bytes :=
  { m with mounted := m.mounted.map f }

/-- The change is on the card. -/
def Machine.writeBack (m : Machine Bytes) (f : Files → Files) : Machine Bytes :=
  { m with card := { m.card with files := f m.card.files } }

/-- All changes are. -/
def Machine.sync (m : Machine Bytes) : Machine Bytes :=
  { m with card := { m.card with files := m.mounted.getD m.card.files } }

def fail {α : Type} (stage detail : String) (value : Text) : Sh Bytes α :=
  .raise ⟨stage, detail, value⟩

/-- `condition || fail`. -/
def require (condition : Card Bytes → Bool) (stage detail : String)
    (value : Card Bytes → Text) : Sh Bytes Unit := do
  let ok ← Script.read fun m => condition m.card
  if ok then pure () else do
    let shown ← Script.read fun m => value m.card
    fail stage detail shown

def noValue : Card Bytes → Text := fun _ => []

/-- A number in decimal. -/
def decimal (n : ℕ) : Text := Nat.toDigits 10 n

/-- A command that may fail where `mayFail` allows it. -/
def attempt (f : Machine Bytes → Machine Bytes) (stage detail : String) : Sh Bytes Unit := do
  let ok ← Script.run fun m => (true, f m) :: if tools.mayFail then [(false, m)] else []
  if ok then pure () else fail stage detail []

/-- A tool, by its exit status. -/
def use (tool : Tool) (stage detail : String) : Sh Bytes Unit := do
  let ok ← Script.run fun m => (true, m.apply tools tool) ::
    if tools.mayFail then [(false, m.apply tools tool), (false, m.record tool)] else []
  if ok then pure () else fail stage detail []

/-- A write to the mounted p3, which is on the card at once or only after a `sync`. -/
def write (f : Files → Files) : Sh Bytes Unit :=
  Script.run fun m => [((), m.edit f), ((), (m.edit f).writeBack f)]

def sync : Sh Bytes Unit := Script.run fun m => [((), m.sync)]

def mountFiles (m : Machine Bytes) : Machine Bytes := { m with mounted := some m.card.files }

def unmountFiles (m : Machine Bytes) : Machine Bytes := { m.sync with mounted := none }

end Commands

section Provision

variable (tools : Tools Bytes)

/-- `check_geometry`. -/
def hasGeometry (p : Partition) (start size : ℕ) : Bool := p = ⟨start, size⟩

def fsckExt4 : Sh Bytes Unit := use tools .e2fsck "E24B" "e2fsck rc"

def fsckFat : Sh Bytes Unit := use tools .fsckFat "E24D" "fsck.fat rc"

def mountState : Sh Bytes Unit := attempt tools mountFiles "E24C" "P3_STATE_MOUNT_FAILED"

def unmountState : Sh Bytes Unit := do
  sync
  attempt tools unmountFiles "E24C" "P3_STATE_UNMOUNT_FAILED"

def writeP4Intent : Sh Bytes Unit := do
  mountState tools
  write fun files => { files with intent := some [intentLine] }
  sync
  unmountState tools

def hasP4Intent : Sh Bytes Bool := do
  mountState tools
  let result ← Script.read fun m => (m.mounted.map Files.hasIntent).getD false
  unmountState tools
  pure result

def blkidType (c : Card Bytes) : Text := tools.blkidType c.area

def blkidLabel (c : Card Bytes) : Text := tools.blkidLabel c.area

/-- The geometry, the type and the label of p4. -/
def checkP4Place : Sh Bytes Unit := do
  require (fun c => c.p4.map Partition.start = some userdataStart) "E24C" "P4_START_MISMATCH"
    fun c => (c.p4.map fun p => decimal p.start).getD []
  require (fun c => p4MinimumSectors ≤ (c.p4.map Partition.size).getD 0) "E24C" "P4_TOO_SMALL" noValue

def checkP4Type : Sh Bytes Unit := do
  require (fun c => blkidType tools c = vfat) "E24D" "P4_TYPE_UNEXPECTED" (blkidType tools)
  require (fun c => blkidLabel tools c = plumos) "E24D" "P4_LABEL_UNEXPECTED" (blkidLabel tools)

/-- Once provisioning is complete nothing but the contract is checked. -/
def completedBoot : Sh Bytes Unit := do
  require (fun c => c.p3.size = runtimeTargetSectors) "E24A" "COMPLETED_BOOT_P3_SIZE_MISMATCH" noValue
  require (fun c => c.p4.isSome) "E24C" "COMPLETED_BOOT_P4_MISSING" noValue
  checkP4Place
  checkP4Type tools

def expandP3 (p3Sectors : ℕ) : Sh Bytes Unit :=
  if p3Sectors = runtimeSeedSectors then do
    use tools .resizePart3 "E24A" "P3_PARTITION_EXPANSION_FAILED"
    require (fun c => c.p3.size = runtimeTargetSectors) "E24A" "P3_GEOMETRY_NOT_VISIBLE" noValue
  else pure ()

/-- p4 is created where there is none; the answer is `format_p4`. -/
def createP4 : Sh Bytes Bool := do
  let present ← Script.read fun m => m.card.p4.isSome
  if present then pure false
  else do
    writeP4Intent tools
    use tools .mkPart4 "E24C" "P4_CREATE_FAILED"
    require (fun c => c.p4.isSome) "E24C" "P4_NOT_VISIBLE" noValue
    pure true

/-- `[ "$format_p4" -eq 1 ] || has_p4_intent || fail`. -/
def authorizeFormat (formatP4 : Bool) : Sh Bytes Unit :=
  if formatP4 then pure ()
  else do
    let intent ← hasP4Intent tools
    if intent then pure () else fail "E24C" "BLANK_P4_WITHOUT_DURABLE_INTENT" []

def formatBlankP4 (formatP4 : Bool) : Sh Bytes Unit := do
  let p4Type ← Script.read fun m => blkidType tools m.card
  if p4Type = [] then do
    authorizeFormat tools formatP4
    use tools .mkfsFat "E24C" "P4_FORMAT_FAILED"
  else pure ()

/-- The checks on the layout that come first. -/
def authorizeLayout : Sh Bytes Unit := do
  require (fun c => minimumDiskSectors ≤ c.sectors) "E24" "DISK_SMALLER_THAN_14_GIB" noValue
  require (fun c => hasGeometry c.p1 bootStart bootSectors) "E24" "P1_GEOMETRY_MISMATCH" noValue
  require (fun c => hasGeometry c.p2 matchingStart matchingSectors) "E24" "P2_GEOMETRY_MISMATCH"
    noValue
  require (fun c => c.p3.start = runtimeStart) "E24" "P3_START_MISMATCH" noValue
  require (fun c => c.p3Label = plumosSys) "E24" "P3_LABEL_MISMATCH" noValue
  require (fun c => c.p3.size = runtimeSeedSectors || c.p3.size = runtimeTargetSectors) "E24"
    "P3_SIZE_UNEXPECTED" fun c => decimal c.p3.size
  require (fun c => !(c.p3.size = runtimeSeedSectors && c.p4.isSome)) "E24"
    "P4_PRESENT_BEFORE_P3_EXPANSION" noValue

/-- What follows for a card that is not complete. -/
def provisionSteps : Sh Bytes Unit := do
  let p3Sectors ← Script.read fun m => m.card.p3.size
  expandP3 tools p3Sectors
  fsckExt4 tools
  use tools .resize2fs "E24B" "P3_FILESYSTEM_RESIZE_FAILED"
  fsckExt4 tools
  let formatP4 ← createP4 tools
  checkP4Place
  formatBlankP4 tools formatP4
  checkP4Type tools
  fsckFat tools

/-- `plumos-bubble-provision-storage`. -/
def provisionStorage (provisioningComplete : Bool) : Sh Bytes Unit := do
  authorizeLayout
  if provisioningComplete then completedBoot tools else provisionSteps tools

end Provision

section Init

variable (tools : Tools Bytes)

def checkAuthorization : Sh Bytes Unit := do
  require (fun c => c.p1Authorized) "E25" "P1_AUTHORIZATION_MARKER_MISSING" noValue
  require (fun c => c.files.manifest.isSome) "E25" "P3_PROBE_MANIFEST_MISSING" noValue
  require (fun c => (c.files.manifest.getD []).contains authorizedYes) "E25"
    "P3_AUTHORIZATION_MISSING" noValue

/-- The geometry that `init` checks itself. -/
def checkGeometry : Sh Bytes Unit := do
  require (fun c => c.p1Label = plumboot) "E23" "OS_DISK_NOT_FOUND" noValue
  require (fun c => c.p3Label = plumosSys) "E23" "RUNTIME_LABEL_MISMATCH" noValue
  require (fun c => hasGeometry c.p1 bootStart bootSectors) "E24" "P1_GEOMETRY_MISMATCH" noValue
  require (fun c => hasGeometry c.p2 matchingStart matchingSectors) "E24" "P2_GEOMETRY_MISMATCH"
    noValue
  require (fun c => c.p3.start = runtimeStart) "E24" "P3_START_MISMATCH" noValue
  require (fun c => c.p3.size = runtimeSeedSectors || c.p3.size = runtimeTargetSectors) "E24"
    "P3_SIZE_MISMATCH" noValue

/-- The mounts and the marker after a successful run of the helper. -/
def finishBoot : Sh Bytes Unit := do
  attempt tools id "E25" "P1_REMOUNT_FAILED"
  attempt tools mountFiles "E25" "P3_REMOUNT_FAILED"
  attempt tools id "E25" "P4_MOUNT_FAILED"
  sync
  write fun files => { files with complete := true }
  sync

/-- `init`, from the search for the disk to the `complete` marker. -/
def init : Sh Bytes Unit := do
  checkGeometry
  attempt tools id "E25" "P1_MOUNT_FAILED"
  attempt tools id "E25" "P3_MOUNT_FAILED"
  checkAuthorization
  let provisioningWasComplete ← Script.read fun m => m.card.files.complete
  attempt tools id "E25" "P3_PREAUTH_UNMOUNT_FAILED"
  attempt tools id "E25" "P1_PREAUTH_UNMOUNT_FAILED"
  Script.handle (provisionStorage tools provisioningWasComplete) fun _ =>
    fail "E25" "STORAGE_PROVISION_FAILED" []
  finishBoot tools

/-- A boot that stops anywhere, and the power goes off. -/
def InterruptedBoot (s : Machine Bytes) (_ : Unit) (t : Machine Bytes) : Prop :=
  ∃ u, (init tools).Leaves s u ∧ t = u.powerOff

/-- A card before its first boot here. -/
def Card.inserted (c : Card Bytes) : Machine Bytes := ⟨c, none, []⟩

end Init

end PlumosBubble.Storage
