import PlumosBubble.FileSystem.Programs
import PlumosBubble.Update.SemVer

/-! The data of the Runtime updater and its checks: which paths a Runtime package may
touch, what a manifest and an archive must look like, and which package fits the
installation. The files in `update-state` are kept as the values they hold. -/

namespace PlumosBubble.Update

open Crash FileSystem

def deviceId : Text := "gkd-bubble".toList
def architecture : Text := "aarch64".toList
def vendorRuntime : Text := "bubble-stockos-r1".toList

def metadataLast : List Text := ["VERSION", "manifest.json", "checksums.sha256"].map String.toList

def managedRoots : List Text :=
  ["apps", "bin", "components", "cores", "emulator", "factory-defaults",
    "fonts", "frontend", "gnu", "info", "lib", "licenses", "media", "network-services",
    "music", "picoarch", "retroarch", "samba", "share", "ssh", "standalone",
    "themes"].map String.toList

def managedRootFiles : List Text :=
  ["COMPAT_VENDOR", "MOUNT_PATH", "RUNTIME_ABI"].map String.toList ++ metadataLast

def managedConfigPrefixes : List Text :=
  ["config/frontend/apps.json",
    "config/frontend/boot-splash.png",
    "config/frontend/menus.json",
    "config/frontend/scraper-sources.tsv",
    "config/frontend/runtime-coverage.json",
    "config/frontend/start-menu-coverage.json",
    "config/frontend/systems.json",
    "config/frontend/themes.json",
    "config/standalone/"].map String.toList

def persistentPrefixes : List Text :=
  ["apps/portmaster/installed.json",
    "apps/portmaster/upstream/",
    "apps/portmaster/upstream.previous/"].map String.toList

inductive PyError where
  | updateError (message : Text)
  /-- `UpdateError(f"runtime transaction failed: {exc}")`. -/
  | transactionFailed (cause : PyError)
  | versionError (cause : VersionError)
  | osError (cause : Errno)
  | keyError (key : Text)
  | typeError
  | jsonDecodeError
  deriving DecidableEq

/-- `if bad: raise UpdateError(message)`. -/
def refuse (bad : Prop) [Decidable bad] (message : Text) : Except PyError Unit :=
  if bad then .error (.updateError message) else .ok ()

/-- `record[key]`. -/
def item {α : Type} (key : String) (value : Option α) : Except PyError α :=
  match value with
  | some a => .ok a
  | none => .error (.keyError key.toList)

def safeRelative (value : Text) : Except PyError Text := do
  refuse (value = [] ∨ isAbsolute value ∨ ['.', '.'] ∈ components value ∨ pureStr value ≠ value)
    ("unsafe payload path: ".toList ++ value)
  pure value

def managedRuntimePath (relative : Text) : Bool :=
  if relative ∈ managedRootFiles then true
  else if persistentPrefixes.any fun p => relative = p || p.isPrefixOf relative then false
  else if managedConfigPrefixes.any fun p => p.isPrefixOf relative then true
  else relative.takeWhile (· ≠ '/') ∈ managedRoots

/-! ### Manifests and archives -/

inductive EntryType where
  | file | symlink
  | other (name : Text)
  deriving DecidableEq

structure FileEntry where
  path : Text
  type : EntryType
  target : Option Text
  size : Option ℤ
  mode : Option ℕ
  sha256 : Option Text
  deriving DecidableEq

/-- A field that may be missing is an `Option`. Numbers of the ABI range are written as
texts; `int` reads either form. -/
structure Manifest where
  format : Option ℤ
  packageType : Option Text
  deviceId : Option Text
  architecture : Option Text
  vendorRuntime : Option Text
  version : Option Text
  sourceVersion : Option Text
  systemAbiMin : Option Text
  systemAbiMax : Option Text
  payloadUncompressedBytes : Option ℤ
  files : Option (List FileEntry)
  delete : List Text
  deriving DecidableEq

inductive MemberKind where
  | file (content : Text)
  | symlink (linkname : Text)
  | dir | hardlink | special
  deriving DecidableEq

structure Member where
  name : Text
  kind : MemberKind
  deriving DecidableEq

/-- A readable archive. `manifest` is what `META/manifest.json` decodes to and `signed`
says whether `META/manifest.sig` signs it. -/
structure Archive where
  members : List Member
  manifest : Option Manifest
  signed : Bool

/-- A file in the inbox; an unreadable one has no archive. -/
structure PackageFile where
  sha256 : Text
  archive : Option Archive

/-- `f"payload/{relative}"`. -/
def payloadName (relative : Text) : Text := "payload/".toList ++ relative

/-- One turn of the loop over `files` in `validate_manifest`. -/
def validateEntry (archiveNames : List Text) (declared : List Text) (entry : FileEntry) :
    Except PyError (Text × ℤ) := do
  let relative ← safeRelative entry.path
  refuse (relative ∈ declared) ("duplicate payload path: ".toList ++ relative)
  refuse (payloadName relative ∉ archiveNames) ("payload member is missing: ".toList ++ relative)
  refuse (entry.type ≠ .file ∧ entry.type ≠ .symlink)
    ("unsupported payload type: ".toList ++ relative)
  let target := entry.target.getD []
  refuse (entry.type = .symlink ∧ (isAbsolute target ∨ ['.', '.'] ∈ components target))
    ("escaping symlink is forbidden: ".toList ++ relative)
  let size := entry.size.getD (-1)
  refuse (size < 0) ("invalid payload size: ".toList ++ relative)
  pure (relative, size)

/-- The loop: the paths declared, last one first, and their sizes. -/
def validateEntries (archiveNames : List Text) : List FileEntry → List Text → ℤ →
    Except PyError (List Text × ℤ)
  | [], declared, declaredBytes => .ok (declared, declaredBytes)
  | entry :: rest, declared, declaredBytes => do
    let (relative, size) ← validateEntry archiveNames declared entry
    validateEntries archiveNames rest (relative :: declared) (declaredBytes + size)

/-- `name.removeprefix("payload/")` of the payload members nobody declared. -/
def unexpectedPayload (archiveNames declared : List Text) : List Text :=
  archiveNames.filterMap fun name =>
    if (payloadName []).isPrefixOf name ∧ name.drop (payloadName []).length ∉ declared then
      some (name.drop (payloadName []).length)
    else none

/-- `for relative in declared: …`. -/
def validateManaged : List Text → Except PyError Unit
  | [] => .ok ()
  | relative :: rest => do
    refuse (managedRuntimePath relative = false)
      ("runtime package targets persistent path: ".toList ++ relative)
    validateManaged rest

/-- `for relative in manifest.get("delete", []): …`. -/
def validateDelete (declared : List Text) : List Text → Except PyError Unit
  | [] => .ok ()
  | path :: rest => do
    let relative ← safeRelative path
    refuse (relative ∈ declared) ("payload path is also marked for deletion: ".toList ++ relative)
    refuse (managedRuntimePath relative = false)
      ("runtime package deletes persistent path: ".toList ++ relative)
    validateDelete declared rest

def validateManifest (manifest : Manifest) (archiveNames : List Text) : Except PyError Unit := do
  refuse (manifest.format ≠ some 1) "unsupported update package format".toList
  refuse (manifest.packageType ≠ some "runtime".toList)
    "Bubble currently accepts runtime update packages only".toList
  refuse (manifest.deviceId ≠ some deviceId ∨ manifest.architecture ≠ some architecture)
    "package target does not match Bubble aarch64".toList
  refuse (manifest.vendorRuntime ≠ some vendorRuntime) "vendor runtime mismatch".toList
  refuse (manifest.version = none) "manifest field is missing: version".toList
  refuse (manifest.sourceVersion = none) "manifest field is missing: source_version".toList
  refuse (manifest.payloadUncompressedBytes = none)
    "manifest field is missing: payload_uncompressed_bytes".toList
  match manifest.files with
  | none => .error (.updateError "manifest files list is missing".toList)
  | some files => do
    let (declared, declaredBytes) ← validateEntries archiveNames files [] 0
    let unexpected := unexpectedPayload archiveNames declared
    refuse (unexpected ≠ [])
      ("undeclared payload member: ".toList ++
        ((unexpected.insertionSort (· ≤ ·)).head?.getD []))
    refuse (declaredBytes ≠ manifest.payloadUncompressedBytes.getD (-1))
      "declared payload byte count mismatch".toList
    validateManaged declared
    validateDelete declared manifest.delete

/-- The checks on one archive member. -/
def checkMember (member : Member) : Except PyError Unit := do
  let _ ← safeRelative member.name
  refuse (¬ ("META/".toList.isPrefixOf member.name ∨ (payloadName []).isPrefixOf member.name))
    ("undeclared package namespace: ".toList ++ member.name)
  refuse (member.kind = .special) ("special archive member is forbidden: ".toList ++ member.name)
  refuse (member.kind = .hardlink) ("hardlinks are forbidden: ".toList ++ member.name)

def checkMembers : List Member → Except PyError Unit
  | [] => .ok ()
  | member :: rest => do
    checkMember member
    checkMembers rest

def Archive.names (archive : Archive) : List Text := archive.members.map (·.name)

/-- `load_package` on an archive that opens. -/
def loadArchive (archive : Archive) : Except PyError Manifest := do
  refuse (¬ archive.names.Nodup) "duplicate archive member is forbidden".toList
  refuse ("META/manifest.json".toList ∉ archive.names ∨ "META/manifest.sig".toList ∉ archive.names)
    "package metadata is incomplete".toList
  checkMembers archive.members
  match archive.manifest with
  | none => .error (.updateError "invalid update manifest".toList)
  | some manifest => do
    refuse (archive.signed = false) "package signature verification failed".toList
    validateManifest manifest archive.names
    pure manifest

def loadPackage (package : Option PackageFile) : Except PyError (Archive × Manifest) :=
  match package with
  | none => .error (.updateError "update package is missing".toList)
  | some file =>
    match file.archive with
    | none => .error (.updateError "cannot read update package".toList)
    | some archive => (loadArchive archive).map fun manifest => (archive, manifest)

/-! ### What the updater's files hold -/

inductive Status where
  | applying | pendingHealth | healthy | rolledBack
  deriving DecidableEq

structure Operation where
  path : Text
  existed : Bool
  installRequested : Bool
  deriving DecidableEq

structure Journal where
  status : Status
  version : Text
  packageSha256 : Text
  operations : List Operation
  deriving DecidableEq

/-- Why a transaction was rolled back. -/
inductive Reason where
  /-- "frontend readiness was not confirmed before reboot". -/
  | notConfirmed
  /-- "pending runtime update did not reach frontend readiness". -/
  | notReached
  /-- "interrupted runtime transaction". -/
  | interrupted
  /-- "transaction failed: …". -/
  | transactionFailed (cause : PyError)
  deriving DecidableEq

/-- The JSON files of `update-state`. -/
inductive Record where
  | journal (journal : Journal)
  | pending (version packageSha256 : Text)
  | request (path sha256 packageType version : Text)
  | rolledBack (reason : Reason)
  | runtimeHealthy (version : Text)
  deriving DecidableEq

inductive Content where
  | text (text : Text)
  | record (record : Record)
  deriving DecidableEq

abbrev UpdateTree := FileSystem.Tree Content

/-- Where `PLUMOS_ROOT` is. -/
structure Site where
  root : Path
  root_clean : Clean root

namespace Site

variable (site : Site)

def stateRoot : Path := site.root ++ ["update-state".toList]
def updates : Path := site.root ++ ["updates".toList]
def stagingRoot : Path := site.updates ++ ["staging".toList]
def backups : Path := site.root ++ ["backups".toList]
def backupRoot : Path := site.backups ++ ["update-previous".toList]
def backupFiles : Path := site.backupRoot ++ ["files".toList]
def requestFile : Path := site.stateRoot ++ ["request.json".toList]
def journalFile : Path := site.stateRoot ++ ["runtime-transaction.json".toList]
def runtimePending : Path := site.stateRoot ++ ["runtime-pending.json".toList]
def lastResult : Path := site.stateRoot ++ ["last-result.json".toList]

/-- The live path an operation is about. -/
def target (relative : Text) : Path := joinPath site.root relative

def backup (relative : Text) : Path := joinPath site.backupFiles relative

/-- `STAGING_ROOT / f"runtime-{version}.partial"`. -/
def staging (version : Text) : Path :=
  joinPath site.stagingRoot ("runtime-".toList ++ version ++ ".partial".toList)

end Site

/-- What one run of the updater finds: where its root is and, outside the root, its
process id, SHA-256, the text of a JSON value, the order `rmtree` visits entries in, the
free space, the packages and the System ABI. -/
structure Env extends Site where
  pid : Text
  order : RemovalOrder Content
  sha256 : Text → Text
  dumps : Record → Text
  free : ℕ
  package : Text → Option PackageFile
  underInbox : Text → Bool
  allowExternal : Bool
  systemAbi : Text

instance : Coe Env Site := ⟨Env.toSite⟩

namespace Env

variable (env : Env)

/-- The bytes of a file, as text. -/
def contentText : Content → Text
  | .text t => t
  | .record r => env.dumps r

/-- `read_text(path, default)`. -/
def readText (t : UpdateTree) (path : Path) (default : Text) : Text :=
  match t.stat path with
  | some (.file c _) => strip (env.contentText c)
  | _ => default

/-- `VERSION` as `current_compatibility` reads it. -/
def installedVersion (t : UpdateTree) : Text :=
  env.readText t (env.root ++ ["VERSION".toList]) "unknown".toList

end Env

/-- `semantic_version_key`, its exceptions among the updater's. -/
def versionKey (version : Text) : Except PyError VersionKey :=
  (semanticVersionKey version).mapError .versionError

/-- The ABI range of a package, bounds read from left to right. -/
def abiCompatible (manifest : Manifest) (systemAbi : ℤ) : Option Bool := do
  let low ← parseInt (← manifest.systemAbiMin)
  if low ≤ systemAbi then
    let high ← parseInt (← manifest.systemAbiMax)
    pure (systemAbi ≤ high)
  else pure false

def currentCompatibility (env : Env) (t : UpdateTree) (manifest : Manifest) :
    Except PyError Unit := do
  let currentVendor := env.readText t (env.root ++ ["COMPAT_VENDOR".toList]) vendorRuntime
  let packageVendor ← item "vendor_runtime" manifest.vendorRuntime
  refuse (currentVendor ≠ packageVendor) "installed vendor runtime does not match package".toList
  let currentVersion := env.installedVersion t
  let source := manifest.sourceVersion.getD ['*']
  refuse (source ≠ ['*'] ∧ source ≠ currentVersion)
    ("source version mismatch: installed=".toList ++ currentVersion ++ " required=".toList ++ source)
  let version ← item "version" manifest.version
  refuse (version = currentVersion) ("version is already installed: ".toList ++ currentVersion)
  let targetKey ← versionKey version
  let currentKey ← versionKey currentVersion
  match keyLt targetKey currentKey with
  | none => .error .typeError
  | some downgrade => do
    refuse (downgrade = true)
      ("runtime downgrade is forbidden: installed=".toList ++ currentVersion ++
        " requested=".toList ++ version)
    let runtimeAbi := env.readText t (env.root ++ ["RUNTIME_ABI".toList]) ['1']
    match parseInt env.systemAbi, parseInt runtimeAbi with
    | some systemAbi, some _ =>
      match abiCompatible manifest systemAbi with
      | none => .error (.updateError "package ABI metadata is invalid".toList)
      | some compatible =>
        refuse (compatible = false) "system ABI is outside the runtime package range".toList
    | _, _ => .error (.updateError "installed ABI metadata is invalid".toList)

end PlumosBubble.Update
