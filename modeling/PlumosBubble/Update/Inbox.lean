import Mathlib.Algebra.Order.Floor.Defs
import Mathlib.Data.Rat.Floor
import PlumosBubble.Script.Escapes
import PlumosBubble.Update.Model

/-! The packages in the update inbox as `scan_packages` finds them: a file may fail to be read in
any way, and a manifest may be any JSON value. What raises is told apart by its class, since the
scan goes on after an `UpdateError` only. -/

namespace PlumosBubble.Update.Inbox

/-- The class of an exception. -/
inductive ExceptionClass where
  | updateError | tarError | osError | eofError | zlibError
  | unicodeDecodeError | jsonDecodeError | valueError
  | typeError | attributeError | keyError | overflowError | recursionError
  deriving DecidableEq

/-- An exception, with `str(exc)`. What the language itself raises has no text here. -/
structure Raised where
  type : ExceptionClass
  text : Text
  deriving DecidableEq

abbrev Outcome (α : Type) := Except Raised α

/-- `if bad: raise UpdateError(message)`. -/
def check (bad : Prop) [Decidable bad] (message : Text) : Outcome Unit :=
  if bad then .error ⟨.updateError, message⟩ else .ok ()

/-- The class of what the checks of the updater raise. -/
def VersionError.raised : VersionError → Raised
  | .notComparable version =>
    ⟨.updateError, "version is not comparable semantic version: ".toList ++ version⟩
  | .invalidPrerelease version =>
    ⟨.updateError, "invalid semantic version prerelease: ".toList ++ version⟩
  | .tooManyDigits => ⟨.valueError, []⟩

def raised : PyError → Raised
  | .updateError message => ⟨.updateError, message⟩
  | .transactionFailed _ => ⟨.updateError, "runtime transaction failed".toList⟩
  | .versionError cause => VersionError.raised cause
  | .osError _ => ⟨.osError, []⟩
  | .keyError key => ⟨.keyError, key⟩
  | .typeError => ⟨.typeError, []⟩
  | .jsonDecodeError => ⟨.jsonDecodeError, []⟩

def lift {α : Type} (x : Except PyError α) : Outcome α := x.mapError raised

/-! ### JSON values -/

/-- A `float`. -/
inductive PyFloat where
  | finite (q : ℚ)
  | infinite (negative : Bool)
  | nan

inductive Json where
  | null
  | bool (b : Bool)
  | int (n : ℤ)
  | float (x : PyFloat)
  | str (t : Text)
  | list (items : List Json)
  | dict (fields : List (Text × Json))

/-- `str` of what is not a string, and `int` of a string, which fails with a `ValueError`. -/
structure Builtins where
  strOf : Json → Text
  intOfText : Text → Option ℤ

namespace Builtins

variable (py : Builtins)

/-- `str(value)`. -/
def str : Json → Text
  | .str t => t
  | value => py.strOf value

/-- `int(value)`. -/
def int : Json → Outcome ℤ
  | .int n => .ok n
  | .bool b => .ok b.toNat
  | .float (.finite q) => .ok (if 0 ≤ q then ⌊q⌋ else ⌈q⌉)
  | .float (.infinite _) => .error ⟨.overflowError, []⟩
  | .float .nan => .error ⟨.valueError, []⟩
  | .str t =>
    match py.intOfText t with
    | some n => .ok n
    | none => .error ⟨.valueError, []⟩
  | .null | .list _ | .dict _ => .error ⟨.typeError, []⟩

end Builtins

abbrev Fields := List (Text × Json)

/-- `fields.get(key)`; of a key that is given twice the last value counts. -/
def field (fields : Fields) (key : String) : Option Json :=
  fields.reverse.lookup key.toList

/-- `value == 1`. -/
def isOne : Option Json → Bool
  | some (.int n) => n = 1
  | some (.bool b) => b
  | some (.float (.finite q)) => q = 1
  | _ => false

/-- `value == text`. -/
def isText (text : Text) : Option Json → Bool
  | some (.str t) => t = text
  | _ => false

/-- `bool(value)`. -/
def truthy : Json → Bool
  | .null => false
  | .bool b => b
  | .int n => n ≠ 0
  | .float (.finite q) => q ≠ 0
  | .float _ => true
  | .str t => t ≠ []
  | .list items => items.length ≠ 0
  | .dict fields => fields.length ≠ 0

/-! ### `validate_manifest` -/

/-- The checks up to the fields that must be there. -/
def checkHeader (fields : Fields) : Outcome Unit := do
  check (¬isOne (field fields "format")) "unsupported update package format".toList
  check (¬isText "runtime".toList (field fields "package_type"))
    "Bubble currently accepts runtime update packages only".toList
  check (¬isText deviceId (field fields "device_id") ∨
      ¬isText architecture (field fields "architecture"))
    "package target does not match Bubble aarch64".toList
  check (¬isText vendorRuntime (field fields "vendor_runtime")) "vendor runtime mismatch".toList
  check ((field fields "version").isNone) "manifest field is missing: version".toList
  check ((field fields "source_version").isNone) "manifest field is missing: source_version".toList
  check ((field fields "payload_uncompressed_bytes").isNone)
    "manifest field is missing: payload_uncompressed_bytes".toList

/-- `entry.get("type")` in the set of types; what cannot be hashed raises. -/
def entryType (relative : Text) : Option Json → Outcome EntryType
  | some (.list _) | some (.dict _) => .error ⟨.typeError, []⟩
  | some (.str t) =>
    if t = "file".toList then .ok .file
    else if t = "symlink".toList then .ok .symlink
    else .error ⟨.updateError, "unsupported payload type: ".toList ++ relative⟩
  | _ => .error ⟨.updateError, "unsupported payload type: ".toList ++ relative⟩

variable (py : Builtins)

/-- The path of an entry. -/
def entryPath (archiveNames declared : List Text) (fields : Fields) : Outcome Text := do
  let relative ← lift (safeRelative (py.str ((field fields "path").getD (.str []))))
  check (relative ∈ declared) ("duplicate payload path: ".toList ++ relative)
  check (payloadName relative ∉ archiveNames) ("payload member is missing: ".toList ++ relative)
  pure relative

/-- The target of a symlink. -/
def checkTarget (relative : Text) (fields : Fields) (type : EntryType) : Outcome Unit :=
  let target := py.str ((field fields "target").getD (.str []))
  check (type = .symlink ∧ (isAbsolute target ∨ ['.', '.'] ∈ FileSystem.components target))
    ("escaping symlink is forbidden: ".toList ++ relative)

/-- One turn of the loop over `files`. -/
def validateEntry (archiveNames declared : List Text) : Json → Outcome (Text × ℤ)
  | .dict fields => do
    let relative ← entryPath py archiveNames declared fields
    let type ← entryType relative (field fields "type")
    checkTarget py relative fields type
    let size ← py.int ((field fields "size").getD (.int (-1)))
    check (size < 0) ("invalid payload size: ".toList ++ relative)
    pure (relative, size)
  | _ => .error ⟨.updateError, "invalid file manifest entry".toList⟩

/-- The loop: the paths declared, last one first, and their sizes. -/
def validateEntries (archiveNames : List Text) : List Json → List Text → ℤ →
    Outcome (List Text × ℤ)
  | [], declared, declaredBytes => .ok (declared, declaredBytes)
  | entry :: rest, declared, declaredBytes => do
    let (relative, size) ← validateEntry py archiveNames declared entry
    validateEntries archiveNames rest (relative :: declared) (declaredBytes + size)

/-- What the loop over `manifest.get("delete", [])` goes through. -/
def deleteItems : Option Json → Outcome (List Json)
  | none => .ok []
  | some (.list items) => .ok items
  | some (.dict fields) => .ok ((fields.map Prod.fst).eraseDups.map .str)
  | some (.str t) => .ok (t.map fun c => .str [c])
  | some _ => .error ⟨.typeError, []⟩

/-- `manifest["files"]`. -/
def fileEntries (fields : Fields) : Outcome (List Json) :=
  match field fields "files" with
  | some (.list items) => .ok items
  | _ => .error ⟨.updateError, "manifest files list is missing".toList⟩

/-- The declared paths and bytes, once the entries are checked. -/
def declaredPayload (archiveNames : List Text) (fields : Fields) : Outcome (List Text × ℤ) := do
  checkHeader fields
  let files ← fileEntries fields
  let (declared, declaredBytes) ← validateEntries py archiveNames files [] 0
  let unexpected := unexpectedPayload archiveNames declared
  check (unexpected ≠ [])
    ("undeclared payload member: ".toList ++ ((unexpected.insertionSort (· ≤ ·)).head?.getD []))
  pure (declared, declaredBytes)

/-- The checks on the total and on where the paths are. -/
def checkDeclared (fields : Fields) (declared : List Text) (declaredBytes : ℤ) : Outcome Unit := do
  let total ← py.int ((field fields "payload_uncompressed_bytes").getD (.int (-1)))
  check (declaredBytes ≠ total) "declared payload byte count mismatch".toList
  lift (validateManaged declared)

/-- `validate_manifest`. -/
def validateManifest (archiveNames : List Text) : Json → Outcome Fields
  | .dict fields => do
    let (declared, declaredBytes) ← declaredPayload py archiveNames fields
    checkDeclared py fields declared declaredBytes
    let items ← deleteItems (field fields "delete")
    lift (validateDelete declared (items.map py.str))
    pure fields
  | _ => .error ⟨.attributeError, []⟩

/-! ### `load_package` -/

/-- A file of the inbox, by what the libraries and the system make of it: the members of the
archive, a handle on a member with what reading it gives, the digest and `st_mtime_ns`. -/
structure InboxFile where
  path : Text
  isFile : Bool
  members : Outcome (List Member)
  extractfile : Text → Outcome (Option (Outcome (List UInt8)))
  sha256 : Outcome Text
  mtime : Option ℤ

/-- `path.stat().st_mtime_ns`. -/
def InboxFile.stat (file : InboxFile) : Outcome ℤ :=
  match file.mtime with
  | some mtime => .ok mtime
  | none => .error ⟨.osError, []⟩

/-- What the updater finds besides: `json.loads`, whether unsigned packages are allowed, the
public key, and whether `openssl` accepts a signature, if it can be run. -/
structure Station where
  py : Builtins
  loads : List UInt8 → Outcome Json
  allowUnsigned : Bool
  publicKey : Bool
  publicKeyPath : Text
  openssl : List UInt8 → List UInt8 → Outcome Bool
  compatVendor : Text
  version : Text
  systemAbi : Text
  runtimeAbi : Text
  allowExternal : Bool
  underInbox : Text → Bool

/-- `except kinds as exc: raise UpdateError(f"{message}{exc}")`. -/
def wrap {α : Type} (kinds : List ExceptionClass) (message : String) (x : Outcome α) : Outcome α :=
  x.mapError fun e =>
    if e.type ∈ kinds then ⟨.updateError, message.toList ++ e.text⟩ else e

def metaManifest : Text := "META/manifest.json".toList
def metaSignature : Text := "META/manifest.sig".toList

/-- The checks on the members of an archive. -/
def checkArchive (members : List Member) : Outcome Unit := do
  let names := members.map fun member => member.name
  check (¬names.Nodup) "duplicate archive member is forbidden".toList
  check (metaManifest ∉ names ∨ metaSignature ∉ names) "package metadata is incomplete".toList
  lift (checkMembers members)

/-- The names in the archive, the manifest and its signature. -/
def readArchive (file : InboxFile) : Outcome (List Text × List UInt8 × List UInt8) := do
  let members ← file.members
  checkArchive members
  let manifestHandle ← file.extractfile metaManifest
  let signatureHandle ← file.extractfile metaSignature
  match manifestHandle, signatureHandle with
  | some readManifest, some readSignature => do
    let manifestBytes ← readManifest
    let signature ← readSignature
    pure (members.map fun member => member.name, manifestBytes, signature)
  | _, _ => .error ⟨.updateError, "cannot read package metadata".toList⟩

/-- `b"UNSIGNED-DEVELOPMENT-PACKAGE"`. -/
def unsignedMark : List UInt8 := "UNSIGNED-DEVELOPMENT-PACKAGE".toByteArray.data.toList

variable (station : Station)

/-- `verify_signature`. -/
def verifySignature (manifestBytes signature : List UInt8) : Outcome Unit :=
  if unsignedMark <+: signature then
    check (station.allowUnsigned = false) "unsigned development package is not allowed".toList
  else do
    check (station.publicKey = false)
      ("update public key is missing: ".toList ++ station.publicKeyPath)
    let accepted ← station.openssl manifestBytes signature
    check (accepted = false) "package signature verification failed".toList

/-- `load_package`. -/
def loadPackage (file : InboxFile) : Outcome Fields := do
  check (file.isFile = false) ("update package is missing: ".toList ++ file.path)
  let (names, manifestBytes, signature) ←
    wrap [.tarError, .osError] "cannot read update package: " (readArchive file)
  let manifest ←
    wrap [.unicodeDecodeError, .jsonDecodeError] "invalid update manifest: "
      (station.loads manifestBytes)
  verifySignature station manifestBytes signature
  validateManifest station.py names manifest

/-! ### `current_compatibility` -/

/-- `record[key]`. -/
def subscript (fields : Fields) (key : String) : Outcome Json :=
  match field fields key with
  | some value => .ok value
  | none => .error ⟨.keyError, key.toList⟩

/-- The checks before the versions are compared; the version of the package. -/
def checkSource (fields : Fields) : Outcome Text := do
  let vendor ← subscript fields "vendor_runtime"
  check (¬isText station.compatVendor (some vendor))
    "installed vendor runtime does not match package".toList
  let source := station.py.str ((field fields "source_version").getD (.str ['*']))
  check (source ≠ ['*'] ∧ source ≠ station.version)
    ("source version mismatch: installed=".toList ++ station.version ++
      " required=".toList ++ source)
  check (station.py.str ((field fields "version").getD .null) = station.version)
    ("version is already installed: ".toList ++ station.version)
  let version ← subscript fields "version"
  pure (station.py.str version)

/-- The comparison with the installed version. -/
def compareVersions (version : Text) : Outcome Unit := do
  let targetKey ← lift (versionKey version)
  let currentKey ← lift (versionKey station.version)
  match keyLt targetKey currentKey with
  | none => .error ⟨.typeError, []⟩
  | some downgrade =>
    check (downgrade = true)
      ("runtime downgrade is forbidden: installed=".toList ++ station.version ++
        " requested=".toList ++ version)

/-- The ABI range of a package, bounds read from left to right. -/
def abiCompatible (fields : Fields) (systemAbi : ℤ) : Outcome Bool := do
  let low ← station.py.int (← subscript fields "system_abi_min")
  if low ≤ systemAbi then do
    let high ← station.py.int (← subscript fields "system_abi_max")
    pure (systemAbi ≤ high)
  else pure false

/-- `current_compatibility`. -/
def currentCompatibility (fields : Fields) : Outcome Unit := do
  let version ← checkSource station fields
  compareVersions station version
  match station.py.intOfText station.systemAbi, station.py.intOfText station.runtimeAbi with
  | some systemAbi, some _ => do
    let compatible ←
      (abiCompatible station fields systemAbi).mapError fun e =>
        if e.type ∈ [.keyError, .typeError, .valueError] then
          ⟨.updateError, "package ABI metadata is invalid".toList⟩
        else e
    check (compatible = false) "system ABI is outside the runtime package range".toList
  | _, _ => .error ⟨.updateError, "installed ABI metadata is invalid".toList⟩

/-! ### The scan -/

/-- What `inspect` returns. -/
structure Item where
  path : Text
  sha256 : Text
  packageType : Json
  version : Json
  sourceVersion : Json
  payloadUncompressedBytes : Json

/-- `inspect`. -/
def inspect (file : InboxFile) : Outcome Item := do
  let fields ← loadPackage station file
  currentCompatibility station fields
  let sha256 ← file.sha256
  let packageType ← subscript fields "package_type"
  let version ← subscript fields "version"
  let payloadUncompressedBytes ← subscript fields "payload_uncompressed_bytes"
  pure {
    path := file.path
    sha256
    packageType
    version
    sourceVersion := (field fields "source_version").getD (.str ['*'])
    payloadUncompressedBytes }

/-- A record of `scan_packages`. -/
inductive PackageRecord where
  | package (item : Item) (mtime : ℤ)
  | invalid (path error : Text) (mtime : ℤ)

/-- One turn of the loop of `scan_packages`. -/
def scanFile (file : InboxFile) : Outcome PackageRecord :=
  match inspect station file with
  | .ok item => file.stat.map fun mtime => .package item mtime
  | .error e =>
    if e.type = .updateError then
      file.stat.map fun mtime => .invalid file.path e.text mtime
    else .error e

/-- `sorted(inbox.glob(…))`. -/
def sortedFiles (files : List InboxFile) : List InboxFile :=
  files.mergeSort fun a b => a.path ≤ b.path

/-- `scan_packages`. -/
def scanPackages (files : List InboxFile) : Outcome (List PackageRecord) :=
  (sortedFiles files).mapM (scanFile station)

/-- A record with a package type, and its time. -/
def PackageRecord.candidate : PackageRecord → Option (Item × ℤ)
  | .package item mtime => if truthy item.packageType then some (item, mtime) else none
  | .invalid _ _ _ => none

/-- `max(candidates, key=…)`: the first of those with the latest time. -/
def newestOf : List (Item × ℤ) → Option (Item × ℤ)
  | [] => none
  | candidate :: rest =>
    match newestOf rest with
    | none => some candidate
    | some newest => if candidate.2 < newest.2 then some newest else some candidate

/-- The path that `request_latest` passes to `request`. -/
def latestPath (records : List PackageRecord) : Outcome Text :=
  match newestOf (records.filterMap PackageRecord.candidate) with
  | none => .error ⟨.updateError, "no compatible update package found".toList⟩
  | some (item, _) => .ok item.path

/-- `request`, up to what it writes. -/
def request (file : InboxFile) : Outcome Item := do
  check (station.allowExternal = false ∧ station.underInbox file.path = false)
    "package is outside the PLUMOS updates inbox".toList
  inspect station file

/-- `request_latest`. -/
def requestLatest (files : List InboxFile) : Outcome Item := do
  let records ← scanPackages station files
  let path ← latestPath records
  match files.find? fun file => file.path = path with
  | some file => request station file
  | none => .error ⟨.updateError, "update package is missing: ".toList ++ path⟩

end PlumosBubble.Update.Inbox
