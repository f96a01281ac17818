import Mathlib.Data.List.AList
import Mathlib.Data.List.Sort
import PlumosBubble.Script.Basic
import PlumosBubble.Update.Text

/-! The PortMaster updater (`plumos_portmaster_update.py`). Its state is the directory
`APP_ROOT`: a payload is a directory there, given by the files and directories in it. Every
call of the operating system may fail with an `OSError` and change nothing, and the updater
may lose power after any of them. -/

namespace PlumosBubble.PortMaster

open Scripts
open Update (Text strip)

/-- An entry of a payload. -/
inductive Node where
  | file (text : Text) (executable : Bool)
  | dir
  deriving DecidableEq

/-- What is in a directory, by the components of its path there. -/
abbrev Files := AList fun _ : List Text => Node

/-- What the updater writes to `installed.json`. -/
structure Metadata where
  adapterVersion : ℕ
  channel : Text
  officialMd5 : Text
  officialSha256 : Text
  sourceUrl : Text
  version : Text
  deriving DecidableEq

/-- An entry of `APP_ROOT`; `json` is a file with the text of such a record. -/
inductive Item where
  | file (text : Text)
  | json (value : Metadata)
  | dir (files : Files)
  deriving DecidableEq

def portMaster : Text := "PortMaster".toList

def versionPath : List Text := [portMaster, "version".toList]

/-- The text of `PortMaster/version`, if that is a file. -/
def Files.versionText (files : Files) : Option Text :=
  match files.lookup versionPath with
  | some (.file text _) => some (strip text)
  | _ => none

/-- A payload that passed the checks of an install, with the version and the digest it was
checked against. -/
structure Payload where
  files : Files
  version : Text
  md5 : Text
  versioned : files.versionText = some version
  deriving DecidableEq

/-- `APP_ROOT`. `validated` is the record of the payloads that passed the checks so far, for
the statements only: nothing reads it. -/
structure AppRoot where
  present : Bool
  entry : AList fun _ : Text => Item
  validated : List Payload
  deriving DecidableEq

/-- How an install ends early: by `fail`, by an `OSError` or by another exception. -/
inductive Stop where
  | fail (message : String)
  | osError
  | other
  deriving DecidableEq

abbrev Py := Script AppRoot Stop

/-- A member of a zip archive. -/
structure ZipEntry where
  filename : Text
  externalAttr : ℕ
  text : Text

/-- What the standard library makes of the bytes of an archive. -/
structure Library where
  md5 : Text → Text
  sha256 : Text → Text
  unzip : Text → Option (List ZipEntry)

/-- The record of a channel in the release metadata, its fields as `str` gives them. -/
structure ReleaseFields where
  version : Text
  md5 : Text
  url : Text

/-- One `install` call with what it meets: whether `ensure_runtime_stopped` passes, the
release metadata and the bytes the transfer delivers, each unless it fails. -/
structure Call where
  channel : Text
  force : Bool
  pid : ℕ
  tempSuffix : Text
  runtimeStopped : Bool
  releaseInfo : Option (List (Text × ReleaseFields))
  delivered : Option Text

/-- What a completed install says. -/
inductive Report where
  | current
  | installed
  deriving DecidableEq

section Names

def upstream : Text := "upstream".toList
def upstreamPrevious : Text := "upstream.previous".toList
def installedJson : Text := "installed.json".toList
def downloadPrefix : Text := "portmaster-download-".toList
def nextPrefix : Text := "upstream.next.".toList
def archiveName : Text := "PortMaster.zip".toList

/-- `STALE_UPDATE_PREFIXES`. -/
def staleUpdatePrefixes : List Text := [downloadPrefix, nextPrefix]

/-- `path.name.startswith(STALE_UPDATE_PREFIXES)`. -/
def isStale (name : Text) : Bool := staleUpdatePrefixes.any fun pre => pre.isPrefixOf name

/-- A number in decimal. -/
def decimal (n : ℕ) : Text := Nat.toDigits 10 n

def Call.stage (c : Call) : Text := nextPrefix ++ decimal c.pid

def Call.temp (c : Call) : Text := downloadPrefix ++ c.tempSuffix

/-- `path.with_name(f"{path.name}.tmp.{os.getpid()}")` for `installed.json`. -/
def Call.metadataTemp (c : Call) : Text := installedJson ++ ".tmp.".toList ++ decimal c.pid

/-- `REQUIRED_FILES`. -/
def requiredFiles : List Text :=
  ["PortMaster/pugwash", "PortMaster/control.txt", "PortMaster/device_info.txt",
    "PortMaster/funcs.txt", "PortMaster/gptokeyb", "PortMaster/gptokeyb2",
    "PortMaster/version"].map String.toList

/-- `EXECUTABLE_FILES`. -/
def executableFiles : List (List Text) :=
  [[portMaster, "gptokeyb".toList], [portMaster, "gptokeyb2".toList]]

/-- `EXECUTABLE_GLOBS`. -/
def matchesExecutableGlob : List Text → Bool
  | [a, b, c, d] => a = portMaster && b = "runtimes".toList && "love_".toList.isPrefixOf c &&
      d = "love.aarch64".toList
  | _ => false

def adapterVersion : ℕ := 29

end Names

section Calls

/-- A call of the operating system: it may fail, and does where `f` has no result. -/
def os {β : Type} (f : AppRoot → Option (β × AppRoot)) : Py β := do
  let result ← Script.run fun s =>
    match f s with
    | some (b, t) => [(some b, t), (none, s)]
    | none => [(none, s)]
  match result with
  | some b => pure b
  | none => .raise .osError

/-- A call that changes `APP_ROOT`. -/
def change (f : AppRoot → Option AppRoot) : Py Unit := os fun s => (f s).map ((), ·)

/-- A call that reads it. -/
def look {β : Type} (f : AppRoot → Option β) : Py β := os fun s => (f s).map (·, s)

def AppRoot.get (s : AppRoot) (name : Text) : Option Item := s.entry.lookup name

def AppRoot.set (s : AppRoot) (name : Text) (item : Item) : AppRoot :=
  { s with entry := s.entry.insert name item }

def AppRoot.erase (s : AppRoot) (name : Text) : AppRoot :=
  { s with entry := s.entry.erase name }

/-- `path.mkdir()` and the call under `tempfile.TemporaryDirectory`. -/
def AppRoot.mkdir (s : AppRoot) (name : Text) : Option AppRoot :=
  if s.present = true ∧ s.get name = none then some (s.set name (.dir ∅)) else none

/-- `path.unlink()`. -/
def AppRoot.unlink (s : AppRoot) (name : Text) : Option AppRoot :=
  match s.get name with
  | some (.file _) | some (.json _) => some (s.erase name)
  | _ => none

/-- `os.rmdir`, of a directory that is empty. -/
def AppRoot.rmdir (s : AppRoot) (name : Text) : Option AppRoot :=
  match s.get name with
  | some (.dir files) => if files.keys = [] then some (s.erase name) else none
  | _ => none

/-- A change in a directory. -/
def AppRoot.within (s : AppRoot) (name : Text) (f : Files → Option Files) : Option AppRoot :=
  match s.get name with
  | some (.dir files) => (f files).map fun files' => s.set name (.dir files')
  | _ => none

/-- `open(path, "w")` and what is written to it. -/
def AppRoot.writeFile (s : AppRoot) (name : Text) (item : Item) : Option AppRoot :=
  match s.present, s.get name with
  | true, none | true, some (.file _) | true, some (.json _) => some (s.set name item)
  | _, _ => none

/-- `os.rename`. -/
def AppRoot.rename (s : AppRoot) (src dst : Text) : Option AppRoot :=
  match s.get src, s.get dst with
  | some item, none => some ((s.erase src).set dst item)
  | some (.dir files), some (.dir old) =>
    if old.keys = [] then some ((s.erase src).set dst (.dir files)) else none
  | some (.dir _), some _ => none
  | some item, some (.file _) | some item, some (.json _) => some ((s.erase src).set dst item)
  | _, _ => none

/-- `shutil.rmtree`: one entry after the other. -/
def rmtree (name : Text) : Py Unit := do
  let files ← look fun s =>
    match s.get name with
    | some (.dir files) => some files.keys
    | _ => none
  Script.forEach (fun path => change fun s => s.within name fun files => some (files.erase path)) files
  change (·.rmdir name)

/-- `sync_directory`. -/
def syncDirectory : Py Unit := change some

end Calls

section Files

/-- `os.mkdir` in a directory, where nothing is there yet. -/
def Files.makeDir (path : List Text) (files : Files) : Option Files :=
  match path, files.lookup path with
  | [], _ | _, some .dir => some files
  | _, none => some (files.insert path .dir)
  | _, some (.file _ _) => none

/-- `open(path, "wb")` in a directory and what is written to it. -/
def Files.write (path : List Text) (text : Text) (files : Files) : Option Files :=
  match path, files.lookup path with
  | [], _ | _, some .dir => none
  | _, _ => some (files.insert path (.file text false))

/-- `path.chmod(0o755)`. -/
def Files.enable (path : List Text) (files : Files) : Option Files :=
  match files.lookup path with
  | some (.file text _) => some (files.insert path (.file text true))
  | some .dir => some files
  | none => none

/-- The components that `ZipFile._extract_member` keeps of a name. -/
def memberPath (filename : Text) : List Text :=
  (filename.splitOn '/').filter fun part => part ≠ [] ∧ part ≠ ['.'] ∧ part ≠ ['.', '.']

/-- `ZipInfo.is_dir`. -/
def ZipEntry.isDir (e : ZipEntry) : Bool := e.filename.getLast? = some '/'

/-- What extracting one member does in the directory, call by call. -/
def memberCalls (e : ZipEntry) : List (Files → Option Files) :=
  let path := memberPath e.filename
  (path.dropLast.inits.map Files.makeDir) ++
    if e.isDir then [Files.makeDir path] else [Files.write path [], Files.write path e.text]

/-- What `enable_runtime_executables` does in the directory, call by call. -/
def enableCalls (files : Files) : List (Files → Option Files) :=
  (executableFiles ++ files.keys.filter matchesExecutableGlob).map Files.enable

/-- A list of calls in a directory, each of which has to succeed. -/
def runCalls (calls : List (Files → Option Files)) (files : Files) : Option Files :=
  calls.foldlM (fun files f => f files) files

end Files

section Install

def fail {α : Type} (message : String) : Py α := .raise (.fail message)

/-- `cleanup_stale_update_paths`. -/
def cleanupStaleUpdatePaths : Py Unit := do
  let present ← look fun s => some s.present
  if present then
    let names ← look fun s => some (s.entry.keys.insertionSort (· ≤ ·))
    let stale := names.filter isStale
    Script.forEach (fun name => Script.handle
      (do
        let isDir ← look fun s => some (match s.get name with | some (.dir _) => true | _ => false)
        if isDir then rmtree name else change (·.unlink name))
      fun stop => if stop = .osError then fail "cannot remove stale update path" else .raise stop)
      stale
    if stale = [] then pure () else syncDirectory
  else pure ()

/-- `len(md5) != 32 or any(c not in "0123456789abcdef" for c in md5)` does not hold. -/
def isMd5 (md5 : Text) : Bool :=
  md5.length = 32 && md5.all fun c => "0123456789abcdef".toList.contains c

/-- What `release_record` returns. -/
structure Release where
  version : Text
  md5 : Text
  url : Text

/-- `release_record`; `baseUrl` is `RELEASE_BASE_URL`. -/
def releaseRecord (baseUrl : Text) (c : Call) : Except Stop Release :=
  match c.releaseInfo with
  | none => .error (.fail "release metadata download failed")
  | some info =>
    match info.lookup c.channel with
    | none => .error (.fail "release channel is unavailable")
    | some fields =>
      let version := strip fields.version
      let md5 := (strip fields.md5).map Char.toLower
      let url := strip fields.url
      let url := if url = [] then baseUrl ++ ['/'] ++ version ++ "/PortMaster.zip".toList else url
      if version = [] ∨ isMd5 md5 = false then
        .error (.fail "invalid release metadata for channel")
      else .ok ⟨version, md5, url⟩

/-- `installed_version`. -/
def installedVersion (s : AppRoot) : Text :=
  let recorded := match s.get installedJson with
    | some (.json value) => strip value.version
    | _ => []
  match s.get upstream with
  | some (.dir files) => files.versionText.getD recorded
  | _ => recorded

/-- `validate_archive` on the members. -/
def validateArchive (entries : List ZipEntry) : Except Stop Unit := do
  for e in entries do
    if Update.isAbsolute e.filename ∨ ['.', '.'] ∈ e.filename.splitOn '/' ∨
        (e.externalAttr / 2 ^ 16) % 2 ^ 16 / 2 ^ 12 = 10 then
      throw (.fail "unsafe release archive entry")
  let names := entries.map fun e => e.filename.rdropWhile (· = '/')
  if (requiredFiles.filter fun name => !names.contains name) ≠ [] then
    throw (.fail "release archive is incomplete")

/-- `download`: the file is made, and filled by what the transfer delivers. -/
def download (c : Call) : Py Unit :=
  Script.handle
    (do
      change fun s => s.within c.temp (Files.write [archiveName] [])
      match c.delivered with
      | none => .raise .osError
      | some bytes => change fun s => s.within c.temp (Files.write [archiveName] bytes))
    fun stop => do
      change fun s => s.within c.temp fun files => some (files.erase [archiveName])
      if stop = .osError then fail "release archive download failed" else .raise stop

/-- `(stage / "PortMaster/version").read_text().strip()`. -/
def stagedVersion (c : Call) : Py Text := look fun s =>
  match s.get c.stage with
  | some (.dir files) => files.versionText
  | _ => none

/-- Calls in the staged directory. -/
def inStage (c : Call) (calls : List (Files → Option Files)) : Py Unit :=
  Script.forEach (fun f => change fun s => s.within c.stage f) calls

/-- The bytes of the archive that was stored. -/
def storedArchive (c : Call) : Py Text := look fun s =>
  match s.get c.temp with
  | some (.dir files) =>
    match files.lookup [archiveName] with
    | some (.file bytes _) => some bytes
    | _ => none
  | _ => none

/-- `os.sync()`, once the staged payload has passed its checks. -/
def syncStaged (c : Call) (release : Release) : Py Unit := Script.run fun s =>
  match s.get c.stage with
  | some (.dir files) =>
    if h : files.versionText = some release.version then
      [((), { s with validated := s.validated ++ [⟨files, release.version, release.md5, h⟩] })]
    else [((), s)]
  | _ => [((), s)]

/-- `if path.exists(): m`. -/
def ifExists (name : Text) (m : Py Unit) : Py Unit := do
  let there ← look fun s => some (s.get name).isSome
  if there then m else pure ()

/-- `enable_runtime_executables`. -/
def enableRuntimeExecutables (c : Call) : Py Unit := do
  let files ← look fun s =>
    match s.get c.stage with
    | some (.dir files) => some files
    | _ => none
  Script.handle (inStage c (enableCalls files)) fun stop =>
    if stop = .osError then fail "cannot enable runtime executable" else .raise stop

/-- The staged payload has to be of the release's version. -/
def checkStagedVersion (c : Call) (release : Release) : Py Unit := do
  let version ← stagedVersion c
  if version = release.version then pure ()
  else do
    rmtree c.stage
    fail "archive version mismatch"

/-- The part of `install` from the stage directory to the `os.sync()`. -/
def unpackRelease (c : Call) (release : Release) (entries : List ZipEntry) : Py Unit := do
  ifExists c.stage (rmtree c.stage)
  change (·.mkdir c.stage)
  inStage c (entries.flatMap memberCalls)
  enableRuntimeExecutables c
  checkStagedVersion c release
  syncStaged c release

/-- The part of `install` from the download to the `os.sync()`: the digests of the archive. -/
def stageRelease (lib : Library) (c : Call) (release : Release) : Py (Text × Text) := do
  download c
  let bytes ← storedArchive c
  let actualMd5 := lib.md5 bytes
  if actualMd5 = release.md5 then do
    let bytes ← storedArchive c
    let actualSha256 := lib.sha256 bytes
    match lib.unzip bytes with
    | none => .raise .other
    | some entries =>
      match validateArchive entries with
      | .error stop => .raise stop
      | .ok _ => do
        unpackRelease c release entries
        pure (actualMd5, actualSha256)
  else fail "MD5 mismatch"

/-- The part of `install` that switches the payloads. -/
def switchPayload (c : Call) : Py Unit := do
  ifExists upstreamPrevious do
    rmtree upstreamPrevious
    syncDirectory
  ifExists upstream do
    change (·.rename upstream upstreamPrevious)
    syncDirectory
  Script.handle
    (do
      change (·.rename c.stage upstream)
      syncDirectory)
    fun stop => if stop = .osError then
      fail "staged switch failed; current payload was preserved" else .raise stop

/-- `path.unlink(missing_ok=True)`. -/
def unlinkMissingOk (name : Text) : Py Unit := change fun s =>
  match s.get name with
  | none => some s
  | some _ => s.unlink name

/-- `write_json_durable` for `installed.json`. -/
def writeJsonDurable (c : Call) (value : Metadata) : Py Unit :=
  Script.handle
    (do
      change (·.writeFile c.metadataTemp (.file []))
      change (·.writeFile c.metadataTemp (.json value))
      change some
      change (·.rename c.metadataTemp installedJson)
      syncDirectory)
    fun stop => do
      unlinkMissingOk c.metadataTemp
      .raise stop

/-- What `install` does once the release is not the one installed. -/
def installRelease (lib : Library) (c : Call) (release : Release) : Py Unit := do
  let (actualMd5, actualSha256) ← stageRelease lib c release
  switchPayload c
  writeJsonDurable c
    ⟨adapterVersion, c.channel, actualMd5, actualSha256, release.url, release.version⟩

/-- `install`. -/
def install (lib : Library) (baseUrl : Text) (c : Call) : Py Report :=
  if c.runtimeStopped then do
    cleanupStaleUpdatePaths
    match releaseRecord baseUrl c with
    | .error stop => .raise stop
    | .ok release => do
      let current ← look fun s => some (installedVersion s)
      if current = release.version ∧ c.force = false then pure .current
      else do
        change fun s => some { s with present := true }
        change (·.mkdir c.temp)
        Script.andThen (installRelease lib c release) (rmtree c.temp)
        pure .installed
  else fail "close it before updating"

end Install

end PlumosBubble.PortMaster
