import Mathlib.Data.Char
import Mathlib.Data.List.Lex
import PlumosBubble.Update.Model

/-! The updater's commands as programs over the file system: `request`, `apply_pending`
with the transaction of `apply_runtime` and its rollback, and `mark_healthy`. Flushing to
the medium is no step here: every call is atomic and lasts. -/

namespace PlumosBubble.Update

open Crash FileSystem

abbrev UpdateProg (α : Type) := Prog UpdateTree PyError α

/-- File system calls raise `OSError`. -/
def os {α : Type} (m : FileProg Content α) : UpdateProg α := m.mapError .osError

/-- `atomic_json(STATE_ROOT / name, value)`. -/
def atomicJson (env : Env) (name : String) (value : Record) : UpdateProg Unit :=
  os (replaceFile env.stateRoot name.toList ('.' :: name.toList ++ ".new-".toList ++ env.pid)
    (.record value) 0o644)

/-- `json.loads(path.read_text(encoding="utf-8"))`. -/
def loadJson (path : Path) : UpdateProg Record := do
  let node ← Prog.read (·.stat path)
  Prog.lift <| match node with
    | some (.file (.record r) _) => .ok r
    | some (.file (.text _) _) => .error .jsonDecodeError
    | some _ => .error (.osError .eisdir)
    | none => .error (.osError .enoent)

/-- The journal, for its operations; only `journal_write` writes the file. -/
def loadJournal (env : Env) : UpdateProg Journal := do
  let value ← loadJson env.journalFile
  Prog.lift <| match value with
    | .journal journal => .ok journal
    | _ => .error (.keyError "operations".toList)

def journalWrite (env : Env) (journal : Journal) : UpdateProg Unit :=
  atomicJson env "runtime-transaction.json" (.journal journal)

/-- `RUNTIME_PENDING.unlink(missing_ok=True)`. -/
def unlinkPending (env : Env) : UpdateProg Unit := os (unlinkMissingOk env.runtimePending)

/-- One turn of the loop in `rollback_runtime`. -/
def rollbackOperation (env : Env) (operation : Operation) : UpdateProg Unit := do
  let relative ← Prog.lift (safeRelative operation.path)
  let target := env.target relative
  let backup := env.backup relative
  let backupExists ← Prog.read fun t => t.exists backup || t.isSymlink backup
  let targetExists ← Prog.read fun t => t.exists target || t.isSymlink target
  if operation.existed && backupExists then do
    if targetExists then os (removePath env.order target) else pure ()
    os (mkdirParents target.dropLast)
    os (Prog.step (·.rename backup target))
  else if !operation.existed && targetExists then os (removePath env.order target)
  else pure ()

def rollbackRuntime (env : Env) (reason : Reason) : UpdateProg Unit := do
  let journalIsFile ← Prog.read (·.isFile env.journalFile)
  if journalIsFile then do
    let journal ← loadJournal env
    Prog.forEach (rollbackOperation env) journal.operations.reverse
    journalWrite env { journal with status := .rolledBack }
    unlinkPending env
    atomicJson env "last-result.json" (.rolledBack reason)
  else unlinkPending env

/-! ### Applying a package -/

/-- `archive.getmember(name)`. -/
def Archive.getmember (archive : Archive) (name : Text) : Except PyError Member :=
  match archive.members.find? (·.name = name) with
  | some member => .ok member
  | none => .error (.keyError name)

/-- `sha256_file(path)`. -/
def sha256File (env : Env) (path : Path) : UpdateProg Text := do
  let node ← Prog.read (·.stat path)
  Prog.lift <| match node with
    | some (.file c _) => .ok (env.sha256 (env.contentText c))
    | some _ => .error (.osError .eisdir)
    | none => .error (.osError .enoent)

/-- The branch of `extract_payload` for a link: the SHA-256 of its target. -/
def extractSymlink (env : Env) (member : Member) (entry : FileEntry) (target : Path) :
    UpdateProg Text :=
  match member.kind with
  | .symlink linkname =>
    if some linkname = entry.target then do
      os (Prog.step (·.symlinkTo target linkname))
      pure (env.sha256 linkname)
    else Prog.raise (.updateError ("symlink metadata mismatch: ".toList ++ entry.path))
  | _ => Prog.raise (.updateError ("symlink metadata mismatch: ".toList ++ entry.path))

/-- The branch for a file: the SHA-256 of what was written. -/
def extractFile (env : Env) (member : Member) (entry : FileEntry) (target : Path) :
    UpdateProg Text :=
  match member.kind with
  | .file content => do
    let size ← Prog.lift (item "size" entry.size)
    if (byteSize content : ℤ) = size then do
      os (Prog.step (·.writeFile target (.text content) 0o644))
      let mode ← Prog.lift (item "mode" entry.mode)
      os (Prog.step (·.chmod target (mode % 0o10000)))
      sha256File env target
    else Prog.raise (.updateError ("file metadata mismatch: ".toList ++ entry.path))
  | _ => Prog.raise (.updateError ("file metadata mismatch: ".toList ++ entry.path))

/-- `if actual != entry["sha256"]: raise …`. -/
def checkStaged (entry : FileEntry) (actual : Text) : UpdateProg Unit := do
  let expected ← Prog.lift (item "sha256" entry.sha256)
  if actual = expected then pure ()
  else Prog.raise (.updateError ("staged payload hash mismatch: ".toList ++ entry.path))

/-- One turn of the loop in `extract_payload`. -/
def extractEntry (env : Env) (archive : Archive) (destination : Path) (entry : FileEntry) :
    UpdateProg Unit := do
  let member ← Prog.lift (archive.getmember (payloadName entry.path))
  os (mkdirParents (joinPath destination entry.path).dropLast)
  let actual ←
    if entry.type = .symlink then extractSymlink env member entry (joinPath destination entry.path)
    else extractFile env member entry (joinPath destination entry.path)
  checkStaged entry actual

/-- The paths in `files` are distinct: `validate_manifest` refuses duplicates. -/
def extractPayload (env : Env) (archive : Archive) (files : List FileEntry) (destination : Path) :
    UpdateProg Unit := do
  os (removePath env.order destination)
  os (mkdirParents destination)
  Prog.forEach (extractEntry env archive destination) files

/-- `(1 if path in METADATA_LAST else 0, path)`. -/
def runtimeSortKey (path : Text) : ℕ × Text := (if path ∈ metadataLast then 1 else 0, path)

/-- The order `operations.sort(key=…)` sorts by. -/
def sortsBefore (a b : Text × Bool) : Prop :=
  (runtimeSortKey a.1).1 < (runtimeSortKey b.1).1 ∨
    (runtimeSortKey a.1).1 = (runtimeSortKey b.1).1 ∧ a.1 ≤ b.1

instance : DecidableRel sortsBefore := fun a b => by unfold sortsBefore; infer_instance

/-- The sorted operations of a manifest; the flag says whether the path is installed. -/
def manifestOperations (files : List FileEntry) (delete : List Text) : List (Text × Bool) :=
  (files.map (fun entry => (entry.path, true)) ++ delete.map fun path => (path, false)).insertionSort
    sortsBefore

/-- `target.stat().st_size` of the live file, 0 for anything else. -/
def backupBytes (env : Env) (t : UpdateTree) (relative : Text) : ℕ :=
  if t.isFile (env.target relative) ∧ ¬ t.isSymlink (env.target relative) then
    match t.stat (env.target relative) with
    | some (.file c _) => byteSize (env.contentText c)
    | _ => 0
  else 0

/-- One turn of the loop that fills `journal_operations`. -/
def journalOperation (env : Env) (operation : Text × Bool) : UpdateProg Operation := do
  let relative ← Prog.lift (safeRelative operation.1)
  let target := env.target relative
  let existed ← Prog.read fun t => t.exists target || t.isSymlink target
  let replaceable ← Prog.read fun t => t.isFile target || t.isSymlink target
  if existed && !replaceable then
    Prog.raise (.updateError ("managed target is not a file or symlink: ".toList ++ relative))
  else pure ⟨relative, existed, operation.2⟩

def journalOperations (env : Env) : List (Text × Bool) → UpdateProg (List Operation)
  | [] => pure []
  | operation :: rest => do
    let first ← journalOperation env operation
    let others ← journalOperations env rest
    pure (first :: others)

/-- What `apply_runtime` has fixed when it first writes the journal. -/
structure Transaction where
  staging : Path
  version : Text
  packageSha256 : Text
  operations : List Operation
  deriving DecidableEq

def Transaction.journal (tx : Transaction) (status : Status) : Journal :=
  ⟨status, tx.version, tx.packageSha256, tx.operations⟩

/-- `apply_runtime` up to the first `journal_write`. -/
def planRuntime (env : Env) (packageSha256 : Text) (archive : Archive) (manifest : Manifest) :
    UpdateProg Transaction := do
  let version ← Prog.lift (item "version" manifest.version)
  let staging := env.staging version
  let files ← Prog.lift (item "files" manifest.files)
  let backup ← Prog.read fun t =>
    ((files.map (·.path) ++ manifest.delete).map (backupBytes env t)).sum
  let payload ← Prog.lift (item "payload_uncompressed_bytes" manifest.payloadUncompressedBytes)
  let required : ℤ := payload + backup + 64 * 1024 * 1024
  if env.free < required then
    Prog.raise (.updateError ("insufficient ext4 space: required=".toList ++ (toString required).toList))
  else do
    extractPayload env archive files staging
    let pending ← Prog.read (·.isFile env.runtimePending)
    if pending then rollbackRuntime env .notReached else pure ()
    os (removePath env.order env.backupRoot)
    os (mkdirParents env.backupRoot)
    let operations ← journalOperations env (manifestOperations files manifest.delete)
    pure ⟨staging, version, packageSha256, operations⟩

/-- One turn of the loop in `apply_runtime`. -/
def applyOperation (env : Env) (staging : Path) (operation : Operation) : UpdateProg Unit := do
  let relative := operation.path
  let target := env.target relative
  let backup := env.backup relative
  let staged := joinPath staging relative
  if operation.existed then do
    os (mkdirParents backup.dropLast)
    os (Prog.step (·.rename target backup))
  else pure ()
  if operation.installRequested then do
    os (mkdirParents target.dropLast)
    os (Prog.step (·.rename staged target))
  else pure ()

/-- The loop with its handler. -/
def applyOperations (env : Env) (tx : Transaction) : UpdateProg Unit :=
  (Prog.forEach (applyOperation env tx.staging) tx.operations).handle fun exc => do
    rollbackRuntime env (.transactionFailed exc)
    Prog.raise (.transactionFailed exc)

/-- `apply_runtime` after the loop. -/
def finishRuntime (env : Env) (tx : Transaction) : UpdateProg Unit := do
  journalWrite env (tx.journal .pendingHealth)
  atomicJson env "runtime-pending.json" (.pending tx.version tx.packageSha256)
  os (unlinkMissingOk env.requestFile)
  os (removePath env.order tx.staging)

/-- `apply_runtime` from the first `journal_write` on. -/
def commitRuntime (env : Env) (tx : Transaction) : UpdateProg ℤ := do
  journalWrite env (tx.journal .applying)
  applyOperations env tx
  finishRuntime env tx
  pure 0

def applyRuntime (env : Env) (packageSha256 : Text) (archive : Archive) (manifest : Manifest) :
    UpdateProg ℤ := do
  let tx ← planRuntime env packageSha256 archive manifest
  commitRuntime env tx

/-! ### Commands -/

def recoverPriorRuntime (env : Env) : UpdateProg Unit := do
  let pending ← Prog.read (·.isFile env.runtimePending)
  if pending then rollbackRuntime env .notConfirmed
  else do
    let journalIsFile ← Prog.read (·.isFile env.journalFile)
    if journalIsFile then do
      let value ← (loadJson env.journalFile).handle fun _ =>
        Prog.raise (.updateError "runtime transaction journal is unreadable".toList)
      match value with
      | .journal journal =>
        if journal.status = .applying then rollbackRuntime env .interrupted else pure ()
      | _ => pure ()
    else pure ()

/-- The request, as `request.json` holds it. -/
def loadRequest (env : Env) : UpdateProg (Text × Text × Text × Text) := do
  let value ← loadJson env.requestFile
  Prog.lift <| match value with
    | .request path sha256 packageType version => .ok (path, sha256, packageType, version)
    | _ => .error (.keyError "path".toList)

/-- `apply_pending` once a request is found. -/
def applyRequest (env : Env) : UpdateProg ℤ := do
  let (path, sha256, packageType, version) ← loadRequest env
  if !env.underInbox path then
    Prog.raise (.updateError "pending package moved outside update inbox".toList)
  else match env.package path with
    | none => Prog.raise (.osError .enoent)
    | some file =>
      if file.sha256 ≠ sha256 then
        Prog.raise (.updateError "pending package hash changed after request".toList)
      else do
        let (archive, manifest) ← Prog.lift (loadPackage (some file))
        let compatible ← Prog.read (currentCompatibility env · manifest)
        Prog.lift compatible
        if manifest.packageType ≠ some packageType ∨ manifest.version ≠ some version then
          Prog.raise (.updateError "pending request metadata changed".toList)
        else applyRuntime env file.sha256 archive manifest

def applyPending (env : Env) : UpdateProg ℤ := do
  os (mkdirParents env.stateRoot)
  recoverPriorRuntime env
  os (removePath env.order env.stagingRoot)
  os (mkdirParents env.stagingRoot)
  let requested ← Prog.read (·.isFile env.requestFile)
  if requested then applyRequest env else pure 0

def markHealthy (env : Env) : UpdateProg Unit := do
  let pending ← Prog.read (·.isFile env.runtimePending)
  if pending then do
    let journalIsFile ← Prog.read (·.isFile env.journalFile)
    if !journalIsFile then
      Prog.raise (.updateError "runtime health state exists without transaction journal".toList)
    else do
      let value ← loadJson env.runtimePending
      let journal ← loadJournal env
      journalWrite env { journal with status := .healthy }
      unlinkPending env
      match value with
      | .pending version _ => atomicJson env "last-result.json" (.runtimeHealthy version)
      | _ => Prog.raise (.keyError "version".toList)
  else pure ()

/-- `inspect`, without the fields that only get printed. -/
def inspect (env : Env) (path : Text) : UpdateProg Record := do
  let (_, manifest) ← Prog.lift (loadPackage (env.package path))
  let compatible ← Prog.read (currentCompatibility env · manifest)
  Prog.lift compatible
  let packageType ← Prog.lift (item "package_type" manifest.packageType)
  let version ← Prog.lift (item "version" manifest.version)
  let sha256 := ((env.package path).map (·.sha256)).getD []
  pure (.request path sha256 packageType version)

def request (env : Env) (path : Text) : UpdateProg Record := do
  if !env.allowExternal && !env.underInbox path then
    Prog.raise (.updateError "package is outside the PLUMOS updates inbox".toList)
  else do
    let value ← inspect env path
    os (mkdirParents env.stateRoot)
    atomicJson env "request.json" value
    pure value

end PlumosBubble.Update
