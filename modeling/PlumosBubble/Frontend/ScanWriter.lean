import PlumosBubble.Frontend.IndexText
import PlumosBubble.Script.Threads

/-! Runs of `plumos-library-scan` with one output. Each of them writes its index through a
buffered stream to the same temporary path and renames that to the output; the runs go on in
any order, a call at a time. -/

namespace PlumosBubble.Frontend

open Scripts

/-- A run: what its options say, and the index that it is to write. -/
structure ScanRun where
  onEnter : Bool
  thumbnailPolicy : Option Bool
  index : LibraryIndex
  times : ScanTimes

/-- `resolve_thumbnails` of `main`: what the options say, and no look-up on entering a list
where they say nothing. -/
def ScanRun.resolveThumbnails (run : ScanRun) : Bool :=
  run.thumbnailPolicy.getD !run.onEnter

/-- The whole document of a run. -/
@[irreducible] def ScanRun.document (run : ScanRun) : CString := run.index.text run.times

/-- What starts a scan of a system. -/
inductive ScanTrigger where
  | backgroundRefresh
  | romList (withThumbnails : Bool)
  | gallery
  | textUi
  deriving DecidableEq

/-- The `with_thumbnails` of `trigger_rom_scan_refresh`, of `load_rom_entries` and of
`open_gallery_screen`; `plumos-text-ui` has no such option. -/
def ScanTrigger.withThumbnails : ScanTrigger → Bool
  | .backgroundRefresh => false
  | .romList withThumbnails => withThumbnails
  | .gallery => true
  | .textUi => false

/-- The run that `run_scanner` or `start_scanner_process` starts. -/
def ScanTrigger.run (trigger : ScanTrigger) (index : LibraryIndex) (times : ScanTimes) :
    ScanRun where
  onEnter := true
  thumbnailPolicy := if trigger.withThumbnails then some true else none
  index := index
  times := times

/-- A file opened for writing, and what the stream has not written yet. -/
structure Stream where
  fd : ℕ
  position : ℕ
  buffer : CString

/-- `pwrite`: a gap is filled with NUL bytes. -/
def pwrite (text : CString) (position : ℕ) (data : CString) : CString :=
  (text ++ List.replicate (position - text.length) 0).take position ++ data ++
    text.drop (position + data.length)

/-- The two names in the directory, the files by number, and of each run how far it is.
`started` and `placed` are records that no run reads: the runs in the order of their starts,
and the renames onto the output with what they put there, the newest first. -/
structure ScanFiles where
  cache : Option ℕ
  temp : Option ℕ
  next : ℕ
  text : ℕ → CString
  writing : ℕ → Bool
  streamError : ℕ → Bool
  unsynced : ℕ → Bool
  status : ℕ → Option Bool
  started : List ℕ
  placed : List (ℕ × CString)

namespace ScanFiles

/-- What the output holds. -/
def cacheText (s : ScanFiles) : Option CString := s.cache.map s.text

/-- `open(tmp_path, O_WRONLY | O_CREAT | O_TRUNC)`: the file. -/
def tempFile (s : ScanFiles) : ℕ := s.temp.getD s.next

/-- `open(tmp_path, O_WRONLY | O_CREAT | O_TRUNC)` of a run. -/
def openTemp (s : ScanFiles) (i : ℕ) : ScanFiles :=
  { s with
    temp := some s.tempFile
    next := if s.temp = none then s.next + 1 else s.next
    text := Function.update s.text s.tempFile []
    writing := Function.update s.writing i true
    streamError := Function.update s.streamError i false }

def write (s : ScanFiles) (stream : Stream) : ScanFiles :=
  { s with
    text := Function.update s.text stream.fd
      (pwrite (s.text stream.fd) stream.position stream.buffer) }

def setStreamError (s : ScanFiles) (i : ℕ) : ScanFiles :=
  { s with streamError := Function.update s.streamError i true }

def unlinkTemp (s : ScanFiles) : ScanFiles := { s with temp := none }

/-- The run is done with the temporary path. -/
def leave (s : ScanFiles) (i : ℕ) : ScanFiles :=
  { s with writing := Function.update s.writing i false }

/-- `rename(tmp_path, output_path)`. -/
def place (s : ScanFiles) (i fd : ℕ) : ScanFiles :=
  { s with
    cache := some fd
    temp := none
    placed := (i, s.text fd) :: s.placed }

def setUnsynced (s : ScanFiles) (i : ℕ) : ScanFiles :=
  { s with unsynced := Function.update s.unsynced i true }

def start (s : ScanFiles) (i : ℕ) : ScanFiles := { s with started := s.started ++ [i] }

def exit (s : ScanFiles) (i : ℕ) (ok : Bool) : ScanFiles :=
  { s with status := Function.update s.status i (some ok) }

/-- The runs that were started before run `i`. -/
def startedBefore (s : ScanFiles) (i : ℕ) : List ℕ := s.started.takeWhile (· ≠ i)

end ScanFiles

abbrev Scanning (α : Type) : Type 1 := Script ScanFiles Empty α

section Calls

/-- A call that works or fails, and changes no file either way. -/
def mayFail : Scanning Bool := Script.run fun s => [(true, s), (false, s)]

/-- `fopen(tmp_path, "wb")`. -/
def fopenTemp (i : ℕ) : Scanning (Option Stream) :=
  Script.run fun s => [(some ⟨s.tempFile, 0, []⟩, s.openTemp i), (none, s)]

/-- One byte is printed: it stays in the buffer, or the buffer is written, or that write fails
and what was in the buffer is lost. -/
def fputc (i : ℕ) (stream : Stream) (c : UInt8) : Scanning Stream :=
  let full := { stream with buffer := stream.buffer ++ [c] }
  Script.run fun s =>
    [(full, s),
      ({ full with position := full.position + full.buffer.length, buffer := [] }, s.write full),
      ({ full with buffer := [] }, s.setStreamError i)]

/-- The calls of `fprintf`, `fputs` and `fputc` for a text. -/
def fprint (i : ℕ) : CString → Stream → Scanning Stream
  | [], stream => pure stream
  | c :: rest, stream => do
    let stream ← fputc i stream c
    fprint i rest stream

/-- `fflush`, which says whether this write failed, not whether one before it did. -/
def fflush (i : ℕ) (stream : Stream) : Scanning Bool :=
  Script.run fun s =>
    if stream.buffer = [] then [(true, s)]
    else [(true, s.write stream), (false, s.setStreamError i)]

/-- `unlink(tmp_path)`, whose result nobody reads. -/
def unlinkTemp (i : ℕ) : Scanning Unit :=
  Script.run fun s => [((), s.unlinkTemp.leave i), ((), s.leave i)]

/-- `rename(tmp_path, output_path)`, which fails where there is no temporary file. -/
def renameTemp (i : ℕ) : Scanning Bool :=
  Script.run fun s =>
    match s.temp with
    | some fd => [(true, (s.place i fd).leave i), (false, s)]
    | none => [(false, s)]

/-- `sync_parent_dir`. -/
def syncParentDir (i : ℕ) : Scanning Bool :=
  Script.run fun s => [(true, s), (false, s.setUnsynced i)]

end Calls

section Program

/-- `unlink(tmp_path); return 0;` -/
def giveUp (i : ℕ) : Scanning Bool := do
  unlinkTemp i
  pure false

/-- What follows the `rename`. -/
def afterRename (i : ℕ) (renamed : Bool) : Scanning Bool :=
  if renamed then syncParentDir i else giveUp i

/-- What follows `fclose`. -/
def install (i : ℕ) (writeOk : Bool) : Scanning Bool :=
  if writeOk then do
    let renamed ← renameTemp i
    afterRename i renamed
  else giveUp i

/-- `fsync`, which is not tried where `fflush` failed. -/
def syncAfter (flushed : Bool) : Scanning Bool := if flushed then mayFail else pure false

/-- The part of `write_library_index` behind a successful `fopen`. -/
def writeStream (i : ℕ) (document : CString) (stream : Stream) : Scanning Bool := do
  let stream ← fprint i document stream
  let flushed ← fflush i stream
  let synced ← syncAfter flushed
  let closed ← mayFail
  install i (synced && closed)

def afterOpen (i : ℕ) (document : CString) : Option Stream → Scanning Bool
  | some stream => writeStream i document stream
  | none => pure false

/-- `write_library_index` with its paths and the directory made. -/
def openAndWrite (i : ℕ) (document : CString) (ready : Bool) : Scanning Bool :=
  if ready then do
    let stream ← fopenTemp i
    afterOpen i document stream
  else pure false

/-- `write_library_index`. -/
def writeIndexFile (i : ℕ) (document : CString) : Scanning Bool := do
  let ready ← mayFail
  openAndWrite i document ready

/-- `main` behind `load_systems` and `load_scan_excluded_directories`. -/
def scanAndWrite (i : ℕ) (document : CString) (loaded : Bool) : Scanning Bool :=
  if loaded then writeIndexFile i document else pure false

def start (i : ℕ) : Scanning Unit := Script.run fun s => [((), s.start i)]

def exit (i : ℕ) (ok : Bool) : Scanning Unit := Script.run fun s => [((), s.exit i ok)]

/-- `main`, from its start to the exit status that its caller gets. -/
def scanMain (i : ℕ) (document : CString) : Scanning Unit := do
  start i
  let loaded ← mayFail
  let ok ← scanAndWrite i document loaded
  exit i ok

end Program

/-- Any number of runs, none of them begun. -/
def scans (runs : ℕ → ScanRun) (s : ScanFiles) : Pool ℕ ScanFiles Empty Unit :=
  ⟨s, fun i => scanMain i (runs i).document⟩

/-- No run has begun, and there is no list yet. A temporary file may be left from earlier. -/
structure Untouched (s : ScanFiles) : Prop where
  cache : s.cache = none
  temp : ∀ fd, s.temp = some fd → fd < s.next
  writing : ∀ i, s.writing i = false
  unsynced : ∀ i, s.unsynced i = false
  status : ∀ i, s.status i = none
  started : s.started = []
  placed : s.placed = []

/-- The list in place is what the newest rename put there, a whole document; the exit status
says what a run has done; and no run replaces the result of one with thumbnails that was
started later and has succeeded. -/
structure Intact (runs : ℕ → ScanRun) (s : ScanFiles) : Prop where
  inPlace : s.cacheText = s.placed.head?.map Prod.snd
  complete : ∀ e ∈ s.placed, e.2 = (runs e.1).document
  succeeded : ∀ i, s.status i = some true → (i, (runs i).document) ∈ s.placed
  failed : ∀ i, s.status i = some false → ∀ e ∈ s.placed, e.1 ≠ i
  kept : ∀ newer e older, s.placed = newer ++ e :: older → (runs e.1).resolveThumbnails = true →
    s.status e.1 = some true → ∀ e' ∈ newer, e'.1 ∉ s.startedBefore e.1

/-- The steps that keep the list intact: nobody opens the temporary path while another run is
using it; a run renames only if none of its writes failed, and a run with thumbnails only if
those that were started before it have ended; and the directory is synced. -/
structure OneWriter (runs : ℕ → ScanRun) (i : ℕ) (s t : ScanFiles) : Prop where
  alone : s.writing i = false → t.writing i = true → ∀ j, s.writing j = false
  written : t.placed ≠ s.placed → s.streamError i = false
  last : t.placed ≠ s.placed → (runs i).resolveThumbnails = true →
    ∀ j ∈ s.startedBefore i, s.status j ≠ none
  synced : t.unsynced i = false

end PlumosBubble.Frontend
