import Mathlib.Data.Fin.VecNotation
import PlumosBubble.Scraper.Names
import PlumosBubble.Sequence.Consume

/-! The CRC stage of `plumos-thumbnail-scraper`: the queue is dealt to workers, and each looks up
the CRC of its ROMs in the index files of their systems. The files of a system are found once and
kept in shell variables. `awk` with an empty file name reads its standard input, and in the loop of
a worker this is the queue. -/

namespace PlumosBubble.Scraper

open Frontend

/-- A line of a queue, as `read` splits it. -/
structure QueueLine where
  aliasDir : CString
  romPath : CString
  imageDirName : CString
  deriving DecidableEq

/-- What the workers of a fetch find and none of them changes. -/
structure Around (Payload : Type) where
  fetchSystemId : CString
  extensions : List CString
  imageRoot : CString
  preloadDir : CString
  cacheDir : CString
  kind : CString
  /-- The lines of `SOURCES_TSV`: a system, its playlist and the path of its DAT file. -/
  sources : List (CString × CString × CString)
  /-- The names that `unzip -lq` lists. -/
  members : CString → List CString
  /-- `unzip -p` of a member, and of all, if something comes out. -/
  unzipMember : CString → CString → Option Payload
  unzipAll : CString → Option Payload
  /-- What a file that is no archive holds. -/
  contents : CString → Payload
  /-- `compute_payload_crc32`, empty if it fails. -/
  computePayloadCrc32 : CString → Payload → CString
  /-- `[ -s file ]`. -/
  hasBytes : CString → Bool
  /-- The first two fields of the lines of an index file. -/
  rows : CString → List (CString × CString)
  /-- The address can be fetched, and an index be made of what comes. -/
  fetches : CString → Bool
  /-- `==` of two fields in `awk`, which takes two numbers as numbers. -/
  same : CString → CString → Bool
  /-- What `awk` leaves of its standard input when it exits at a line: it has read ahead. -/
  left : List QueueLine → List QueueLine
  left_length : ∀ lines, (left lines).length ≤ lines.length

/-- The variables of a worker that outlive a ROM: the index files, and whose they should be. -/
structure Indexes where
  dat : CString
  thumb : CString
  rescue : CString
  base : CString
  deriving DecidableEq

structure Cache where
  ready : Bool
  system : CString
  indexes : Indexes
  failed : List CString

def Cache.fresh : Cache := ⟨false, [], ⟨[], [], [], []⟩, []⟩

/-- The eleven counts of a line of the result file. -/
abbrev Row := Fin 11 → ℕ

/-- A line of the download queue. -/
structure Candidate where
  lookupSystem : CString
  href : CString
  dest : CString
  relStem : CString
  deriving DecidableEq

/-- What a worker writes for a line of its queue. -/
structure Outcome where
  row : Option Row
  candidate : Option Candidate

/-- What the lookups for a CRC give. -/
structure Found where
  crcMatched : Bool
  noMatch : Bool
  crcMiss : Bool
  thumbnailMiss : Bool
  thumbnailRescued : Bool
  externalRescued : Bool
  href : CString

def Found.row (found : Found) (single : Bool) : Row :=
  ![1, found.crcMatched.toNat, found.noMatch.toNat, found.crcMiss.toNat,
    found.thumbnailMiss.toNat, 0, 0, found.thumbnailRescued.toNat, found.externalRescued.toNat,
    single.toNat, if found.href = [] then 0 else 1]

/-- The line for a ROM with an extension that the system does not list. -/
def emptyRow : Row := ![0, 0, 0, 0, 0, 0, 0, 0, 0, 0, 0]

def skippedZipRow : Row := ![0, 0, 0, 0, 0, 1, 0, 0, 0, 0, 0]

def skippedToolRow (single : Bool) : Row := ![0, 0, 0, 0, 0, 0, 1, 0, 0, single.toNat, 0]

variable {Payload : Type}

namespace Around

variable (a : Around Payload)

def indexPath (root kind file : CString) : CString :=
  root ++ [slash] ++ kind ++ [slash] ++ file

def source (system : CString) : Option (CString × CString) :=
  (a.sources.find? fun line => a.same line.1 system).map (·.2)

/-- `source_playlist`. -/
def sourcePlaylist (system : CString) : CString := ((a.source system).map (·.1)).getD []

/-- `space_encode`. -/
def spaceEncode (text : CString) : CString :=
  text.flatMap fun c => if c = 0x20 then lit "%20" else [c]

/-- `dat_source_url`. -/
def datSourceUrl (system : CString) : CString :=
  let path := ((a.source system).map (·.2)).getD []
  if path = [] then []
  else lit "https://raw.githubusercontent.com/libretro/libretro-database/master/" ++
    spaceEncode path

/-- `thumb_base_url`. -/
def thumbBaseUrl (system : CString) : CString :=
  if a.sourcePlaylist system = [] then []
  else lit "https://thumbnails.libretro.com/" ++ spaceEncode (a.sourcePlaylist system) ++
    [slash] ++ a.kind

/-- `ensure_dat_index`. -/
def ensureDatIndex (system : CString) : CString :=
  let preloaded := indexPath a.preloadDir (lit "dat") (system ++ lit ".crc.tsv")
  let cached := indexPath a.cacheDir (lit "dat") (system ++ lit ".crc.tsv")
  if a.hasBytes preloaded then preloaded
  else if a.hasBytes cached then cached
  else if a.datSourceUrl system ≠ [] && a.fetches (a.datSourceUrl system) then cached
  else []

/-- `thumb_index_valid`. -/
def thumbIndexValid (path : CString) : Bool :=
  a.hasBytes path && ((a.rows path).take 20).all fun row => row.1.all fun c => c ∉ [0x3c, 0x3e]

/-- `ensure_thumb_index`. -/
def ensureThumbIndex (system : CString) : CString :=
  let file := a.kind ++ lit ".tsv"
  let preloaded := indexPath a.preloadDir (lit "thumb-names") (system ++ [slash] ++ file)
  let cached := indexPath a.cacheDir (lit "thumb-names") (system ++ [slash] ++ file)
  if a.thumbIndexValid preloaded then preloaded
  else if a.thumbIndexValid cached then cached
  else if a.thumbBaseUrl system ≠ [] && a.fetches (a.thumbBaseUrl system ++ [slash]) then cached
  else []

/-- `ensure_rescue_index`. -/
def ensureRescueIndex (system : CString) : CString :=
  let file := a.kind ++ lit ".tsv"
  let preloaded := indexPath a.preloadDir (lit "rescue") (system ++ [slash] ++ file)
  let cached := indexPath a.cacheDir (lit "rescue") (system ++ [slash] ++ file)
  if a.hasBytes preloaded then preloaded
  else if a.hasBytes cached then cached
  else []

/-- The index files of a system; a path is empty where there is none. -/
def indexesOf (system : CString) : Indexes where
  dat := a.ensureDatIndex system
  thumb := a.ensureThumbIndex system
  rescue := a.ensureRescueIndex system
  base := a.thumbBaseUrl system

/-- `$1 == key { print $2; exit }`. -/
def firstField (rows : List (CString × CString)) (key : CString) : CString :=
  ((rows.find? fun row => a.same row.1 key).map (·.2)).getD []

/-- The same program without a file: it reads the queue. -/
def readQueue (key : CString) (stdin : List QueueLine) : CString × List QueueLine :=
  match stdin.dropWhile fun line => !a.same line.aliasDir key with
  | [] => ([], [])
  | line :: rest => (line.romPath, a.left rest)

def lookup (index key : CString) (stdin : List QueueLine) : CString × List QueueLine :=
  if index = [] then a.readQueue key stdin else (a.firstField (a.rows index) key, stdin)

/-- `lookup_crc_name`. -/
def lookupCrcName (index crc : CString) (stdin : List QueueLine) : CString × List QueueLine :=
  a.lookup index crc stdin

/-- `lookup_thumb_href`. -/
def lookupThumbHref (index name : CString) (stdin : List QueueLine) :
    CString × List QueueLine :=
  a.lookup index name stdin

/-- `lookup_rescue_href`. -/
def lookupRescueHref (index crc : CString) : CString :=
  if index ≠ [] && a.hasBytes index then a.firstField (a.rows index) crc else []

/-- `lookup_thumb_href_rescue`. Behind the pipe the standard input of `awk` is the other names,
none of which has a second field. -/
def lookupThumbHrefRescue (index canonical : CString) : CString :=
  if index = [] then []
  else ((thumbnailNameCandidates canonical).map (a.firstField (a.rows index))).find? (· ≠ [])
    |>.getD []

/-- The lookups of `fetch_crc_worker`, in the order it makes them. -/
def lookups (indexes : Indexes) (crc : CString) (stdin : List QueueLine) :
    Found × List QueueLine :=
  let canonical := a.lookupCrcName indexes.dat crc stdin
  let rescue := a.lookupRescueHref indexes.rescue crc
  if canonical.1 = [] then
    (⟨rescue ≠ [], rescue = [], rescue = [], false, false, rescue ≠ [], rescue⟩, canonical.2)
  else
    let href := a.lookupThumbHref indexes.thumb canonical.1 canonical.2
    let other := a.lookupThumbHrefRescue indexes.thumb canonical.1
    if href.1 ≠ [] then (⟨true, false, false, false, false, false, href.1⟩, href.2)
    else if other ≠ [] then (⟨true, false, false, false, true, false, other⟩, href.2)
    else (⟨true, rescue = [], false, rescue = [], false, rescue ≠ [], rescue⟩, href.2)

/-- `extract_zip_payload`: the payload, `ZIP_PAYLOAD_EXT`, and whether `ZIP_PAYLOAD_MODE` is
`single_payload`. -/
def extractZipPayload (zip : CString) (allowed : List CString) :
    Option (Payload × CString × Bool) :=
  let byName := (firstZipMember (a.members zip) allowed).bind fun member =>
    (a.unzipMember zip member).map fun payload => (payload, lowerExt member, false)
  match byName with
  | some found => some found
  | none =>
    let (payloads, regular, ext) := zipPayloadSummary (a.members zip) allowed
    if payloads = 1 && regular = 1 && ext ≠ [] then
      (a.unzipAll zip).map fun payload => (payload, ext, true)
    else none

/-- What a line comes to before any index is looked at: nothing, a line of the result file, or a
payload with its `lookup_system` and whether it was the only one in its archive. -/
inductive Prepared (Payload : Type) where
  | skipped
  | settled (row : Row)
  | payload (system : CString) (single : Bool) (payload : Payload)

def prepare (line : QueueLine) : Prepared Payload :=
  let ext := lowerExt line.romPath
  if line.aliasDir = [] ∨ line.romPath = [] then .skipped
  else if ext = [] ∨ extensionAllowed ext a.extensions = false then .settled emptyRow
  else if ext = lit "zip" then
    match a.extractZipPayload line.romPath (zipPayloadExtensions a.fetchSystemId a.extensions) with
    | none => .settled skippedZipRow
    | some (payload, zipExt, single) =>
      .payload (payloadSourceSystemForExt a.fetchSystemId zipExt) single payload
  else .payload (payloadSourceSystemForExt a.fetchSystemId ext) false (a.contents line.romPath)

/-- `index_available`, with what the search leaves in the variables. -/
def ensured (cache : Cache) (system : CString) : Cache × Bool :=
  if cache.ready && cache.system = system then (cache, true)
  else if system ∈ cache.failed then (cache, false)
  else
    let indexes := a.indexesOf system
    if indexes.dat = [] ∨ indexes.thumb = [] ∨ indexes.base = [] then
      ({ cache with indexes := indexes, failed := cache.failed ++ [system] }, false)
    else ({ cache with indexes := indexes, system := system, ready := true }, true)

/-- `rel_stem`: the path below the directory without its extension. -/
def relStem (line : QueueLine) : CString :=
  let relPath := (afterStart (line.aliasDir ++ [slash]) line.romPath).getD line.romPath
  ((splitLast dot relPath).map (·.1)).getD relPath

/-- The line of the download queue for what was found. -/
def candidate (line : QueueLine) (system href : CString) : Option Candidate :=
  let dir := if line.imageDirName = [] then pathBasename line.aliasDir else line.imageDirName
  if href = [] then none
  else some ⟨system, href,
    a.imageRoot ++ [slash] ++ dir ++ [slash] ++ relStem line ++ lit ".png", relStem line⟩

/-- What is written for a line, and the rest of the queue. -/
def process (cache : Cache) (line : QueueLine) (stdin : List QueueLine) :
    Outcome × List QueueLine :=
  match a.prepare line with
  | .skipped => (⟨none, none⟩, stdin)
  | .settled row => (⟨some row, none⟩, stdin)
  | .payload system single payload =>
    let crc := a.computePayloadCrc32 system payload
    if (a.ensured cache system).2 = false ∨ crc = [] then
      (⟨some (skippedToolRow single), none⟩, stdin)
    else
      let found := a.lookups (a.ensured cache system).1.indexes crc stdin
      (⟨some (found.1.row single), a.candidate line system found.1.href⟩, found.2)

/-- The variables behind a line. -/
def nextCache (cache : Cache) (line : QueueLine) : Cache :=
  match a.prepare line with
  | .payload system _ _ => (a.ensured cache system).1
  | _ => cache

/-- `fetch_crc_worker`: the lines it reads from its queue, with what it writes for each. -/
def fetchCrcWorker (queue : List QueueLine) : List (QueueLine × Outcome) :=
  Sequence.consume a.nextCache a.process queue.length Cache.fresh queue

end Around

/-- `split_worker_queue` behind `queue_i = i`: the lines for the worker `w`. -/
def splitWorkerQueueFrom (workerCount : ℕ) : ℕ → List QueueLine → ℕ → List QueueLine
  | _, [], _ => []
  | i, line :: queue, w =>
    let next := if i + 1 > workerCount then 1 else i + 1
    (if w = i then [line] else []) ++ splitWorkerQueueFrom workerCount next queue w

/-- `split_worker_queue`. -/
def splitWorkerQueue (workerCount : ℕ) (queue : List QueueLine) (w : ℕ) : List QueueLine :=
  splitWorkerQueueFrom workerCount 1 queue w

namespace Around

variable (a : Around Payload)

/-- What all workers write, one behind the other. -/
def fetchCrc (workerCount : ℕ) (queue : List QueueLine) : List (QueueLine × Outcome) :=
  (List.range' 1 workerCount).flatMap fun w =>
    a.fetchCrcWorker (splitWorkerQueue workerCount queue w)

/-- `aggregate_crc_results`. -/
def aggregateCrcResults (results : List (QueueLine × Outcome)) : Row :=
  (results.filterMap (·.2.row)).sum

/-- `download_queue_all`. -/
def downloadQueue (results : List (QueueLine × Outcome)) : List Candidate :=
  results.filterMap (·.2.candidate)

end Around

end PlumosBubble.Scraper
