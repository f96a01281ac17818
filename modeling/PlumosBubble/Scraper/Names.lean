import PlumosBubble.Frontend.CString

/-! The names that `plumos-thumbnail-scraper` works with: extensions, the member of an archive
that is taken for its game, and the names that a cover may have. -/

namespace PlumosBubble.Scraper

open Frontend

/-- `lower_ext`; it prints nothing for a name without a dot. -/
def lowerExt (path : CString) : CString :=
  match splitLast dot (pathBasename path) with
  | some (_, ext) => lowerString ext
  | none => []

/-- `extension_allowed`. -/
def extensionAllowed (wanted : CString) (allowed : List CString) : Bool := wanted ∈ allowed

/-- `ignored_sidecar_file`. -/
def ignoredSidecarFile (path : CString) : Bool :=
  lit "._" <+: pathBasename path ||
    pathBasename path ∈ [lit ".DS_Store", lit "Thumbs.db", lit "desktop.ini"] ||
    lit "/__MACOSX/" <:+: path

/-- `append_unique_word`. -/
def appendUniqueWord (words : List CString) (word : CString) : List CString :=
  if word = [] ∨ word ∈ words then words else words ++ [word]

def isArchiveExt (ext : CString) : Bool := ext ∈ [lit "zip", lit "7z"]

/-- `zip_payload_extensions`. -/
def zipPayloadExtensions (system : CString) (configured : List CString) : List CString :=
  let listed := (configured.filter (!isArchiveExt ·)).foldl appendUniqueWord []
  if system ∈ [lit "gb", lit "gbc"] then [lit "gb", lit "gbc"].foldl appendUniqueWord listed
  else if system ∈ [lit "nes", lit "fds"] then
    [lit "nes", lit "fds"].foldl appendUniqueWord listed
  else listed

/-- `payload_source_system_for_ext`. -/
def payloadSourceSystemForExt (defaultSystem ext : CString) : CString :=
  if ext ∈ [lit "gb", lit "gbc", lit "nes", lit "fds"] then ext else defaultSystem

/-- `first_zip_member`, of the names that `unzip -lq` lists. -/
def firstZipMember (members allowed : List CString) : Option CString :=
  members.find? fun member =>
    member ≠ [] && member.getLast? ≠ some slash && !ignoredSidecarFile member &&
      lowerExt member ≠ [] && !isArchiveExt (lowerExt member) &&
      extensionAllowed (lowerExt member) allowed

/-- The extension of a member as `zip_payload_summary` takes it: all behind the last dot of the
path, or nothing. -/
def summaryExt (member : CString) : CString :=
  match splitLast dot (lowerString member) with
  | some (_, ext) => ext
  | none => []

/-- A member that `zip_payload_summary` passes over. -/
def summaryIgnores (member : CString) : Bool :=
  lit "__MACOSX/" <+: member || lit "/__MACOSX/" <:+: member ||
    lit "._" <+: member || lit "/._" <:+: member ||
    [lit ".DS_Store", lit "Thumbs.db", lit "desktop.ini"].any fun name =>
      name = member || (slash :: name) <:+ member

/-- `zip_payload_summary`: how many payloads and how many files there are, and the extension of
the last payload. -/
def zipPayloadSummary (members allowed : List CString) : ℕ × ℕ × CString :=
  let regular := members.filter fun member => member ≠ [] && member.getLast? ≠ some slash
  let payloads := regular.filter fun member => !summaryIgnores member &&
    summaryExt member ≠ [] && !isArchiveExt (summaryExt member) && summaryExt member ∈ allowed
  (payloads.length, regular.length, (payloads.getLast?.map summaryExt).getD [])

/-- What `sed -e s/…//g` leaves, where `found` tells how long a match at the head is; the bytes of
a match are dropped one by one. -/
def eraseMatches (found : CString → Option ℕ) : ℕ → CString → CString
  | _, [] => []
  | skip + 1, _ :: rest => eraseMatches found skip rest
  | 0, c :: rest =>
    match found (c :: rest) with
    | some (length + 1) => eraseMatches found length rest
    | _ => c :: eraseMatches found 0 rest

/-- `s/word//g`. -/
def eraseWord (name word : CString) : CString :=
  eraseMatches (fun s => if word <+: s then some word.length else none) 0 name

/-- `s/word[^)]*)//g`. -/
def eraseGroup (name word : CString) : CString :=
  eraseMatches (fun s =>
    let inner := (s.drop word.length).takeWhile (· ≠ 0x29)
    if word <+: s ∧ word.length + inner.length < s.length then
      some (word.length + inner.length + 1)
    else none) 0 name

/-- The tags of one language, or of two, that are taken off first. -/
def languageTags : List CString :=
  [lit " (En)", lit " (Ja)", lit " (En,Ja)", lit " (Ja,En)"]

def otherLanguageTags : List CString :=
  [lit " (Fr)", lit " (De)", lit " (Es)", lit " (It)", lit " (Nl)", lit " (Sv)", lit " (Pt)",
    lit " (Ru)", lit " (Ko)", lit " (Zh)"]

def editionTags : List CString :=
  [lit " (Beta", lit " (Proto", lit " (Sample", lit " (Program", lit " (Aftermarket",
    lit " (Unl", lit " (Virtual Console", lit " (Rev "]

/-- `thumbnail_name_candidates`, without empty lines and repetitions. -/
def thumbnailNameCandidates (name : CString) : List CString :=
  let names := [name,
    (languageTags ++ otherLanguageTags).foldl eraseWord name,
    languageTags.foldl eraseWord (eraseGroup name (lit " (Rev ")),
    languageTags.foldl eraseWord (editionTags.foldl eraseGroup name)]
  (names.filter fun name => name.any fun c => c ∉ [0x20, 0x09]).eraseDups

example : thumbnailNameCandidates (lit "Pac (Rev 2) (En)") =
    [lit "Pac (Rev 2) (En)", lit "Pac (Rev 2)", lit "Pac"] := by decide +kernel

end PlumosBubble.Scraper
