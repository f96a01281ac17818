import PlumosBubble.Frontend.JsonWrite
import PlumosBubble.Frontend.LibraryIndex

/-! The bytes that `write_library_index` prints, call by call. -/

namespace PlumosBubble.Frontend

/-- The times of a run, which the index holds too. -/
structure ScanTimes where
  generatedAtUnix : ℤ
  loadMs : ℤ
  scanMs : ℤ
  sortMs : ℤ
  readyMs : ℤ

/-- `%zu`, `%d`, `%ld` or `%lld`. -/
def numberText (n : ℤ) : CString := lit (toString n)

/-- `%016llx`. -/
def hex16 (n : UInt64) : CString :=
  (List.range 16).map fun k => hexDigit ((n >>> UInt64.ofNat (4 * (15 - k))).toUInt8 % 16)

def boolText (b : Bool) : CString := if b then lit "true" else lit "false"

/-- Texts with a comma and an end of line in between. -/
def commaLines : List CString → CString
  | [] => []
  | [t] => t
  | t :: u :: rest => t ++ lit ",\n" ++ commaLines (u :: rest)

/-- An object of the `roms` array. -/
def IndexRom.text (rom : IndexRom) : CString :=
  lit "        \x7b\n" ++
  lit "          \"id\": \"path64:" ++ hex16 rom.id ++ lit "\",\n" ++
  lit "          \"system_id\": " ++ jsonWriteEscaped rom.systemId ++ lit ",\n" ++
  lit "          \"path\": " ++ jsonWriteEscaped rom.path ++ lit ",\n" ++
  lit "          \"relative_path\": " ++ jsonWriteEscaped rom.relativePath ++ lit ",\n" ++
  lit "          \"file_name\": " ++ jsonWriteEscaped rom.fileName ++ lit ",\n" ++
  lit "          \"title\": " ++ jsonWriteEscaped rom.title ++ lit ",\n" ++
  lit "          \"extension\": " ++ jsonWriteEscaped rom.extension ++ lit ",\n" ++
  lit "          \"directory_alias\": " ++ jsonWriteEscaped rom.directoryAlias ++ lit ",\n" ++
  lit "          \"media\": \x7b \"thumbnail\": " ++
  (match rom.thumbnail with
    | some thumbnail => jsonWriteEscaped thumbnail
    | none => lit "null") ++
  lit " \x7d,\n" ++
  lit "          \"metadata\": \x7b \"source\": \"scan\" \x7d\n" ++
  lit "        \x7d"

/-- An object of the `systems` array. -/
def IndexSystem.text (system : IndexSystem) : CString :=
  lit "    \x7b\n" ++
  lit "      \"id\": " ++ jsonWriteEscaped system.id ++ lit ",\n" ++
  lit "      \"display_name\": " ++ jsonWriteEscaped system.displayName ++ lit ",\n" ++
  lit "      \"short_name\": " ++ jsonWriteEscaped system.shortName ++ lit ",\n" ++
  lit "      \"sort_order\": " ++ numberText system.sortOrder ++ lit ",\n" ++
  lit "      \"rom_count\": " ++ numberText system.romCount ++ lit ",\n" ++
  lit "      \"thumbnail_count\": " ++ numberText system.thumbnailCount ++ lit ",\n" ++
  lit "      \"pinned\": " ++ boolText system.pinned ++ lit ",\n" ++
  lit "      \"default_launch_profile\": " ++ jsonWriteEscaped system.defaultLaunchProfile ++
  lit ",\n" ++
  lit "      \"roms\": [\n" ++
  commaLines (system.roms.map IndexRom.text) ++
  lit "\n      ]\n" ++
  lit "    \x7d"

/-- The whole document. -/
def LibraryIndex.text (index : LibraryIndex) (times : ScanTimes) : CString :=
  lit "\x7b\n" ++
  lit "  \"version\": 1,\n" ++
  lit "  \"generated_by\": \"plumos-library-scan\",\n" ++
  lit "  \"generated_at_unix\": " ++ numberText times.generatedAtUnix ++ lit ",\n" ++
  lit "  \"sdcard_root\": " ++ jsonWriteEscaped index.sdcardRoot ++ lit ",\n" ++
  lit "  \"plumos_root\": " ++ jsonWriteEscaped index.plumosRoot ++ lit ",\n" ++
  lit "  \"systems\": [\n" ++
  commaLines (index.systems.map IndexSystem.text) ++
  lit "\n  ],\n" ++
  lit "  \"summary\": \x7b\n" ++
  lit "    \"system_count\": " ++ numberText index.systemCount ++ lit ",\n" ++
  lit "    \"alias_dirs_found\": " ++ numberText index.aliasDirsFound ++ lit ",\n" ++
  lit "    \"files_seen\": " ++ numberText index.filesSeen ++ lit ",\n" ++
  lit "    \"directories_excluded\": " ++ numberText index.directoriesExcluded ++ lit ",\n" ++
  lit "    \"files_matched\": " ++ numberText index.filesMatched ++ lit ",\n" ++
  lit "    \"rom_count\": " ++ numberText index.romCount ++ lit ",\n" ++
  lit "    \"thumbnail_count\": " ++ numberText index.thumbnailCount ++ lit ",\n" ++
  lit "    \"thumbnail_lookup_deferred\": " ++ boolText index.thumbnailLookupDeferred ++
  lit ",\n" ++
  lit "    \"load_ms\": " ++ numberText times.loadMs ++ lit ",\n" ++
  lit "    \"scan_ms\": " ++ numberText times.scanMs ++ lit ",\n" ++
  lit "    \"sort_ms\": " ++ numberText times.sortMs ++ lit ",\n" ++
  lit "    \"ready_ms\": " ++ numberText times.readyMs ++ lit "\n" ++
  lit "  \x7d\n" ++
  lit "\x7d\n"

end PlumosBubble.Frontend
