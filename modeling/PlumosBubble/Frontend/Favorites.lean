import PlumosBubble.Frontend.JsonWrite
import PlumosBubble.Frontend.RomPath

/-! The favorites file and its two programs: `plumos_text_ui.c`, which writes an entry as six
strings, and `plumos_controller_ui.c`, which writes five and puts the thumbnail into an object
of its own. -/

namespace PlumosBubble.Frontend

/-- `isalnum`. -/
def isAlnum (c : UInt8) : Bool :=
  (0x30 ≤ c && c ≤ 0x39) || (0x41 ≤ c && c ≤ 0x5a) || (0x61 ≤ c && c ≤ 0x7a)

/-- `valid_system_id`. -/
def validSystemId (s : CString) : Bool :=
  s ≠ [] && s.all fun c => isAlnum c || c = 0x5f || c = 0x2d

/-- A game, as a favorite names it. -/
structure GameKey where
  systemId : CString
  relativePath : CString
  deriving DecidableEq

namespace TextUi

/-- `struct rom_entry` of `plumos_text_ui.c`, as far as a favorite takes it over. -/
structure RomEntry where
  title : Buffer 256
  fileName : Buffer 256
  relativePath : Buffer 1024
  path : Buffer 1024
  thumbnail : Buffer 1024

/-- `struct favorite_entry`. -/
structure FavoriteEntry where
  systemId : Buffer 64
  relativePath : Buffer 1024
  title : Buffer 256
  fileName : Buffer 256
  path : Buffer 1024
  thumbnail : Buffer 1024
  deriving DecidableEq

def FavoriteEntry.key (entry : FavoriteEntry) : GameKey :=
  ⟨entry.systemId.text, entry.relativePath.text⟩

/-- `MAX_FAVORITES`. -/
def maxFavorites : ℕ := 2048

/-- `find_favorite`. -/
def findFavorite (state : List FavoriteEntry) (key : GameKey) : Option ℕ :=
  state.findIdx? fun entry => entry.key = key

/-- The title of an entry that was read. -/
def withTitle (entry : FavoriteEntry) : FavoriteEntry :=
  if entry.title.nonempty then entry
  else { entry with title :=
    if entry.fileName.nonempty then entry.fileName.copy else entry.relativePath.copy }

/-- An object of the list, as it is read. -/
def readFavorite (object : CString) : FavoriteEntry where
  systemId := (jsonGetString 64 (lit "system_id") (rangeDup object)).into .empty
  relativePath := (jsonGetString 1024 (lit "relative_path") (rangeDup object)).into .empty
  title := (jsonGetString 256 (lit "title") (rangeDup object)).into .empty
  fileName := (jsonGetString 256 (lit "file_name") (rangeDup object)).into .empty
  path := (jsonGetString 1024 (lit "path") (rangeDup object)).into .empty
  thumbnail := (jsonGetString 1024 (lit "thumbnail") (rangeDup object)).into .empty

/-- One round of the loop of `load_favorites`. -/
def addFavorite (state : List FavoriteEntry) (entry : FavoriteEntry) : List FavoriteEntry :=
  if state.length < maxFavorites && validSystemId entry.systemId.text &&
      validRelativeRomPath entry.relativePath.text && findFavorite state entry.key = none then
    state ++ [withTitle entry]
  else state

/-- `load_favorites`. -/
def loadFavorites : Option CString → Option (List FavoriteEntry)
  | none => some []
  | some json =>
    (jsonFindArray (lit "favorites") json).map fun body =>
      ((jsonObjects body).map readFavorite).foldl addFavorite []

/-- An entry of the file. -/
def favoriteLine (entry : FavoriteEntry) : CString :=
  lit "    \x7b \"system_id\": " ++ jsonWriteEscaped entry.systemId.text ++
  lit ", \"relative_path\": " ++ jsonWriteEscaped entry.relativePath.text ++
  lit ", \"title\": " ++ jsonWriteEscaped entry.title.text ++
  lit ", \"file_name\": " ++ jsonWriteEscaped entry.fileName.text ++
  lit ", \"path\": " ++ jsonWriteEscaped entry.path.text ++
  lit ", \"thumbnail\": " ++ jsonWriteEscaped entry.thumbnail.text ++ lit " \x7d"

/-- `save_favorites`. -/
def saveFavorites (state : List FavoriteEntry) : CString :=
  lit "\x7b\n" ++ lit "  \"version\": 1,\n" ++ lit "  \"favorites\": [\n" ++
    listLines (state.map favoriteLine) ++ lit "  ]\n" ++ lit "\x7d\n"

/-- A favorite for a game. -/
def favoriteOfRom (systemId : Buffer 64) (rom : RomEntry) : FavoriteEntry where
  systemId := systemId
  relativePath := rom.relativePath
  title := if rom.title.nonempty then rom.title else rom.relativePath.copy
  fileName := rom.fileName
  path := rom.path
  thumbnail := rom.thumbnail

/-- `set_favorite_from_rom`. -/
def setFavoriteFromRom (state : List FavoriteEntry) (systemId : Buffer 64) (rom : RomEntry) :
    Option (List FavoriteEntry) :=
  let entry := favoriteOfRom systemId rom
  match findFavorite state entry.key with
  | some i => some (state.set i entry)
  | none => if maxFavorites ≤ state.length then none else some (state ++ [entry])

/-- `clear_favorite`. -/
def clearFavorite (state : List FavoriteEntry) (key : GameKey) : List FavoriteEntry :=
  match findFavorite state key with
  | some i => state.eraseIdx i
  | none => state

/-- `favorite … --set`: the list that it saves, if it saves one. -/
def favoriteSet (file : Option CString) (systemId : Buffer 64) (rom : RomEntry) :
    Option (List FavoriteEntry) := do
  let state ← loadFavorites file
  setFavoriteFromRom state systemId rom

/-- `favorite … --clear`. -/
def favoriteClear (file : Option CString) (key : GameKey) : Option (List FavoriteEntry) := do
  let state ← loadFavorites file
  return clearFavorite state key

end TextUi

namespace ControllerUi

/-- `struct rom_entry` of `plumos_controller_ui.c`, as far as the favorites use it. -/
structure RomEntry where
  systemId : Buffer 64
  title : Buffer 256
  relativePath : Buffer 1024
  path : Buffer 1024
  thumbnail : Buffer 1024
  deriving DecidableEq

def RomEntry.key (entry : RomEntry) : GameKey := ⟨entry.systemId.text, entry.relativePath.text⟩

/-- An object of the list, as it is read. -/
def readFavorite (object : CString) : RomEntry :=
  let title := (jsonGetString 256 (lit "title") object).into .empty
  let relativePath := (jsonGetString 1024 (lit "relative_path") object).into .empty
  { systemId := (jsonGetString 64 (lit "system_id") object).into .empty
    title := if title.nonempty then title else relativePath.copy
    relativePath
    path := (jsonGetString 1024 (lit "path") object).into .empty
    thumbnail :=
      match jsonFindObject (lit "media") object with
      | none => .empty
      | some media => (jsonGetString 1024 (lit "thumbnail") media).into .empty }

/-- `load_favorite_entries`. -/
def loadFavoriteEntries : Option CString → Option (List RomEntry)
  | none => some []
  | some json =>
    (jsonFindArray (lit "favorites") json).map fun body => (jsonObjects body).map readFavorite

/-- `favorite_entry_index`. -/
def favoriteEntryIndex (entries : List RomEntry) (key : GameKey) : Option ℕ :=
  entries.findIdx? fun entry => entry.key = key

/-- An entry of the file. -/
def favoriteLine (entry : RomEntry) : CString :=
  lit "    \x7b \"system_id\": " ++ fprintJsonString entry.systemId.text ++
  lit ", \"relative_path\": " ++ fprintJsonString entry.relativePath.text ++
  lit ", \"title\": " ++ fprintJsonString entry.title.text ++
  lit ", \"path\": " ++ fprintJsonString entry.path.text ++
  lit ", \"media\": \x7b \"thumbnail\": " ++ fprintJsonString entry.thumbnail.text ++
  lit " \x7d \x7d"

/-- `save_favorite_entries`. -/
def saveFavoriteEntries (entries : List RomEntry) : CString :=
  lit "\x7b\n  \"version\": 1,\n  \"favorites\": [\n" ++ listLines (entries.map favoriteLine) ++
    lit "  ]\n\x7d\n"

/-- A favorite for the current entry. -/
def favoriteOfEntry (entry : RomEntry) : RomEntry :=
  { entry with title := if entry.title.nonempty then entry.title else entry.relativePath.copy }

/-- `toggle_current_favorite`: the list that it saves, if it saves one. -/
def toggleCurrentFavorite (file : Option CString) (entry : RomEntry) : Option (List RomEntry) :=
  if !validSystemId entry.systemId.text || !validRelativeRomPath entry.relativePath.text then none
  else
    (loadFavoriteEntries file).map fun entries =>
      match favoriteEntryIndex entries entry.key with
      | some i => entries.eraseIdx i
      | none => entries ++ [favoriteOfEntry entry]

end ControllerUi

end PlumosBubble.Frontend
