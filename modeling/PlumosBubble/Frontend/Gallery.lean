import PlumosBubble.Frontend.Favorites

/-! The gallery of `plumos_controller_ui.c`: the list of ROMs with its cursor, the slide from one
cover to the next with the step that waits for its end, and what the actions and the renders do
to them. What an action finds on the disk and what is chosen on the other screens are inputs; the
renders that an action makes on a screen other than the gallery change nothing here. -/

namespace PlumosBubble.Gallery

open Frontend

/-- `enum ui_screen`. -/
inductive Screen where
  | top
  | roms
  | startMenu
  | favorites
  | recent
  | settings
  | powerMenu
  | help
  | coreSelect
  | networkRescue
  | wifiConnect
  | thumbnailResults
  | thumbnailRunning
  | scraping
  | gallery
  | topRefreshRunning
  | powerActionRunning
  deriving DecidableEq

/-- `enum ui_action`. -/
inductive Action where
  | none
  | up
  | down
  | left
  | right
  | a
  | b
  | start
  | select
  | x
  | y
  | function
  | power
  | volumeDown
  | volumeUp
  | quit
  deriving DecidableEq

/-- `struct rom_entry`, as far as the gallery reads it. -/
structure Entry where
  systemId : CString
  relativePath : CString
  isNavigationDirectory : Bool
  isFavorite : Bool
  deriving DecidableEq

/-- `struct rom_cursor_memory`. -/
structure CursorMemory where
  systemId : CString
  directory : CString
  relativePath : CString
  deriving DecidableEq

/-- `gallery_transition_*`. -/
structure Slide where
  fromCursor : ℕ
  toCursor : ℕ
  startMs : ℤ
  durationMs : ℤ
  direction : ℤ
  active : Bool
  deriving DecidableEq

/-- `gallery_pending_*`. -/
structure Pending where
  cursor : ℕ
  direction : ℤ
  active : Bool
  deriving DecidableEq

/-- The state of the UI, as far as it bears on the gallery. Nothing reads the rest: how often the
list has been loaded, the same when the pending cursor was computed, and whether a render is due
before the next action. -/
structure State where
  screen : Screen
  backScreen : Screen
  powerBackScreen : Screen
  coreBackScreen : Screen
  galleryBackScreen : Screen
  romEntryScreen : Screen
  romEntries : List Entry
  romCursor : ℕ
  currentSystemId : CString
  romDirectory : CString
  cursorMemory : List CursorMemory
  romCursorWrap : Bool
  slide : Slide
  pending : Pending
  loads : ℕ
  pendingLoads : ℕ
  due : Bool

/-- What a load of the list gives, the setting that it reads, and whether it succeeds. -/
structure Load where
  entries : List Entry
  wrap : Bool
  ok : Bool

/-- The clock as one render reads it: for the progress, for a new start, for its progress. -/
structure Clock where
  progress : ℤ
  start : ℤ
  again : ℤ

/-- What is chosen on a screen without a list of ROMs. -/
inductive Choice where
  | stay
  | goTo (screen : Screen)
  | startMenu
  | coreSelect
  | favorites
  | recent
  | system (id : CString)
  | wrap (value : Bool)
  | sortRoms

/-- What an action meets: the clock, the lists that it loads and reads, whether its command
succeeds, the mode of the renderer, the height of the list and the choice. -/
structure Inputs where
  clock : Clock
  load : Load
  favorites : Load
  succeeds : Bool
  graphic : Bool
  pageSize : ℕ
  choice : Choice

/-- `UI_GALLERY_TRANSITION_MS`. -/
def transitionMs : ℤ := 360

/-- `UI_ROM_CURSOR_MEMORY_MAX`. -/
def cursorMemoryMax : ℕ := 64

namespace State

variable (s : State)

section Cursor

def romCount : ℕ := s.romEntries.length

/-- `ui_find_rom_cursor_memory`. -/
def findCursorMemory (memory : List CursorMemory) (systemId directory : CString) : Option ℕ :=
  memory.findIdx? fun m => m.systemId = systemId ∧ m.directory = directory

/-- `remember_current_rom_cursor`. -/
def rememberCursor : State :=
  match s.romEntries[s.romCursor]? with
  | none => s
  | some entry =>
    if s.currentSystemId = [] ∨ entry.relativePath = [] then s
    else
      let now : CursorMemory := ⟨s.currentSystemId, s.romDirectory, entry.relativePath⟩
      match findCursorMemory s.cursorMemory s.currentSystemId s.romDirectory with
      | some i => { s with cursorMemory := s.cursorMemory.set i now }
      | none =>
        if cursorMemoryMax ≤ s.cursorMemory.length then
          { s with cursorMemory := s.cursorMemory.drop 1 ++ [now] }
        else { s with cursorMemory := s.cursorMemory ++ [now] }

/-- Where `restore_current_rom_cursor` finds the remembered entry. -/
def restoredCursor (memory : List CursorMemory) (systemId directory : CString)
    (entries : List Entry) : ℕ :=
  match findCursorMemory memory systemId directory with
  | none => 0
  | some i =>
    match memory[i]? with
    | none => 0
    | some m =>
      if m.relativePath = [] then 0
      else (entries.findIdx? fun entry => entry.relativePath = m.relativePath).getD 0

/-- `restore_current_rom_cursor`. -/
def restoreCursor : State :=
  if s.currentSystemId = [] ∨ s.romEntries = [] then s
  else { s with romCursor :=
    restoredCursor s.cursorMemory s.currentSystemId s.romDirectory s.romEntries }

/-- `rom_cursor_after_delta`. -/
def cursorAfterDelta (baseCursor : ℕ) (delta : ℤ) : ℕ :=
  if s.romCount = 0 then 0
  else
    let base := if s.romCount ≤ baseCursor then s.romCount - 1 else baseCursor
    if s.romCursorWrap ∧ 1 < s.romCount then
      let next := Int.tmod (base + delta) s.romCount
      (if next < 0 then next + s.romCount else next).toNat
    else if delta < 0 then
      if delta.natAbs < base then base - delta.natAbs else 0
    else if s.romCount ≤ base + delta.natAbs then s.romCount - 1
    else base + delta.natAbs

/-- `ui_cursor_page_down`. -/
def pageDown (cursor count pageSize : ℕ) : ℕ :=
  if count = 0 then cursor
  else if count ≤ cursor + max pageSize 1 then count - 1
  else cursor + max pageSize 1

/-- `ui_cursor_page_up`. -/
def pageUp (cursor pageSize : ℕ) : ℕ :=
  if cursor ≤ max pageSize 1 then 0 else cursor - max pageSize 1

end Cursor

section Lists

/-- The entries of a load; the cursor is at the first one. -/
def loadEntries (load : Load) : State :=
  { s with romEntries := load.entries, romCursor := 0, loads := s.loads + 1 }

/-- `load_rom_entries`, which reads the settings except for the favorites. -/
def loadRomEntries (systemId : CString) (load : Load) : State :=
  if systemId = lit "favorites" then s.loadEntries load
  else { s.loadEntries load with romCursorWrap := load.wrap }

/-- `reload_rom_directory_no_scan`; the result is that of the function. -/
def reloadRomDirectory (load : Load) : Bool × State :=
  if s.currentSystemId = [] then (false, s)
  else if load.ok then (true, (s.loadRomEntries s.currentSystemId load).restoreCursor)
  else (false, s.loadRomEntries s.currentSystemId load)

/-- `open_rom_directory_entry`. -/
def openDirectory (entry : Entry) (load : Load) : State :=
  if entry.isNavigationDirectory = false ∨ entry.relativePath = [] then s
  else
    let result :=
      State.reloadRomDirectory { s.rememberCursor with romDirectory := entry.relativePath } load
    if result.1 then result.2 else { result.2 with romDirectory := s.romDirectory }

/-- What stays of a directory without its last component. -/
def parentDirectory (directory : CString) : CString :=
  match splitLast slash directory with
  | some (front, _) => if slash ∈ front then front else []
  | none => []

/-- `open_parent_rom_directory`. -/
def openParent (load : Load) : Bool × State :=
  if s.romDirectory = [] then (false, s)
  else
    let result := State.reloadRomDirectory
      { s.rememberCursor with romDirectory := parentDirectory s.romDirectory } load
    if result.1 then result else (false, { result.2 with romDirectory := s.romDirectory })

/-- Where the cursor stays when a favorite has gone from the list. -/
def keptCursor (cursor : ℕ) (entries : List Entry) : ℕ :=
  if entries = [] then 0 else if entries.length ≤ cursor then entries.length - 1 else cursor

/-- The system of an entry. -/
def entrySystem (entry : Entry) : CString :=
  if entry.systemId = [] then s.currentSystemId else entry.systemId

/-- The mark of the entry at the cursor. -/
def markFavorite (entry : Entry) (isFavorite : Bool) : State :=
  { s with romEntries := s.romEntries.set s.romCursor { entry with isFavorite := isFavorite } }

/-- `toggle_current_favorite`. -/
def toggleFavorite (inputs : Inputs) : State :=
  match s.romEntries[s.romCursor]? with
  | none => s
  | some entry =>
    if entry.isNavigationDirectory ∨ validSystemId (s.entrySystem entry) = false ∨
        ControllerUi.validRelativeRomPath entry.relativePath = false ∨
        inputs.favorites.ok = false ∨ inputs.succeeds = false then s
    else if inputs.favorites.entries.any fun favorite =>
        favorite.systemId = s.entrySystem entry ∧
          favorite.relativePath = entry.relativePath then
      if s.screen = .favorites ∨ (s.screen = .gallery ∧ s.galleryBackScreen = .favorites) then
        { s.loadEntries inputs.load with romCursor := keptCursor s.romCursor inputs.load.entries }
      else s.markFavorite entry false
    else s.markFavorite entry true

/-- The flags of the gallery go out. -/
def resetGallery : State :=
  { s with
    slide := { s.slide with active := false }
    pending := { s.pending with active := false, direction := 0 } }

/-- A screen with the list of a system. -/
def enterList (screen : Screen) (systemId : CString) : State :=
  { s with screen := screen, romDirectory := [], currentSystemId := systemId }

/-- `open_favorites_screen` and `open_recent_screen`. -/
def openListScreen (screen : Screen) (systemId : CString) (load : Load) : State :=
  let opened := (s.enterList screen systemId).loadEntries load
  if load.ok then opened.restoreCursor else opened

/-- The list of ROMs of a system. -/
def openRomList (systemId : CString) (load : Load) : State :=
  let opened := (s.enterList .roms systemId).loadRomEntries systemId load
  if load.ok then opened.restoreCursor else opened

/-- `open_rom_screen`. -/
def openRomScreen (systemId : CString) (inputs : Inputs) : State :=
  if systemId = lit "favorites" then s.openListScreen .favorites systemId inputs.load
  else if systemId = lit "recent" then s.openListScreen .recent systemId inputs.load
  else
    let opened := s.openRomList systemId inputs.load
    if inputs.graphic ∧ opened.romEntryScreen = .gallery ∧ opened.romEntries ≠ [] then
      State.resetGallery { opened with galleryBackScreen := .top, screen := .gallery }
    else opened

/-- The cursor of an entry that was selected before a load, if it is there. -/
def selectAgain (relativePath : CString) : State :=
  match s.romEntries.findIdx? fun entry => entry.relativePath = relativePath with
  | some i => { s with romCursor := i }
  | none => s

/-- The selected path, and the empty one where nothing is selected. -/
def selectedPath : CString := (s.romEntries[s.romCursor]?.map Entry.relativePath).getD []

/-- The list with fresh artwork, where there is any to look for. -/
def refreshArtwork (inputs : Inputs) : State :=
  if s.screen = .roms ∧ validSystemId s.currentSystemId ∧ inputs.succeeds then
    let loaded := s.loadRomEntries s.currentSystemId inputs.load
    if inputs.load.ok = false then loaded
    else if s.selectedPath ≠ [] then loaded.selectAgain s.selectedPath
    else if s.romCursor < loaded.romCount then { loaded with romCursor := s.romCursor }
    else loaded
  else s

/-- `open_gallery_screen`. -/
def openGallery (inputs : Inputs) : State :=
  if s.romEntries = [] then s
  else
    State.resetGallery
      { s.refreshArtwork inputs with galleryBackScreen := s.screen, screen := .gallery }

/-- `refresh_current_rom_entries_preserve_cursor`. -/
def refreshEntries (load : Load) : State :=
  if s.currentSystemId = [] ∨ s.currentSystemId = lit "favorites" ∨
      s.currentSystemId = lit "recent" then s
  else
    let loaded := s.loadRomEntries s.currentSystemId load
    if load.ok = false ∨ s.selectedPath = [] then loaded else loaded.selectAgain s.selectedPath

end Lists

section Slides

/-- `ui_start_gallery_transition`. -/
def startTransition (fromCursor toCursor : ℕ) (direction now : ℤ) : State :=
  if fromCursor = toCursor ∨ s.romCount = 0 then s
  else
    let side := if direction = 0 then (if fromCursor < toCursor then 1 else -1) else direction
    { s with slide := ⟨fromCursor, toCursor, now, transitionMs, if side < 0 then -1 else 1, true⟩ }

/-- A transition from the cursor to another place, and the cursor with it. -/
def slideTo (toCursor : ℕ) (direction now : ℤ) : State :=
  State.rememberCursor
    { s.startTransition s.romCursor toCursor direction now with romCursor := toCursor }

/-- `ui_start_pending_gallery_transition`. -/
def startPending (now : ℤ) : Bool × State :=
  if s.pending.active = false ∨ s.romCount = 0 then (false, s)
  else
    let toCursor := if s.romCount ≤ s.pending.cursor then s.romCount - 1 else s.pending.cursor
    let taken : State := { s with pending := { s.pending with active := false } }
    if toCursor = s.romCursor then (false, taken)
    else (true, taken.slideTo toCursor s.pending.direction now)

/-- `ui_gallery_transition_progress`, as far as it changes anything. -/
def transitionProgress (now : ℤ) : State :=
  if s.slide.active = false ∨ s.slide.durationMs ≤ 0 then s
  else if s.slide.durationMs ≤ now - s.slide.startMs then
    { s with slide := { s.slide with active := false } }
  else s

/-- What `render_gallery` changes. -/
def renderGallery (clock : Clock) : State :=
  if s.slide.active ∧ s.slide.toCursor = s.romCursor then
    let shown := s.transitionProgress clock.progress
    if shown.slide.active = false ∧ shown.pending.active then
      let result := shown.startPending clock.start
      if result.1 then result.2.transitionProgress clock.again else result.2
    else shown
  else if s.slide.active = false ∧ s.pending.active then
    let result := s.startPending clock.start
    if result.1 then result.2.transitionProgress clock.again else result.2
  else s

/-- What `render_ui` changes. -/
def render (clock : Clock) : State :=
  if s.screen = .gallery then { s.renderGallery clock with due := false }
  else { s.resetGallery with due := false }

/-- `move_gallery_cursor`. -/
def moveGalleryCursor (delta : ℤ) (now : ℤ) : State :=
  if s.romCount = 0 ∨ delta = 0 then s
  else if delta < -1 ∨ 1 < delta then
    let next := s.cursorAfterDelta s.romCursor delta
    if next = s.romCursor then s
    else State.rememberCursor { s.resetGallery with romCursor := next }
  else if s.slide.active then
    let next := s.cursorAfterDelta s.slide.toCursor delta
    if next = s.slide.toCursor then s
    else { s with
      pending := ⟨next, if delta < 0 then -1 else 1, true⟩
      pendingLoads := s.loads }
  else
    let next := s.cursorAfterDelta s.romCursor delta
    if next = s.romCursor then s
    else s.slideTo next (if delta < 0 then -1 else 1) now

end Slides

section Actions

/-- `launch_rom_entry`; the app runs behind a render of the screen. -/
def launchEntry (entry : Entry) (inputs : Inputs) : State :=
  if entry.relativePath = [] then s
  else if entry.isNavigationDirectory then s.openDirectory entry inputs.load
  else
    let remembered := s.rememberCursor
    if validSystemId (s.entrySystem entry) = false ∨ inputs.succeeds = false then remembered
    else
      let rendered := remembered.render inputs.clock
      if s.screen = .recent then rendered.loadEntries inputs.load else rendered

/-- `open_start_menu`. -/
def openStartMenu : State := { s with backScreen := s.screen, screen := .startMenu }

/-- SELECT on a ROM. -/
def openCoreSelect : State :=
  match s.romEntries[s.romCursor]? with
  | none => s
  | some entry =>
    if entry.isNavigationDirectory then s
    else { s with coreBackScreen := s.screen, screen := .coreSelect }

/-- A on a ROM. -/
def launchCurrent (inputs : Inputs) : State :=
  match s.romEntries[s.romCursor]? with
  | none => s
  | some entry => s.launchEntry entry inputs

/-- Back to TOP. -/
def leaveToTop (entryScreen : Screen) : State :=
  { s.rememberCursor with romEntryScreen := entryScreen, screen := .top }

/-- `handle_action_impl` on the gallery screen. -/
def galleryAction (action : Action) (inputs : Inputs) : State :=
  match action with
  | .left => s.moveGalleryCursor (-1) inputs.clock.start
  | .right => s.moveGalleryCursor 1 inputs.clock.start
  | .up => s.moveGalleryCursor (-5) inputs.clock.start
  | .down => s.moveGalleryCursor 5 inputs.clock.start
  | .b =>
    let result := s.openParent inputs.load
    if result.1 then result.2 else (result.2.leaveToTop .gallery).resetGallery
  | .x =>
    State.resetGallery { s with
      romEntryScreen := .roms
      screen := if s.galleryBackScreen = .favorites ∨ s.galleryBackScreen = .recent then
        s.galleryBackScreen else .roms }
  | .y => s.toggleFavorite inputs
  | .a => s.launchCurrent inputs
  | .start => s.openStartMenu
  | .select => s.openCoreSelect
  | _ => s

/-- A move of the cursor in a list. -/
def moveTo (cursor : ℕ) : State :=
  if cursor = s.romCursor then s else State.rememberCursor { s with romCursor := cursor }

/-- `handle_action_impl` on the screens ROMs, favorites and recent. -/
def listAction (action : Action) (inputs : Inputs) : State :=
  match action with
  | .x => s.openGallery inputs
  | .up => s.moveTo (s.cursorAfterDelta s.romCursor (-1))
  | .down => s.moveTo (s.cursorAfterDelta s.romCursor 1)
  | .right => s.moveTo (pageDown s.romCursor s.romCount inputs.pageSize)
  | .left => s.moveTo (pageUp s.romCursor inputs.pageSize)
  | .b =>
    if s.screen = .roms then
      let result := s.openParent inputs.load
      if result.1 then result.2 else result.2.leaveToTop .roms
    else s.leaveToTop .roms
  | .y => s.toggleFavorite inputs
  | .a => s.launchCurrent inputs
  | .start => s.openStartMenu
  | .select => s.openCoreSelect
  | _ => s

/-- What the other screens can do to the list and the screens. -/
def choose (inputs : Inputs) : State :=
  match inputs.choice with
  | .stay => s
  | .goTo screen =>
    if screen = .gallery ∨ screen = .coreSelect then s else { s with screen := screen }
  | .startMenu => s.openStartMenu
  | .coreSelect => { s with coreBackScreen := s.screen, screen := .coreSelect }
  | .favorites => s.openListScreen .favorites (lit "favorites") inputs.load
  | .recent => s.openListScreen .recent (lit "recent") inputs.load
  | .system id => s.openRomScreen id inputs
  | .wrap value => { s with romCursorWrap := value }
  | .sortRoms => s.refreshEntries inputs.load

/-- `handle_action_impl`. -/
def handleAction (action : Action) (inputs : Inputs) : State :=
  match action with
  | .none | .volumeDown | .volumeUp | .function | .quit => s
  | .power =>
    match s.screen with
    | .powerMenu | .powerActionRunning => s
    | _ => { s with powerBackScreen := s.screen, screen := .powerMenu }
  | _ =>
    match s.screen with
    | .powerActionRunning => s
    | .gallery => s.galleryAction action inputs
    | .roms | .favorites | .recent => s.listAction action inputs
    | .powerMenu =>
      if action = .b then { s with screen := s.powerBackScreen }
      else if action = .a ∧ inputs.succeeds then { s with screen := s.powerBackScreen }
      else s
    | .coreSelect => if action = .b then { s with screen := s.coreBackScreen } else s
    | .startMenu =>
      if action = .b ∧ inputs.succeeds then { s with screen := s.backScreen } else s.choose inputs
    | _ => s.choose inputs

end Actions

end State

/-- What happens to the UI: an action, a render, or the end of a scan in the background. -/
inductive Event where
  | action (action : Action) (inputs : Inputs)
  | render (clock : Clock)
  | scanned (systemId : CString) (load : Load)

namespace State

variable (s : State)

/-- `poll_rom_scan_refresh` behind a scan that has succeeded. -/
def scanned (systemId : CString) (load : Load) : State :=
  if s.screen = .roms ∧ s.currentSystemId = systemId then
    { s.refreshEntries load with due := true }
  else s

/-- The state behind an event. -/
def step : Event → State
  | .action action inputs => { s.handleAction action inputs with due := true }
  | .render clock => s.render clock
  | .scanned systemId load => s.scanned systemId load

end State

/-- The event loop: behind an action, and behind a refresh of the list, there is a render first. -/
def Step (s : State) (event : Event) (t : State) : Prop :=
  (s.due = true → ∃ clock, event = .render clock) ∧ t = s.step event

end PlumosBubble.Gallery
