import PlumosBubble.Controller.Menus
import PlumosBubble.Frontend.Gallery

/-! The state of `plumos_controller_ui.c` across its screens, and the functions that open and
close them. The lists of ROMs and the screen itself are those of the gallery's model. What a
function finds on the disk, and whether the commands it starts succeed, are inputs. -/

namespace PlumosBubble.Controller

open Frontend
open Gallery (Screen Action)

/-- `struct top_entry`, as far as an action reads it. -/
structure TopEntry where
  id : CString
  virtualEntry : Bool

/-- `enum wifi_connect_stage`. -/
inductive WifiStage where
  | select
  | password
  | result
  deriving DecidableEq

/-- What an action has prompted for or run. -/
inductive Event where
  | prompted (entry : MenuEntry)
  | ran (entry : MenuEntry)
  | resetPrompted (target : CString)
  | resetRan (target : CString)

/-- `struct ui_state`, as far as it bears on the screens, and the event of the last action. Of the
Wi-Fi networks there is whether they are open. -/
structure State where
  lists : Gallery.State
  topEntries : List TopEntry
  topCursor : ℕ
  menuId : CString
  menuEntries : List MenuEntry
  menuCursor : ℕ
  category : Category
  settingEntries : List SettingEntry
  settingsCursor : ℕ
  wifiStage : WifiStage
  wifiNetworks : List Bool
  wifiCursor : ℕ
  powerCursor : ℕ
  resultReturnAppId : CString
  menuConfirmPendingId : CString
  menuConfirmPendingUntilMs : ℤ
  factoryResetPendingTarget : CString
  factoryResetPendingUntilMs : ℤ
  powerOverlay : Bool
  rescueNetwork : Bool
  exitRequested : Bool
  event : Option Event

/-- What an action meets: what the lists of ROMs meet, the clock, the files of the menus, the
device, the systems, the networks, and where the layout of TOP moves its cursor. `settingsRead`
tells whether the settings can be read, `starts` whether a command gets as far as running,
`succeeds` how it ends, `reloads` whether a page is loaded again behind it, `dryRun` the
environment of the power script, and `keyConnects` whether the key of the Wi-Fi keyboard is the
one that connects. -/
structure Inputs where
  lists : Gallery.Inputs
  nowMs : ℤ
  menusJson : Option CString
  appsJson : Option CString
  settingsRead : Bool
  device : Device
  top : Option (List TopEntry)
  networks : List Bool
  topCursor : ℕ
  nearestTile : ℕ
  starts : Bool
  succeeds : Bool
  reloads : Bool
  dryRun : Bool
  selectionWritten : Bool
  keyConnects : Bool
  brightnessBackend : Bool
  brightnessTest : Bool

namespace State

variable (s : State)

def screen : Screen := s.lists.screen

def goTo (screen : Screen) : State := { s with lists := { s.lists with screen := screen } }

/-- A cursor, put back into a list that has become shorter. -/
def clampCursor (cursor count : ℕ) : ℕ := if count ≤ cursor then count - 1 else cursor

section Menus

/-- `load_start_menu_entries`. -/
def loadStart (inputs : Inputs) : State :=
  { s with
    menuId := lit "start"
    menuEntries := (loadStartMenu inputs.menusJson).getD []
    menuCursor := 0 }

/-- `load_apps_menu_entries`. -/
def loadApps (inputs : Inputs) : State :=
  { s with
    menuId := lit "apps"
    menuEntries := (loadAppsMenu inputs.appsJson).getD []
    menuCursor := 0 }

/-- `select_menu_entry_by_id`. -/
def selectMenuEntry (id : CString) : State :=
  match s.menuEntries.findIdx? fun entry => entry.id.text = id with
  | some i => { s with menuCursor := i }
  | none => s

/-- `open_start_menu`. -/
def openStartMenu (inputs : Inputs) : State :=
  State.loadStart { s with lists := s.lists.openStartMenu } inputs

/-- `open_apps_menu`. -/
def openAppsMenu (inputs : Inputs) : State := (s.goTo .startMenu).loadApps inputs

/-- `clear_menu_confirm_pending`. -/
def clearMenuConfirm : State :=
  { s with menuConfirmPendingId := [], menuConfirmPendingUntilMs := 0 }

/-- `menu_entry_confirmation_ready`. -/
def confirmationReady (entry : MenuEntry) (nowMs : ℤ) : Bool × State :=
  if entry.confirm = false then (true, s)
  else if s.menuConfirmPendingId = entry.id.text ∧ nowMs ≤ s.menuConfirmPendingUntilMs then
    (true, s.clearMenuConfirm)
  else
    (false, { s with
      menuConfirmPendingId := entry.id.text
      menuConfirmPendingUntilMs := nowMs + 5000
      event := some (.prompted entry) })

end Menus

section Power

/-- `POWER_ENTRIES`. -/
inductive PowerEntry where
  | sleep
  | reboot
  | shutdown
  | cancel
  deriving DecidableEq

def powerEntries : List PowerEntry := [.sleep, .reboot, .shutdown, .cancel]

/-- `close_power_menu`. -/
def closePowerMenu : State :=
  State.goTo { s with exitRequested := s.exitRequested || s.powerOverlay } s.lists.powerBackScreen

/-- `open_power_menu`. -/
def openPowerMenu : State :=
  { s with
    lists := { s.lists with powerBackScreen := s.screen, screen := .powerMenu }
    powerCursor := powerEntries.length - 1 }

/-- `run_power_action`; the screen of a terminal action stays when it succeeds in earnest. -/
def runPowerAction (terminal : Bool) (inputs : Inputs) : Bool × State :=
  if inputs.starts = false ∨ inputs.succeeds = false then (false, s)
  else if terminal ∧ inputs.dryRun = false then
    (true, State.goTo { s with exitRequested := true } .powerActionRunning)
  else (true, s)

end Power

section Settings

/-- `load_settings_entries`; the settings of the list of ROMs come with them. -/
def loadSettings (inputs : Inputs) : State :=
  if inputs.settingsRead then
    { s with
      lists := { s.lists with romCursorWrap := inputs.lists.load.wrap }
      settingEntries := pageEntries s.category inputs.device
      settingsCursor := 0 }
  else { s with settingEntries := [], settingsCursor := 0 }

/-- `select_setting_entry_by_id`. -/
def selectSetting (id : CString) : State :=
  match s.settingEntries.findIdx? fun entry => entry.id = id with
  | some i => { s with settingsCursor := i }
  | none => s

/-- `clear_factory_reset_pending`. -/
def clearFactoryReset : State :=
  { s with factoryResetPendingTarget := [], factoryResetPendingUntilMs := 0 }

/-- `open_settings_screen`. -/
def openSettings (category : Category) (inputs : Inputs) : State :=
  ((State.goTo { s with category := category } .settings).clearFactoryReset).loadSettings inputs

/-- `open_system_brightness_test_screen`. -/
def openBrightnessTest (inputs : Inputs) : State :=
  let opened := s.openSettings .systemBrightnessTest inputs
  if opened.settingEntries = [] then opened
  else { opened with
    settingsCursor := clampCursor inputs.nearestTile opened.settingEntries.length }

/-- `update_settings_entries_after_save`. -/
def updateSettings (inputs : Inputs) : State :=
  let loaded := s.loadSettings inputs
  { loaded with settingsCursor := clampCursor s.settingsCursor loaded.settingEntries.length }

/-- `load_top_entries`. -/
def loadTop (inputs : Inputs) : State :=
  match inputs.top with
  | none => { s with topEntries := [] }
  | some entries =>
    { s with topEntries := entries, topCursor := clampCursor s.topCursor entries.length }

/-- The id of the system at the cursor of TOP, and the empty one where there is none. -/
def selectedTop : CString := (s.topEntries[s.topCursor]?.map TopEntry.id).getD []

/-- `refresh_top_entries_preserve_cursor`. -/
def refreshTop (inputs : Inputs) : State :=
  let loaded := s.loadTop inputs
  if s.selectedTop = [] then loaded
  else
    match loaded.topEntries.findIdx? fun entry => entry.id = s.selectedTop with
    | some i => { loaded with topCursor := i }
    | none => loaded

/-- `confirm_or_run_factory_reset`; nothing bears on the screens but the prompt. -/
def confirmOrRunFactoryReset (target : CString) (nowMs : ℤ) : State :=
  if s.factoryResetPendingTarget = target ∧ nowMs ≤ s.factoryResetPendingUntilMs then
    { s.clearFactoryReset with event := some (.resetRan target) }
  else
    { s with
      factoryResetPendingTarget := target
      factoryResetPendingUntilMs := nowMs + 5000
      event := some (.resetPrompted target) }

end Settings

section Screens

/-- `open_favorites_screen`. -/
def openFavorites (inputs : Inputs) : State :=
  { s with lists := s.lists.openListScreen .favorites (lit "favorites") inputs.lists.load }

/-- `open_recent_screen`. -/
def openRecent (inputs : Inputs) : State :=
  { s with lists := s.lists.openListScreen .recent (lit "recent") inputs.lists.load }

/-- `open_rom_screen`. -/
def openRomScreen (systemId : CString) (inputs : Inputs) : State :=
  { s with lists := s.lists.openRomScreen systemId inputs.lists }

/-- `open_thumbnail_results_screen`. -/
def openThumbnailResults : State :=
  State.goTo { s with resultReturnAppId := lit "scraping" } .thumbnailResults

/-- `open_scraping_screen`. -/
def openScraping (inputs : Inputs) : State :=
  let opened := State.goTo { s with resultReturnAppId := lit "scraping" } .scraping
  if inputs.succeeds then opened.loadTop inputs else opened

/-- `run_scraping_action`; behind the running scraper are its results. -/
def runScraping (inputs : Inputs) : State :=
  if inputs.starts then s.goTo .thumbnailResults else s

/-- `run_menu_shell_action`. -/
def runMenuShell (entry : MenuEntry) (inputs : Inputs) : State :=
  let invalid := entry.action.text = lit "shell:" ∨
    (entry.background ∧ validSystemId entry.id.text = false)
  if invalid ∨ inputs.starts = false then s
  else if entry.showResults then
    State.goTo { s with resultReturnAppId := entry.id.text } .thumbnailResults
  else s

/-- `open_wifi_connect_screen`. -/
def openWifiConnect (inputs : Inputs) : State :=
  State.goTo { s with
    wifiStage := .select
    wifiNetworks := inputs.networks
    wifiCursor := 0 } .wifiConnect

/-- `wifi_back_to_network_settings`. -/
def wifiBack (inputs : Inputs) : State :=
  (s.openSettings .network inputs).selectSetting (lit "network_connect_wifi")

/-- `run_wifi_connect_selected`. -/
def runWifiConnect (inputs : Inputs) : State :=
  if inputs.starts then { s with wifiStage := .result } else s

end Screens

end State

end PlumosBubble.Controller
