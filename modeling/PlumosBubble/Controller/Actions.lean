import PlumosBubble.Controller.Screens

/-! `handle_action_impl` of `plumos_controller_ui.c`, screen by screen, and the steps of the UI:
an action, a render, and the end of a scan in the background. -/

namespace PlumosBubble.Controller

open Frontend
open Gallery (Screen Action)

/-- What A does on an entry of the START menu, by the entry's action. -/
inductive MenuAction where
  | settings (category : Category)
  | favorites
  | recent
  | music
  | help
  | scraping
  | thumbnailResults
  | sd2Repair
  | power (terminal : Bool)
  | apps
  | shell
  | preview
  deriving DecidableEq

/-- The actions that name one thing. An entry whose action is not among them, and no shell command
either, shows a preview, as `internal:network-recovery` shows that it is disabled. -/
def menuActions : List (String × MenuAction) :=
  [("internal:settings", .settings .ui), ("internal:ui-settings", .settings .ui),
    ("internal:system-settings", .settings .system),
    ("internal:network-settings", .settings .network),
    ("internal:performance-settings", .settings .performance),
    ("internal:favorites", .favorites), ("internal:recent", .recent), ("internal:music", .music),
    ("internal:network", .settings .network), ("internal:help", .help),
    ("internal:scraping", .scraping), ("internal:thumbnail-results", .thumbnailResults),
    ("internal:sd2-repair", .sd2Repair), ("system:sleep", .power false),
    ("system:reboot", .power true), ("system:shutdown", .power true), ("menu:apps", .apps)]

def menuAction (action : CString) : MenuAction :=
  match menuActions.find? fun row => action = lit row.1 with
  | some row => row.2
  | none => if lit "shell:" <+: action then .shell else .preview

/-- What A does on an entry of a settings page that is no control. -/
inductive SettingAction where
  | page (category : Category)
  | refreshTop
  | connectWifi
  | syncNow
  | save
  | brightness
  | storageCheck
  | systemUpdate
  | help
  | readOnly
  deriving DecidableEq

/-- The entries that do one thing; `save` starts a helper and loads the page again behind it. -/
def settingActions : List (String × SettingAction) :=
  [("ui_theme_settings", .page .uiTheme), ("refresh_top", .refreshTop),
    ("network_connect_wifi", .connectWifi), ("network_services", .page .networkService),
    ("network_rescue", .readOnly), ("network_information", .page .networkInformation),
    ("system_display_color", .page .systemDisplayColor),
    ("system_time_settings", .page .systemTime), ("system_storage_check", .storageCheck),
    ("system_sync_now", .syncNow), ("system_manual_time", .page .systemTimeManual),
    ("system_manual_time_apply", .save), ("system_brightness", .brightness),
    ("system_information", .page .systemInformation), ("system_update", .systemUpdate),
    ("system_factory_reset", .page .systemFactoryReset)]

/-- The entries behind the test for a factory reset. -/
def laterSettingActions : List (String × SettingAction) :=
  [("performance_clear_cpu_override", .save), ("help", .help)]

def lookUp (rows : List (String × SettingAction)) (id : CString) : Option SettingAction :=
  (rows.find? fun row => id = lit row.1).map Prod.snd

/-- Where B leads on a settings page: to the page that it was opened from with that entry at the
cursor, or to the START menu. -/
def Category.parent : Category → Option (Category × CString)
  | .uiTheme => some (.ui, lit "ui_theme_settings")
  | .systemDisplayColor => some (.system, lit "system_display_color")
  | .systemBrightnessTest => some (.system, lit "system_brightness")
  | .systemTime => some (.system, lit "system_time_settings")
  | .systemTimeManual => some (.systemTime, lit "system_manual_time")
  | .systemInformation => some (.system, lit "system_information")
  | .systemFactoryReset => some (.system, lit "system_factory_reset")
  | .networkInformation => some (.network, lit "network_information")
  | .networkService => some (.network, lit "network_services")
  | .ui | .system | .network | .performance => none

namespace State

variable (s : State)

section Menu

/-- What the entry's action does. -/
def perform (entry : MenuEntry) (inputs : Inputs) : State :=
  match menuAction entry.action.text with
  | .settings category => s.openSettings category inputs
  | .favorites => s.openFavorites inputs
  | .recent => s.openRecent inputs
  | .music => s.openRomScreen (lit "music") inputs
  | .help => s.goTo .help
  | .scraping => s.openScraping inputs
  | .thumbnailResults => s.openThumbnailResults
  | .power terminal => (s.runPowerAction terminal inputs).2
  | .apps => s.openAppsMenu inputs
  | .shell => s.runMenuShell entry inputs
  | .sd2Repair | .preview => s

/-- An entry is run. -/
def runEntry (entry : MenuEntry) (inputs : Inputs) : State :=
  State.perform { s with event := some (.ran entry) } entry inputs

/-- A on an entry. -/
def press (entry : MenuEntry) (inputs : Inputs) : State :=
  if entry.available = false then s
  else if entry.action.text = lit "internal:sd2-repair" then
    let asked := s.confirmationReady entry inputs.nowMs
    if asked.1 then asked.2.runEntry entry inputs else asked.2
  else s.runEntry entry inputs

/-- `handle_action_impl` on the START menu. -/
def menuScreenAction (action : Action) (inputs : Inputs) : State :=
  match action with
  | .up => State.clearMenuConfirm { s with menuCursor := s.menuCursor - 1 }
  | .down =>
    State.clearMenuConfirm { s with
      menuCursor := if s.menuCursor + 1 < s.menuEntries.length then s.menuCursor + 1
        else s.menuCursor }
  | .b =>
    if s.menuId = lit "apps" then
      let loaded := s.clearMenuConfirm.loadStart inputs
      if (loadStartMenu inputs.menusJson).isSome then loaded.selectMenuEntry (lit "apps")
      else loaded
    else s.clearMenuConfirm.goTo s.lists.backScreen
  | .a =>
    match s.menuEntries[s.menuCursor]? with
    | some entry => s.press entry inputs
    | none => s
  | _ => s

end Menu

section Settings

/-- What a saved setting changes besides its page. -/
def refreshRuntime (id : CString) (inputs : Inputs) : State :=
  if isOneOf ["show_empty_systems", "show_favorites_on_top", "show_recent_on_top",
      "sort_systems"] id then s.refreshTop inputs
  else if id = lit "sort_roms" then { s with lists := s.lists.refreshEntries inputs.lists.load }
  else s

/-- A setting is saved, and its page is loaded again. -/
def save (id : CString) (inputs : Inputs) : State :=
  if inputs.succeeds then (s.updateSettings inputs).refreshRuntime id inputs else s

/-- `run_network_wifi_control` and `run_network_service_control`. -/
def networkControl (inputs : Inputs) : Bool × State :=
  (inputs.succeeds, if inputs.reloads then s.updateSettings inputs else s)

/-- `handle_setting_control`; the result is that of the function. -/
def settingControl (entry : SettingEntry) (action : Action) (inputs : Inputs) : Bool × State :=
  let id := entry.id
  let control := controlType id
  if entry.available = false then (true, s)
  else if control = .checkbox then
    if settingIsWritable id = false then (true, s)
    else if action ≠ .a then (false, s)
    else if isOneOf networkSwitchIds id then s.networkControl inputs
    else (true, s.save id inputs)
  else if action ≠ .left ∧ action ≠ .right then (false, s)
  else if control = .choice ∨ control = .number then
    (true, if settingIsWritable id then s.save id inputs else s)
  else (control = .readonly, s)

/-- `refresh_top_entries_manual`, back on the page that it was started from. -/
def refreshTopManual (inputs : Inputs) : State :=
  { s.refreshTop inputs with
    settingsCursor := clampCursor s.settingsCursor s.settingEntries.length }

/-- A on the entry of the brightness. -/
def pressBrightness (inputs : Inputs) : State :=
  if inputs.brightnessBackend ∧ inputs.brightnessTest then s.openBrightnessTest inputs else s

/-- A on an entry that is no control. -/
def performSetting (action : SettingAction) (id : CString) (inputs : Inputs) : State :=
  match action with
  | .page category => s.openSettings category inputs
  | .refreshTop => s.refreshTopManual inputs
  | .connectWifi => s.openWifiConnect inputs
  | .syncNow => s.updateSettings inputs
  | .save => if inputs.succeeds then s.updateSettings inputs else s
  | .brightness => s.pressBrightness inputs
  | .storageCheck => if inputs.succeeds then (s.loadSettings inputs).selectSetting id else s
  | .systemUpdate => (s.runPowerAction true inputs).2
  | .help => s.goTo .help
  | .readOnly => s

/-- A on an entry of a settings page. The page has the same entries when it is loaded again, so
that the entry at the cursor is still the one that `handle_setting_control` has looked at. -/
def pressSetting (entry : SettingEntry) (inputs : Inputs) : State :=
  let id := entry.id
  let control := s.settingControl entry .a inputs
  if control.1 then control.2
  else
    match lookUp settingActions id with
    | some action => control.2.performSetting action id inputs
    | none =>
      match resetTarget id with
      | some target => control.2.confirmOrRunFactoryReset target inputs.nowMs
      | none => control.2.performSetting ((lookUp laterSettingActions id).getD .readOnly) id inputs

/-- `BRIGHTNESS_TEST_COLUMNS`. -/
def brightnessTestColumns : ℕ := 4

/-- The cursor of `handle_brightness_test_action`. -/
def tileCursor (cursor count : ℕ) (action : Action) : ℕ :=
  match action with
  | .left => cursor - 1
  | .right => if cursor + 1 < count then cursor + 1 else cursor
  | .up => if brightnessTestColumns ≤ cursor then cursor - brightnessTestColumns else cursor
  | .down =>
    if cursor + brightnessTestColumns < count then cursor + brightnessTestColumns else cursor
  | _ => cursor

/-- B on a settings page. -/
def leaveSettings (inputs : Inputs) : State :=
  match s.category.parent with
  | some (category, id) => (s.openSettings category inputs).selectSetting id
  | none => s.goTo .startMenu

/-- `handle_action_impl` on a settings page other than the brightness test. -/
def settingsAction (action : Action) (inputs : Inputs) : State :=
  match action with
  | .up =>
    if 0 < s.settingsCursor then
      State.clearFactoryReset { s with settingsCursor := s.settingsCursor - 1 }
    else s
  | .down =>
    if s.settingsCursor + 1 < s.settingEntries.length then
      State.clearFactoryReset { s with settingsCursor := s.settingsCursor + 1 }
    else s
  | .left | .right =>
    match s.settingEntries[s.settingsCursor]? with
    | some entry => (s.clearFactoryReset.settingControl entry action inputs).2
    | none => s.clearFactoryReset
  | .b => s.clearFactoryReset.leaveSettings inputs
  | .a =>
    match s.settingEntries[s.settingsCursor]? with
    | some entry => s.pressSetting entry inputs
    | none => s
  | .start => s.openStartMenu inputs
  | _ => s

/-- `handle_brightness_test_action`, and what the page does behind it. -/
def brightnessTestAction (action : Action) (inputs : Inputs) : State :=
  match action with
  | .b => s.leaveSettings inputs
  | .left | .right | .up | .down =>
    if s.settingEntries = [] then s
    else
      let count := s.settingEntries.length
      { s with settingsCursor := tileCursor (clampCursor s.settingsCursor count) count action }
  | .start => if s.settingEntries = [] then s else s.openStartMenu inputs
  | _ => s

/-- `handle_action_impl` on a settings page. -/
def settingsScreenAction (action : Action) (inputs : Inputs) : State :=
  if s.category = .systemBrightnessTest then s.brightnessTestAction action inputs
  else s.settingsAction action inputs

end Settings

section Others

/-- A on the power menu. -/
def pressPower (entry : PowerEntry) (inputs : Inputs) : State :=
  if entry = .cancel then s.closePowerMenu
  else if s.powerOverlay then
    { s with exitRequested := s.exitRequested || inputs.selectionWritten }
  else
    let result := s.runPowerAction (entry ≠ .sleep) inputs
    if result.1 ∧ entry = .sleep then result.2.goTo s.lists.powerBackScreen else result.2

/-- `handle_action_impl` on the power menu. -/
def powerScreenAction (action : Action) (inputs : Inputs) : State :=
  match action with
  | .up => { s with powerCursor := s.powerCursor - 1 }
  | .down =>
    { s with powerCursor :=
      if s.powerCursor + 1 < powerEntries.length then s.powerCursor + 1 else s.powerCursor }
  | .b => s.closePowerMenu
  | .a =>
    match powerEntries[s.powerCursor]? with
    | some entry => s.pressPower entry inputs
    | none => s
  | _ => s

/-- `handle_action_impl` on the choice of a core, which only B leaves. -/
def coreScreenAction (action : Action) : State :=
  if action = .b then s.goTo s.lists.coreBackScreen else s

/-- B on the scraper and on its results: back to the app. -/
def backToApps (id : CString) (inputs : Inputs) : State :=
  (s.openAppsMenu inputs).selectMenuEntry id

/-- `handle_action_impl` on the scraper. -/
def scrapingScreenAction (action : Action) (inputs : Inputs) : State :=
  match action with
  | .a => s.runScraping inputs
  | .select => s.openThumbnailResults
  | .b => s.backToApps (lit "scraping") inputs
  | .start => s.openStartMenu inputs
  | _ => s

/-- `handle_action_impl` on the results of the scraper or of an app. -/
def resultsScreenAction (action : Action) (inputs : Inputs) : State :=
  match action with
  | .b =>
    s.backToApps (if s.resultReturnAppId = [] then lit "scraping" else s.resultReturnAppId) inputs
  | .start => s.openStartMenu inputs
  | _ => s

/-- `handle_action_impl` on the help and on the disabled network recovery. -/
def helpScreenAction (action : Action) (inputs : Inputs) : State :=
  match action with
  | .b => s.goTo .startMenu
  | .start => s.openStartMenu inputs
  | _ => s

/-- `handle_wifi_connect_action` on the list of networks. -/
def wifiSelectAction (action : Action) (inputs : Inputs) : State :=
  match action with
  | .up => { s with wifiCursor := s.wifiCursor - 1 }
  | .down =>
    { s with wifiCursor :=
      if s.wifiCursor + 1 < s.wifiNetworks.length then s.wifiCursor + 1 else s.wifiCursor }
  | .right =>
    { s with wifiCursor :=
      Gallery.State.pageDown s.wifiCursor s.wifiNetworks.length inputs.lists.pageSize }
  | .left => { s with wifiCursor := Gallery.State.pageUp s.wifiCursor inputs.lists.pageSize }
  | .select => { s with wifiNetworks := inputs.networks, wifiCursor := 0 }
  | .b => s.wifiBack inputs
  | .a =>
    match s.wifiNetworks[s.wifiCursor]? with
    | some true => s.runWifiConnect inputs
    | some false => { s with wifiStage := .password }
    | none => s
  | _ => s

/-- `handle_wifi_connect_action`. -/
def wifiScreenAction (action : Action) (inputs : Inputs) : State :=
  match s.wifiStage with
  | .result => if action = .a ∨ action = .b then s.wifiBack inputs else s
  | .select => s.wifiSelectAction action inputs
  | .password =>
    if action = .b then { s with wifiStage := .select }
    else if action = .a ∧ inputs.keyConnects then s.runWifiConnect inputs
    else s

/-- A list of ROMs or the gallery: what the lists do, and with the START menu its entries. -/
def listScreenAction (action : Action) (inputs : Inputs) : State :=
  if action = .start then s.openStartMenu inputs
  else if action = .x ∧ s.screen ∉ [.roms, .favorites, .recent, .gallery] then s
  else if s.screen = .gallery then
    { s with lists := s.lists.galleryAction action inputs.lists }
  else { s with lists := s.lists.listAction action inputs.lists }

/-- SELECT on TOP. -/
def topCoreSelect (entry : TopEntry) : State :=
  if entry.virtualEntry ∨ validSystemId entry.id = false then s
  else { s with lists := { s.lists with coreBackScreen := s.screen, screen := .coreSelect } }

/-- The cursor of TOP. -/
def moveTop (action : Action) (inputs : Inputs) : ℕ :=
  if inputs.lists.graphic then inputs.topCursor
  else
    match action with
    | .up => s.topCursor - 1
    | .down => if s.topCursor + 1 < s.topEntries.length then s.topCursor + 1 else s.topCursor
    | .right => Gallery.State.pageDown s.topCursor s.topEntries.length inputs.lists.pageSize
    | .left => Gallery.State.pageUp s.topCursor inputs.lists.pageSize
    | _ => s.topCursor

/-- `handle_action_impl` on TOP. -/
def topScreenAction (action : Action) (inputs : Inputs) : State :=
  match action with
  | .up | .down | .left | .right => { s with topCursor := s.moveTop action inputs }
  | .a =>
    match s.topEntries[s.topCursor]? with
    | some entry => s.openRomScreen entry.id inputs
    | none => s
  | .start => s.openStartMenu inputs
  | .select =>
    match s.topEntries[s.topCursor]? with
    | some entry => s.topCoreSelect entry
    | none => s
  | _ => s

end Others

/-- What the screens do with an action. The last case is the rest of `handle_action_impl`, which
takes a screen that it does not name for a list of ROMs. -/
def screenAction (action : Action) (inputs : Inputs) : State :=
  match s.screen with
  | .powerMenu => s.powerScreenAction action inputs
  | .coreSelect => s.coreScreenAction action
  | .scraping => s.scrapingScreenAction action inputs
  | .thumbnailResults => s.resultsScreenAction action inputs
  | .networkRescue | .help => s.helpScreenAction action inputs
  | .wifiConnect => s.wifiScreenAction action inputs
  | .top => s.topScreenAction action inputs
  | .startMenu => s.menuScreenAction action inputs
  | .settings => s.settingsScreenAction action inputs
  | _ => s.listScreenAction action inputs

/-- `change_system_volume`, which loads the settings again. -/
def changeVolume (inputs : Inputs) : State :=
  if inputs.succeeds then s.updateSettings inputs else s

/-- `handle_action_impl`. -/
def handle (action : Action) (inputs : Inputs) : State :=
  if s.screen = .powerActionRunning then s
  else
    match action with
    | .none | .function => s
    | .volumeDown | .volumeUp => s.changeVolume inputs
    | .quit => { s with exitRequested := true }
    | .power => if s.rescueNetwork ∨ s.screen = .powerMenu then s else s.openPowerMenu
    | _ => if s.rescueNetwork then s else s.screenAction action inputs

/-- `handle_action`, with no event but its own. -/
def handleAction (action : Action) (inputs : Inputs) : State :=
  State.handle { s with event := none } action inputs

end State

/-- What happens to the UI. -/
inductive Input where
  | action (action : Action) (inputs : Inputs)
  | render (clock : Gallery.Clock)
  | scanned (systemId : CString) (load : Gallery.Load)

/-- The state behind an input. -/
def State.step (s : State) : Input → State
  | .action action inputs => s.handleAction action inputs
  | .render clock => { s with lists := s.lists.render clock, event := none }
  | .scanned systemId load => { s with lists := s.lists.scanned systemId load, event := none }

end PlumosBubble.Controller
