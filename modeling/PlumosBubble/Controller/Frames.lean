import PlumosBubble.Controller.Actions
import PlumosBubble.Frontend.Places

/-! What the functions of the controller leave alone: where B leads from the START menu, from the
power menu and from the choice of a core, the prompt of the menu, and what the page of settings
shows. Only the functions that open and prompt do more. -/

namespace PlumosBubble.Controller

open Frontend State
open Gallery (Screen Action Base)

variable {s t u : State}

/-- A screen on which an action finds the UI: none of those behind a running command. -/
def Stands (screen : Screen) : Prop :=
  screen ≠ .thumbnailRunning ∧ screen ≠ .topRefreshRunning ∧ screen ≠ .powerActionRunning

instance (screen : Screen) : Decidable (Stands screen) := by
  unfold Stands
  infer_instance

theorem Stands.of_base {screen : Screen} (h : Base screen) : Stands screen := by
  rcases h with rfl | rfl | rfl | rfl | rfl <;> decide

namespace State

/-- `menu_confirm_pending_*`. -/
def menuPrompt (s : State) : CString × ℤ :=
  (s.menuConfirmPendingId, s.menuConfirmPendingUntilMs)

/-- `factory_reset_pending_*`. -/
def resetPrompt (s : State) : CString × ℤ :=
  (s.factoryResetPendingTarget, s.factoryResetPendingUntilMs)

/-- The entries are those of the page. -/
def OnPage (s : State) : Prop :=
  ∃ device, ∀ entry ∈ s.settingEntries, entry ∈ pageEntries s.category device

end State

/-- The frame: what stays, and what stays so if it was. -/
structure Keeps (s t : State) : Prop where
  back : t.lists.backScreen = s.lists.backScreen
  powerBack : t.lists.powerBackScreen = s.lists.powerBackScreen
  coreBack : t.lists.coreBackScreen = s.lists.coreBackScreen
  overlay : t.powerOverlay = s.powerOverlay
  rescue : t.rescueNetwork = s.rescueNetwork
  menuPrompt : t.menuPrompt = s.menuPrompt
  resetPrompt : t.resetPrompt = s.resetPrompt ∨ t.resetPrompt = ([], 0)
  event : t.event = s.event
  page : s.OnPage → t.OnPage
  exit : s.exitRequested = true → t.exitRequested = true
  stands : Stands s.screen → Stands t.screen ∨ t.exitRequested = true

theorem Keeps.refl (s : State) : Keeps s s :=
  ⟨rfl, rfl, rfl, rfl, rfl, rfl, .inl rfl, rfl, id, id, .inl⟩

theorem Keeps.trans (h : Keeps s t) (h' : Keeps t u) : Keeps s u where
  back := h'.back.trans h.back
  powerBack := h'.powerBack.trans h.powerBack
  coreBack := h'.coreBack.trans h.coreBack
  overlay := h'.overlay.trans h.overlay
  rescue := h'.rescue.trans h.rescue
  menuPrompt := h'.menuPrompt.trans h.menuPrompt
  resetPrompt := by
    rcases h'.resetPrompt with hsame | hclear
    · rw [hsame]
      exact h.resetPrompt
    · exact .inr hclear
  event := h'.event.trans h.event
  page := fun hpage => h'.page (h.page hpage)
  exit := fun hexit => h'.exit (h.exit hexit)
  stands := fun hstands => by
    rcases h.stands hstands with ht | hexit
    · exact h'.stands ht
    · exact .inr (h'.exit hexit)

section Functions

variable (s) (inputs : Inputs)

theorem keeps_goTo {screen : Screen} (h : Stands screen) : Keeps s (s.goTo screen) :=
  ⟨rfl, rfl, rfl, rfl, rfl, rfl, .inl rfl, rfl, id, id, fun _ => .inl h⟩

theorem keeps_menu (menuId : CString) (entries : List MenuEntry) (cursor : ℕ) :
    Keeps s { s with menuId := menuId, menuEntries := entries, menuCursor := cursor } :=
  ⟨rfl, rfl, rfl, rfl, rfl, rfl, .inl rfl, rfl, id, id, .inl⟩

theorem keeps_selectMenuEntry (id : CString) : Keeps s (s.selectMenuEntry id) := by
  unfold selectMenuEntry
  split
  · exact keeps_menu ..
  · exact .refl s

theorem keeps_openAppsMenu : Keeps s (s.openAppsMenu inputs) :=
  (keeps_goTo s (by decide)).trans (keeps_menu ..)

theorem keeps_runPowerAction (terminal : Bool) : Keeps s (s.runPowerAction terminal inputs).2 := by
  unfold runPowerAction
  split
  · exact .refl s
  · split
    · exact ⟨rfl, rfl, rfl, rfl, rfl, rfl, .inl rfl, rfl, id, fun _ => rfl, fun _ => .inr rfl⟩
    · exact .refl s

theorem keeps_closePowerMenu (h : Stands s.lists.powerBackScreen) : Keeps s s.closePowerMenu :=
  ⟨rfl, rfl, rfl, rfl, rfl, rfl, .inl rfl, rfl, id, fun hexit => by
    show (s.exitRequested || s.powerOverlay) = true
    rw [hexit, Bool.true_or], fun _ => .inl h⟩

theorem onPage_loadSettings : (s.loadSettings inputs).OnPage := by
  unfold loadSettings
  split
  · exact ⟨inputs.device, fun _ hentry => hentry⟩
  · exact ⟨inputs.device, fun _ hentry => absurd hentry List.not_mem_nil⟩

theorem keeps_loadSettings : Keeps s (s.loadSettings inputs) := by
  have hpage := onPage_loadSettings s inputs
  unfold loadSettings at hpage ⊢
  split
  · rename_i hread
    rw [if_pos hread] at hpage
    exact ⟨rfl, rfl, rfl, rfl, rfl, rfl, .inl rfl, rfl, fun _ => hpage, id, .inl⟩
  · rename_i hread
    rw [if_neg hread] at hpage
    exact ⟨rfl, rfl, rfl, rfl, rfl, rfl, .inl rfl, rfl, fun _ => hpage, id, .inl⟩

theorem keeps_settingsCursor (cursor : ℕ) : Keeps s { s with settingsCursor := cursor } :=
  ⟨rfl, rfl, rfl, rfl, rfl, rfl, .inl rfl, rfl, id, id, .inl⟩

theorem keeps_selectSetting (id : CString) : Keeps s (s.selectSetting id) := by
  unfold selectSetting
  split
  · exact keeps_settingsCursor ..
  · exact .refl s

theorem keeps_clearFactoryReset : Keeps s s.clearFactoryReset :=
  ⟨rfl, rfl, rfl, rfl, rfl, rfl, .inr rfl, rfl, id, id, .inl⟩

theorem keeps_openSettings (category : Category) : Keeps s (s.openSettings category inputs) := by
  have hload := keeps_loadSettings (State.clearFactoryReset
    (State.goTo { s with category := category } .settings)) inputs
  exact ⟨hload.back, hload.powerBack, hload.coreBack, hload.overlay, hload.rescue,
    hload.menuPrompt, .inr (hload.resetPrompt.elim id id), hload.event,
    fun _ => onPage_loadSettings _ inputs, hload.exit,
    fun _ => hload.stands (show Stands .settings by decide)⟩

theorem keeps_openBrightnessTest : Keeps s (s.openBrightnessTest inputs) := by
  unfold openBrightnessTest
  dsimp only
  split
  · exact keeps_openSettings ..
  · exact (keeps_openSettings ..).trans (keeps_settingsCursor ..)

theorem keeps_updateSettings : Keeps s (s.updateSettings inputs) :=
  (keeps_loadSettings s inputs).trans (keeps_settingsCursor ..)

theorem keeps_top (entries : List TopEntry) (cursor : ℕ) :
    Keeps s { s with topEntries := entries, topCursor := cursor } :=
  ⟨rfl, rfl, rfl, rfl, rfl, rfl, .inl rfl, rfl, id, id, .inl⟩

theorem keeps_loadTop : Keeps s (s.loadTop inputs) := by
  unfold loadTop
  split
  · exact keeps_top ..
  · exact keeps_top ..

theorem keeps_refreshTop : Keeps s (s.refreshTop inputs) := by
  unfold refreshTop
  dsimp only
  split
  · exact keeps_loadTop s inputs
  · split
    · exact (keeps_loadTop s inputs).trans (keeps_top ..)
    · exact keeps_loadTop s inputs

theorem keeps_lists {lists : Gallery.State} {screen : Screen}
    (h : lists.places = { s.lists.places with screen := screen })
    (hscreen : Stands s.screen → Stands screen) : Keeps s { s with lists := lists } :=
  ⟨congrArg Gallery.Places.back h, congrArg Gallery.Places.powerBack h,
    congrArg Gallery.Places.coreBack h, rfl, rfl, rfl, .inl rfl, rfl, id, id, fun hstands => by
      have hlands : lists.screen = screen := congrArg Gallery.Places.screen h
      left
      show Stands lists.screen
      rw [hlands]
      exact hscreen hstands⟩

theorem keeps_sameScreen {lists : Gallery.State} (h : lists.places = s.lists.places) :
    Keeps s { s with lists := lists } := keeps_lists s h id

theorem keeps_openFavorites : Keeps s (s.openFavorites inputs) :=
  keeps_lists s (Gallery.places_openListScreen ..) fun _ => by decide

theorem keeps_openRecent : Keeps s (s.openRecent inputs) :=
  keeps_lists s (Gallery.places_openListScreen ..) fun _ => by decide

theorem keeps_openRomScreen (systemId : CString) : Keeps s (s.openRomScreen systemId inputs) := by
  obtain ⟨screen, hbase, hplaces⟩ := Gallery.places_openRomScreen s.lists systemId inputs.lists
  exact keeps_lists s hplaces fun _ => .of_base hbase

theorem keeps_resultReturn (appId : CString) : Keeps s { s with resultReturnAppId := appId } :=
  ⟨rfl, rfl, rfl, rfl, rfl, rfl, .inl rfl, rfl, id, id, .inl⟩

theorem keeps_openThumbnailResults : Keeps s s.openThumbnailResults :=
  (keeps_resultReturn s _).trans (keeps_goTo _ (by decide))

theorem keeps_openScraping : Keeps s (s.openScraping inputs) := by
  have hopen : Keeps s (State.goTo { s with resultReturnAppId := lit "scraping" } .scraping) :=
    (keeps_resultReturn s _).trans (keeps_goTo _ (by decide))
  unfold openScraping
  dsimp only
  split
  · exact hopen.trans (keeps_loadTop ..)
  · exact hopen

theorem keeps_runScraping : Keeps s (s.runScraping inputs) := by
  unfold runScraping
  split
  · exact keeps_goTo s (by decide)
  · exact .refl s

theorem keeps_runMenuShell (entry : MenuEntry) : Keeps s (s.runMenuShell entry inputs) := by
  unfold runMenuShell
  dsimp only
  split
  · exact .refl s
  · split
    · exact (keeps_resultReturn s _).trans (keeps_goTo _ (by decide))
    · exact .refl s

theorem keeps_wifi (stage : WifiStage) (networks : List Bool) (cursor : ℕ) :
    Keeps s { s with wifiStage := stage, wifiNetworks := networks, wifiCursor := cursor } :=
  ⟨rfl, rfl, rfl, rfl, rfl, rfl, .inl rfl, rfl, id, id, .inl⟩

theorem keeps_openWifiConnect : Keeps s (s.openWifiConnect inputs) :=
  (keeps_wifi s _ _ _).trans (keeps_goTo _ (by decide))

theorem keeps_wifiBack : Keeps s (s.wifiBack inputs) :=
  (keeps_openSettings ..).trans (keeps_selectSetting ..)

theorem keeps_runWifiConnect : Keeps s (s.runWifiConnect inputs) := by
  unfold runWifiConnect
  split
  · exact keeps_wifi ..
  · exact .refl s

theorem keeps_perform (entry : MenuEntry) : Keeps s (s.perform entry inputs) := by
  unfold perform
  split
  · exact keeps_openSettings ..
  · exact keeps_openFavorites ..
  · exact keeps_openRecent ..
  · exact keeps_openRomScreen ..
  · exact keeps_goTo s (by decide)
  · exact keeps_openScraping ..
  · exact keeps_openThumbnailResults s
  · exact keeps_runPowerAction ..
  · exact keeps_openAppsMenu ..
  · exact keeps_runMenuShell ..
  · exact .refl s
  · exact .refl s

theorem keeps_refreshRuntime (id : CString) : Keeps s (s.refreshRuntime id inputs) := by
  unfold refreshRuntime
  split
  · exact keeps_refreshTop ..
  · split
    · exact keeps_sameScreen s (Gallery.places_refreshEntries ..)
    · exact .refl s

theorem keeps_save (id : CString) : Keeps s (s.save id inputs) := by
  unfold save
  split
  · exact (keeps_updateSettings ..).trans (keeps_refreshRuntime ..)
  · exact .refl s

theorem keeps_settingControl (entry : SettingEntry) (action : Action) :
    Keeps s (s.settingControl entry action inputs).2 := by
  have hreload : Keeps s (s.networkControl inputs).2 := by
    unfold networkControl
    dsimp only
    split
    · exact keeps_updateSettings ..
    · exact .refl s
  have hsave := keeps_save s inputs entry.id
  unfold settingControl
  dsimp only
  split_ifs
  all_goals first | exact .refl s | exact hreload | exact hsave

theorem keeps_refreshTopManual : Keeps s (s.refreshTopManual inputs) :=
  (keeps_refreshTop ..).trans (keeps_settingsCursor ..)

theorem keeps_performSetting (action : SettingAction) (id : CString) :
    Keeps s (s.performSetting action id inputs) := by
  cases action with
  | page category => exact keeps_openSettings ..
  | refreshTop => exact keeps_refreshTopManual ..
  | connectWifi => exact keeps_openWifiConnect ..
  | syncNow => exact keeps_updateSettings ..
  | save =>
    show Keeps s (if _ then _ else _)
    split
    · exact keeps_updateSettings ..
    · exact .refl s
  | brightness =>
    show Keeps s (s.pressBrightness inputs)
    unfold pressBrightness
    split
    · exact keeps_openBrightnessTest ..
    · exact .refl s
  | storageCheck =>
    show Keeps s (if _ then _ else _)
    split
    · exact (keeps_loadSettings ..).trans (keeps_selectSetting ..)
    · exact .refl s
  | systemUpdate => exact keeps_runPowerAction ..
  | help => exact keeps_goTo s (by decide)
  | readOnly => exact .refl s

theorem keeps_leaveSettings : Keeps s (s.leaveSettings inputs) := by
  unfold leaveSettings
  split
  · exact (keeps_openSettings ..).trans (keeps_selectSetting ..)
  · exact keeps_goTo s (by decide)

theorem keeps_changeVolume : Keeps s (s.changeVolume inputs) := by
  unfold changeVolume
  split
  · exact keeps_updateSettings ..
  · exact .refl s

end Functions

end PlumosBubble.Controller
