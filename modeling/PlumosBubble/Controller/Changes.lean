import PlumosBubble.Controller.Frames
import PlumosBubble.Transition.Run

/-! What one action of the controller can do, said once: it keeps the frame, it opens the START
menu, the power menu or the choice of a core, or it deals with a prompt. -/

namespace PlumosBubble.Controller

open Frontend State Transition
open Gallery (Screen Action Base)

variable {s t u : State} {action : Action} {inputs : Inputs}

/-- The screen, and those that B leads back to, are not those of a running command, unless the UI
is about to exit. -/
structure Settled (s : State) : Prop where
  screen : Stands s.screen ∨ s.exitRequested = true
  back : Stands s.lists.backScreen
  powerBack : Stands s.lists.powerBackScreen
  coreBack : Stands s.lists.coreBackScreen

/-- START opens its menu over a screen whose B leads to that menu; the tiles of the brightness test
take every action while there are none. -/
def State.OpensOverMenu (s : State) : Prop :=
  s.screen = .help ∨ s.screen = .networkRescue ∨ s.screen = .scraping ∨
    s.screen = .thumbnailResults ∨
    (s.screen = .settings ∧ ¬(s.category = .systemBrightnessTest ∧ s.settingEntries = []))

/-- What one action can do. -/
inductive Change (s : State) (action : Action) (inputs : Inputs) (t : State) : Prop
  | keeps (h : Keeps s t)
  | startMenu (haction : action = .start) (hscreen : Base s.screen ∨ s.OpensOverMenu)
      (h : t = s.openStartMenu inputs)
  | powerMenu (haction : action = .power) (hscreen : s.screen ≠ .powerMenu)
      (h : t = s.openPowerMenu)
  | core (lists : Gallery.State) (hbase : Base s.screen)
      (hplaces : lists.places =
        { s.lists.places with screen := .coreSelect, coreBack := s.screen })
      (h : t = { s with lists := lists })
  | cleared (hscreen : s.screen = .startMenu) (h : Keeps s.clearMenuConfirm t)
  | asked (entry : MenuEntry) (hscreen : s.screen = .startMenu) (haction : action = .a)
      (hentry : s.menuEntries[s.menuCursor]? = some entry) (havailable : entry.available = true)
      (hrepair : entry.action.text = lit "internal:sd2-repair")
      (hasked : (s.confirmationReady entry inputs.nowMs).1 = false)
      (h : t = (s.confirmationReady entry inputs.nowMs).2)
  | ran (entry : MenuEntry) (hscreen : s.screen = .startMenu) (haction : action = .a)
      (hentry : s.menuEntries[s.menuCursor]? = some entry) (havailable : entry.available = true)
      (hready : entry.action.text = lit "internal:sd2-repair" →
        (s.confirmationReady entry inputs.nowMs).1 = true)
      (h : Keeps { (if entry.action.text = lit "internal:sd2-repair" then
        (s.confirmationReady entry inputs.nowMs).2 else s) with event := some (.ran entry) } t)
  | reset (entry : SettingEntry) (target : CString) (hscreen : s.screen = .settings)
      (haction : action = .a) (hentry : s.settingEntries[s.settingsCursor]? = some entry)
      (htarget : resetTarget entry.id = some target)
      (h : t = s.confirmOrRunFactoryReset target inputs.nowMs)

section Screens

theorem change_power (hs : Settled s) :
    Change s action inputs (s.powerScreenAction action inputs) := by
  have hpowerCursor : ∀ cursor, Keeps s { s with powerCursor := cursor } := fun cursor =>
    ⟨rfl, rfl, rfl, rfl, rfl, rfl, .inl rfl, rfl, id, id, .inl⟩
  have hclose := keeps_closePowerMenu s hs.powerBack
  unfold powerScreenAction
  split
  · exact .keeps (hpowerCursor _)
  · exact .keeps (hpowerCursor _)
  · exact .keeps hclose
  · split
    · rename_i entry _
      unfold pressPower
      dsimp only
      split
      · exact .keeps hclose
      · split
        · refine .keeps ⟨rfl, rfl, rfl, rfl, rfl, rfl, .inl rfl, rfl, id, fun hexit => ?_, .inl⟩
          show (s.exitRequested || _) = true
          rw [hexit, Bool.true_or]
        · have hrun := keeps_runPowerAction s inputs (entry ≠ .sleep)
          split
          · exact .keeps (hrun.trans (keeps_goTo _ hs.powerBack))
          · exact .keeps hrun
    · exact .keeps (.refl s)
  · exact .keeps (.refl s)

theorem change_core (hs : Settled s) : Change s action inputs (s.coreScreenAction action) := by
  unfold coreScreenAction
  split
  · exact .keeps (keeps_goTo s hs.coreBack)
  · exact .keeps (.refl s)

theorem keeps_backToApps (s : State) (id : CString) (inputs : Inputs) :
    Keeps s (s.backToApps id inputs) :=
  (keeps_openAppsMenu ..).trans (keeps_selectMenuEntry ..)

theorem change_scraping (hscreen : s.screen = .scraping) :
    Change s action inputs (s.scrapingScreenAction action inputs) := by
  cases action with
  | a => exact .keeps (keeps_runScraping ..)
  | select => exact .keeps (keeps_openThumbnailResults s)
  | b => exact .keeps (keeps_backToApps ..)
  | start => exact .startMenu rfl (.inr (.inr (.inr (.inl hscreen)))) rfl
  | _ => exact .keeps (.refl s)

theorem change_results (hscreen : s.screen = .thumbnailResults) :
    Change s action inputs (s.resultsScreenAction action inputs) := by
  cases action with
  | b => exact .keeps (keeps_backToApps ..)
  | start => exact .startMenu rfl (.inr (.inr (.inr (.inr (.inl hscreen))))) rfl
  | _ => exact .keeps (.refl s)

theorem change_help (hscreen : s.screen = .networkRescue ∨ s.screen = .help) :
    Change s action inputs (s.helpScreenAction action inputs) := by
  cases action with
  | b => exact .keeps (keeps_goTo s (by decide))
  | start =>
    refine .startMenu rfl (.inr ?_) rfl
    rcases hscreen with h | h
    · exact .inr (.inl h)
    · exact .inl h
  | _ => exact .keeps (.refl s)

theorem keeps_wifiScreenAction (s : State) (action : Action) (inputs : Inputs) :
    Keeps s (s.wifiScreenAction action inputs) := by
  have hselect : Keeps s (s.wifiSelectAction action inputs) := by
    unfold wifiSelectAction
    split
    case h_6 => exact keeps_wifiBack s inputs
    case h_7 =>
      split
      · exact keeps_runWifiConnect s inputs
      · exact keeps_wifi ..
      · exact .refl s
    case h_8 => exact .refl s
    all_goals exact keeps_wifi ..
  unfold wifiScreenAction
  split
  · split
    · exact keeps_wifiBack s inputs
    · exact .refl s
  · exact hselect
  · split
    · exact keeps_wifi ..
    · split
      · exact keeps_runWifiConnect s inputs
      · exact .refl s

theorem change_leads {lists : Gallery.State} (hbase : Base s.screen)
    (h : Gallery.Leads s.lists lists) : Change s action inputs { s with lists := lists } := by
  cases h with
  | base screen hscreen hplaces => exact .keeps (keeps_lists s hplaces fun _ => .of_base hscreen)
  | core hplaces => exact .core lists hbase hplaces rfl

theorem change_list (hbase : Base s.screen) :
    Change s action inputs (s.listScreenAction action inputs) := by
  unfold listScreenAction
  split
  · rename_i hstart
    exact .startMenu hstart (.inl hbase) rfl
  · rename_i hstart
    split
    · exact .keeps (.refl s)
    · split
      · exact change_leads hbase (Gallery.leads_galleryAction hbase hstart inputs.lists)
      · exact change_leads hbase (Gallery.leads_listAction hbase hstart inputs.lists)

theorem change_top (hscreen : s.screen = .top) :
    Change s action inputs (s.topScreenAction action inputs) := by
  cases action with
  | up | down | left | right => exact .keeps (keeps_top ..)
  | start => exact .startMenu rfl (.inl (.inl hscreen)) rfl
  | a =>
    unfold topScreenAction
    dsimp only
    split
    · exact .keeps (keeps_openRomScreen ..)
    · exact .keeps (.refl s)
  | select =>
    unfold topScreenAction
    dsimp only
    split
    · unfold topCoreSelect
      split
      · exact .keeps (.refl s)
      · exact .core _ (.inl hscreen) rfl rfl
    · exact .keeps (.refl s)
  | _ => exact .keeps (.refl s)

theorem change_press {entry : MenuEntry} (hscreen : s.screen = .startMenu)
    (hentry : s.menuEntries[s.menuCursor]? = some entry) :
    Change s .a inputs (s.press entry inputs) := by
  unfold press
  dsimp only
  split
  · exact .keeps (.refl s)
  · rename_i havailable
    replace havailable : entry.available = true := eq_true_of_ne_false havailable
    split
    · rename_i hrepair
      split
      · rename_i hready
        refine .ran entry hscreen rfl hentry havailable (fun _ => hready) ?_
        rw [if_pos hrepair]
        exact keeps_perform ..
      · rename_i hasked
        exact .asked entry hscreen rfl hentry havailable hrepair
          (eq_false_of_ne_true hasked) rfl
    · rename_i hother
      refine .ran entry hscreen rfl hentry havailable (fun h => absurd h hother) ?_
      rw [if_neg hother]
      exact keeps_perform ..

theorem change_menu (hs : Settled s) (hscreen : s.screen = .startMenu) :
    Change s action inputs (s.menuScreenAction action inputs) := by
  cases action with
  | up | down => exact .cleared hscreen (keeps_menu ..)
  | b =>
    show Change s .b inputs (if _ then _ else _)
    split
    · have hload : Keeps s.clearMenuConfirm (s.clearMenuConfirm.loadStart inputs) := keeps_menu ..
      split
      · exact .cleared hscreen (hload.trans (keeps_selectMenuEntry ..))
      · exact .cleared hscreen hload
    · exact .cleared hscreen (keeps_goTo _ hs.back)
  | a =>
    unfold menuScreenAction
    dsimp only
    split
    · rename_i entry hentry
      exact change_press hscreen hentry
    · exact .keeps (.refl s)
  | _ => exact .keeps (.refl s)

theorem settingControl_press {entry : SettingEntry} (h : controlType entry.id ≠ .checkbox) :
    s.settingControl entry .a inputs = (!entry.available, s) := by
  have hpress : Action.a ≠ .left ∧ Action.a ≠ .right := by decide
  cases havailable : entry.available with
  | false => exact if_pos havailable
  | true =>
    have hskip : ¬entry.available = false := by rw [havailable]; decide
    unfold settingControl
    dsimp only
    rw [if_neg hskip, if_neg h, if_pos hpress]
    rfl

theorem change_pressSetting {entry : SettingEntry} (hscreen : s.screen = .settings)
    (hentry : s.settingEntries[s.settingsCursor]? = some entry) :
    Change s .a inputs (s.pressSetting entry inputs) := by
  have hcontrol := keeps_settingControl s inputs entry .a
  unfold pressSetting
  dsimp only
  split
  · exact .keeps hcontrol
  · split
    · exact .keeps (hcontrol.trans (keeps_performSetting ..))
    · split
      · rename_i target htarget
        refine .reset entry target hscreen rfl hentry htarget ?_
        rw [settingControl_press (by rw [controlType_reset htarget]; decide)]
      · exact .keeps (hcontrol.trans (keeps_performSetting ..))

theorem change_settings (hscreen : s.screen = .settings)
    (hcategory : s.category ≠ .systemBrightnessTest) :
    Change s action inputs (s.settingsAction action inputs) := by
  have hclear := keeps_clearFactoryReset s
  cases action with
  | up | down =>
    show Change s _ inputs (if _ then _ else _)
    split
    · exact .keeps ((keeps_settingsCursor s _).trans (keeps_clearFactoryReset _))
    · exact .keeps (.refl s)
  | left | right =>
    unfold settingsAction
    dsimp only
    split
    · exact .keeps (hclear.trans (keeps_settingControl ..))
    · exact .keeps hclear
  | b => exact .keeps (hclear.trans (keeps_leaveSettings ..))
  | a =>
    unfold settingsAction
    dsimp only
    split
    · rename_i entry hentry
      exact change_pressSetting hscreen hentry
    · exact .keeps (.refl s)
  | start =>
    exact .startMenu rfl
      (.inr (.inr (.inr (.inr (.inr ⟨hscreen, fun h => hcategory h.1⟩))))) rfl
  | _ => exact .keeps (.refl s)

theorem change_brightnessTest (hscreen : s.screen = .settings) :
    Change s action inputs (s.brightnessTestAction action inputs) := by
  unfold brightnessTestAction
  split
  · exact .keeps (keeps_leaveSettings ..)
  case h_6 =>
    split
    · exact .keeps (.refl s)
    · rename_i hentries
      exact .startMenu rfl
        (.inr (.inr (.inr (.inr (.inr ⟨hscreen, fun h => hentries h.2⟩))))) rfl
  case h_7 => exact .keeps (.refl s)
  all_goals
    dsimp only
    split
    · exact .keeps (.refl s)
    · exact .keeps (keeps_settingsCursor ..)

end Screens

theorem change_screenAction (hs : Settled s) (hstands : Stands s.screen) :
    Change s action inputs (s.screenAction action inputs) := by
  unfold screenAction
  split
  · exact change_power hs
  · exact change_core hs
  · rename_i hscreen
    exact change_scraping hscreen
  · rename_i hscreen
    exact change_results hscreen
  · rename_i hscreen
    exact change_help (.inl hscreen)
  · rename_i hscreen
    exact change_help (.inr hscreen)
  · exact .keeps (keeps_wifiScreenAction ..)
  · rename_i hscreen
    exact change_top hscreen
  · rename_i hscreen
    exact change_menu hs hscreen
  · rename_i hscreen
    unfold settingsScreenAction
    split
    · exact change_brightnessTest hscreen
    · rename_i hcategory
      exact change_settings hscreen hcategory
  · have hbase : Base s.screen := by
      cases hscreen : s.screen
      case thumbnailRunning => exact absurd hscreen hstands.1
      case topRefreshRunning => exact absurd hscreen hstands.2.1
      case powerActionRunning => exact absurd hscreen hstands.2.2
      all_goals first | decide | contradiction
    exact change_list hbase

/-- What `handle_action_impl` does with an action before it looks at the screen. -/
theorem handle_cases (s : State) (action : Action) (inputs : Inputs) :
    s.handle action inputs = s ∨
      ((action = .volumeDown ∨ action = .volumeUp) ∧
        s.handle action inputs = s.changeVolume inputs) ∨
      s.handle action inputs = { s with exitRequested := true } ∨
      (action = .power ∧ s.handle action inputs = s.openPowerMenu) ∨
      s.handle action inputs = s.screenAction action inputs := by
  unfold handle
  split
  · exact .inl rfl
  · split
    · exact .inl rfl
    · exact .inl rfl
    · exact .inr (.inl ⟨.inl rfl, rfl⟩)
    · exact .inr (.inl ⟨.inr rfl, rfl⟩)
    · exact .inr (.inr (.inl rfl))
    · split
      · exact .inl rfl
      · exact .inr (.inr (.inr (.inl ⟨rfl, rfl⟩)))
    · split
      · exact .inl rfl
      · exact .inr (.inr (.inr (.inr rfl)))

/-- The inversion of `handle_action_impl`. -/
theorem change_handle (hs : Settled s) (hexit : s.exitRequested = false) :
    Change s action inputs (s.handle action inputs) := by
  have hstands : Stands s.screen := by
    rcases hs.screen with h | h
    · exact h
    · rw [hexit] at h
      cases h
  unfold handle
  split
  · exact .keeps (.refl s)
  · split
    · exact .keeps (.refl s)
    · exact .keeps (.refl s)
    · exact .keeps (keeps_changeVolume ..)
    · exact .keeps (keeps_changeVolume ..)
    · exact .keeps
        ⟨rfl, rfl, rfl, rfl, rfl, rfl, .inl rfl, rfl, id, fun _ => rfl, fun _ => .inr rfl⟩
    · split
      · exact .keeps (.refl s)
      · rename_i hnot
        exact .powerMenu rfl (fun h => hnot (.inr h)) rfl
    · split
      · exact .keeps (.refl s)
      · exact change_screenAction hs hstands

theorem Settled.keeps (hs : Settled s) (h : Keeps s t) : Settled t where
  screen := by
    rcases hs.screen with hstands | hexit
    · exact h.stands hstands
    · exact .inr (h.exit hexit)
  back := by rw [h.back]; exact hs.back
  powerBack := by rw [h.powerBack]; exact hs.powerBack
  coreBack := by rw [h.coreBack]; exact hs.coreBack

theorem Settled.event (hs : Settled s) (event : Option Event) :
    Settled { s with event := event } := ⟨hs.screen, hs.back, hs.powerBack, hs.coreBack⟩

theorem Settled.confirmationReady (hs : Settled s) (entry : MenuEntry) (nowMs : ℤ) :
    Settled (s.confirmationReady entry nowMs).2 := by
  unfold State.confirmationReady
  split
  · exact hs
  · split
    · exact ⟨hs.screen, hs.back, hs.powerBack, hs.coreBack⟩
    · exact ⟨hs.screen, hs.back, hs.powerBack, hs.coreBack⟩

theorem Settled.change (hs : Settled s) (hexit : s.exitRequested = false)
    (h : Change s action inputs t) : Settled t := by
  have hstands : Stands s.screen := by
    rcases hs.screen with hstands | hexit'
    · exact hstands
    · rw [hexit] at hexit'
      cases hexit'
  cases h with
  | keeps h => exact hs.keeps h
  | startMenu _ _ h =>
    rw [h]
    exact ⟨.inl (show Stands .startMenu by decide), hstands, hs.powerBack, hs.coreBack⟩
  | powerMenu _ _ h =>
    rw [h]
    exact ⟨.inl (show Stands .powerMenu by decide), hs.back, hstands, hs.coreBack⟩
  | core lists hbase hplaces h =>
    rw [h]
    have hscreen : lists.screen = .coreSelect := congrArg Gallery.Places.screen hplaces
    have hback : lists.backScreen = s.lists.backScreen := congrArg Gallery.Places.back hplaces
    have hpowerBack : lists.powerBackScreen = s.lists.powerBackScreen :=
      congrArg Gallery.Places.powerBack hplaces
    have hcoreBack : lists.coreBackScreen = s.screen := congrArg Gallery.Places.coreBack hplaces
    refine ⟨.inl ?_, ?_, ?_, ?_⟩
    · show Stands lists.screen
      rw [hscreen]
      decide
    · show Stands lists.backScreen
      rw [hback]
      exact hs.back
    · show Stands lists.powerBackScreen
      rw [hpowerBack]
      exact hs.powerBack
    · show Stands lists.coreBackScreen
      rw [hcoreBack]
      exact hstands
  | cleared _ h =>
    have hclear : Settled s.clearMenuConfirm := ⟨hs.screen, hs.back, hs.powerBack, hs.coreBack⟩
    exact hclear.keeps h
  | asked entry _ _ _ _ _ _ h =>
    rw [h]
    exact hs.confirmationReady entry inputs.nowMs
  | ran entry _ _ _ _ _ h =>
    refine Settled.keeps (Settled.event ?_ _) h
    split
    · exact hs.confirmationReady entry inputs.nowMs
    · exact hs
  | reset entry target _ _ _ _ h =>
    rw [h]
    unfold confirmOrRunFactoryReset
    split
    · exact ⟨hs.screen, hs.back, hs.powerBack, hs.coreBack⟩
    · exact ⟨hs.screen, hs.back, hs.powerBack, hs.coreBack⟩

theorem keeps_background {lists : Gallery.State} (h : lists.places = s.lists.places) :
    Keeps { s with event := none } { s with lists := lists, event := none } :=
  keeps_sameScreen { s with event := none } h

theorem Settled.step (hs : Settled s) (hexit : s.exitRequested = false) (input : Input) :
    Settled (s.step input) := by
  have hs' := hs.event none
  cases input with
  | action action inputs => exact hs'.change hexit (change_handle hs' hexit)
  | render clock => exact hs'.keeps (keeps_background (Gallery.places_render ..))
  | scanned systemId load => exact hs'.keeps (keeps_background (Gallery.places_scanned ..))

/-- The UI when its loop begins, neither as the power overlay nor in rescue mode: at TOP, with
whatever has been loaded. -/
structure Initial (s : State) : Prop where
  screen : s.screen = .top
  back : s.lists.backScreen = .top
  powerBack : s.lists.powerBackScreen = .top
  coreBack : s.lists.coreBackScreen = .top
  overlay : s.powerOverlay = false
  rescue : s.rescueNetwork = false
  settings : s.settingEntries = []
  menuPrompt : s.menuPrompt = ([], 0)
  resetPrompt : s.resetPrompt = ([], 0)

theorem Initial.settled (h : Initial s) : Settled s where
  screen := by rw [h.screen]; exact .inl (by decide)
  back := by rw [h.back]; decide
  powerBack := by rw [h.powerBack]; decide
  coreBack := by rw [h.coreBack]; decide

/-- TOP with nothing loaded. -/
def atTop : State where
  lists := {
    screen := .top
    backScreen := .top
    powerBackScreen := .top
    coreBackScreen := .top
    galleryBackScreen := .top
    romEntryScreen := .roms
    romEntries := []
    romCursor := 0
    currentSystemId := []
    romDirectory := []
    cursorMemory := []
    romCursorWrap := false
    slide := ⟨0, 0, 0, 0, 1, false⟩
    pending := ⟨0, 0, false⟩
    loads := 0
    pendingLoads := 0
    due := false }
  topEntries := []
  topCursor := 0
  menuId := []
  menuEntries := []
  menuCursor := 0
  category := .ui
  settingEntries := []
  settingsCursor := 0
  wifiStage := .select
  wifiNetworks := []
  wifiCursor := 0
  powerCursor := 0
  resultReturnAppId := []
  menuConfirmPendingId := []
  menuConfirmPendingUntilMs := 0
  factoryResetPendingTarget := []
  factoryResetPendingUntilMs := 0
  powerOverlay := false
  rescueNetwork := false
  exitRequested := false
  event := none

/-- `menus.json` with one entry, of these members, on the START menu. -/
def startMenuOf (members : CString) : CString :=
  lit "\x7b\"menus\":[\x7b\"id\":\"start\",\"entries\":[\x7b" ++ members ++ lit "\x7d]\x7d]\x7d"

/-- A press at a time, which finds this file and a device with every factory default. -/
def pressAt (menus : CString) (nowMs : ℤ) : Inputs where
  lists := {
    clock := ⟨0, 0, 0⟩
    load := ⟨[], false, true⟩
    favorites := ⟨[], false, true⟩
    succeeds := true
    graphic := false
    pageSize := 10
    choice := .stay }
  nowMs := nowMs
  menusJson := some menus
  appsJson := none
  settingsRead := true
  device := ⟨true, false, true, true, true, true, true⟩
  top := some []
  networks := []
  topCursor := 0
  nearestTile := 0
  starts := true
  succeeds := true
  reloads := true
  dryRun := false
  selectionWritten := true
  keyConnects := false
  brightnessBackend := true
  brightnessTest := false

theorem initial_atTop : Initial atTop := ⟨rfl, rfl, rfl, rfl, rfl, rfl, rfl, rfl, rfl⟩

/-- A step of the UI, which ends when an exit is requested. -/
def Step (s : State) (input : Input) (t : State) : Prop :=
  s.exitRequested = false ∧ t = s.step input

end PlumosBubble.Controller
