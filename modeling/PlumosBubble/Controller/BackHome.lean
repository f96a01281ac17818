import PlumosBubble.Controller.Changes
import PlumosBubble.Transition.Descent

/-! B leads home. Every screen that B leaves has a depth, which counts the pages, the menus and the
directories between it and TOP. B lowers it as long as the START menu goes back to TOP, to a list
of ROMs or to the gallery; opened over a screen whose B leads to that menu, it never does. -/

namespace PlumosBubble.Controller

open Frontend State Transition
open Gallery (Screen Action Base)

variable {s t u : State} {action : Action} {inputs : Inputs}

section Depth

/-- How often B is pressed on the way from a list of ROMs to TOP, at most. -/
def State.listDepth (s : State) : ℕ := s.lists.romDirectory.length + 1

def State.baseDepth (s : State) (screen : Screen) : ℕ := if screen = .top then 0 else s.listDepth

def Category.depth : Category → ℕ
  | .ui | .system | .network | .performance => 0
  | .systemTimeManual => 2
  | _ => 1

/-- The depth of a screen, if it is shown in this state. -/
def State.screenDepth (s : State) : Screen → ℕ
  | .top => 0
  | .startMenu => s.baseDepth s.lists.backScreen + 1 + if s.menuId = lit "apps" then 1 else 0
  | .settings => s.baseDepth s.lists.backScreen + 4 + s.category.depth
  | .help | .networkRescue | .scraping | .thumbnailResults => s.baseDepth s.lists.backScreen + 4
  | .wifiConnect =>
    s.baseDepth s.lists.backScreen + 5 + if s.wifiStage = .password then 1 else 0
  | .coreSelect => s.baseDepth s.lists.coreBackScreen + 1
  | _ => s.listDepth

def State.depth (s : State) : ℕ :=
  if s.screen = .powerMenu then s.screenDepth s.lists.powerBackScreen + 1
  else s.screenDepth s.screen

theorem screenDepth_base (s : State) {screen : Screen} (h : Base screen) :
    s.screenDepth screen = s.baseDepth screen := by
  rcases h with rfl | rfl | rfl | rfl | rfl <;> rfl

theorem base_ne_powerMenu {screen : Screen} (h : Base screen) : screen ≠ .powerMenu := by
  rcases h with rfl | rfl | rfl | rfl | rfl <;> decide

theorem Category.depth_parent {category parent : Category} {id : CString}
    (h : category.parent = some (parent, id)) : parent.depth < category.depth := by
  cases category <;> cases h <;> decide

theorem depth_of_screen {screen : Screen} (h : s.screen = screen) (hne : screen ≠ .powerMenu) :
    s.depth = s.screenDepth screen := by
  unfold State.depth
  rw [h, if_neg hne]

theorem screenDepth_startMenu_le (s : State) :
    s.screenDepth .startMenu ≤ s.baseDepth s.lists.backScreen + 2 := by
  show s.baseDepth s.lists.backScreen + 1 + (if s.menuId = lit "apps" then 1 else 0) ≤ _
  split <;> omega

end Depth

/-- What B relies on: the menus go back to where it leads home. -/
structure Homely (s : State) : Prop where
  settled : Settled s
  back : Base s.lists.backScreen
  coreBack : Base s.lists.coreBackScreen
  powerBack : s.lists.powerBackScreen ≠ .powerMenu
  overlay : s.powerOverlay = false
  rescue : s.rescueNetwork = false

section Keeping

theorem Homely.keeps (hs : Homely s) (h : Keeps s t) : Homely t where
  settled := hs.settled.keeps h
  back := by rw [h.back]; exact hs.back
  coreBack := by rw [h.coreBack]; exact hs.coreBack
  powerBack := by rw [h.powerBack]; exact hs.powerBack
  overlay := by rw [h.overlay]; exact hs.overlay
  rescue := by rw [h.rescue]; exact hs.rescue

theorem Homely.same (hs : Homely s) (hlists : t.lists = s.lists)
    (hoverlay : t.powerOverlay = s.powerOverlay) (hrescue : t.rescueNetwork = s.rescueNetwork)
    (hexit : t.exitRequested = s.exitRequested) : Homely t where
  settled := by
    obtain ⟨hscreen, hback, hpowerBack, hcoreBack⟩ := hs.settled
    refine ⟨?_, ?_, ?_, ?_⟩
    · unfold State.screen
      rw [hlists, hexit]
      exact hscreen
    all_goals
      rw [hlists]
      assumption
  back := by rw [hlists]; exact hs.back
  coreBack := by rw [hlists]; exact hs.coreBack
  powerBack := by rw [hlists]; exact hs.powerBack
  overlay := by rw [hoverlay]; exact hs.overlay
  rescue := by rw [hrescue]; exact hs.rescue

theorem Homely.confirmationReady (hs : Homely s) (entry : MenuEntry) (nowMs : ℤ) :
    Homely (s.confirmationReady entry nowMs).2 := by
  unfold State.confirmationReady
  split
  · exact hs
  · split
    · exact hs.same rfl rfl rfl rfl
    · exact hs.same rfl rfl rfl rfl

theorem Homely.change (hs : Homely s) (hexit : s.exitRequested = false)
    (hover : action = .start → ¬s.OpensOverMenu) (h : Change s action inputs t) : Homely t := by
  have hsettled := hs.settled.change hexit h
  cases h with
  | keeps h => exact hs.keeps h
  | startMenu haction hscreen h =>
    have hbase : Base s.screen := hscreen.resolve_right (hover haction)
    subst h
    exact ⟨hsettled, hbase, hs.coreBack, hs.powerBack, hs.overlay, hs.rescue⟩
  | powerMenu haction hne h =>
    subst h
    exact ⟨hsettled, hs.back, hs.coreBack, hne, hs.overlay, hs.rescue⟩
  | core lists hbase hplaces h =>
    subst h
    refine ⟨hsettled, ?_, ?_, ?_, hs.overlay, hs.rescue⟩
    · show Base lists.backScreen
      rw [show lists.backScreen = s.lists.backScreen from congrArg Gallery.Places.back hplaces]
      exact hs.back
    · show Base lists.coreBackScreen
      rw [show lists.coreBackScreen = s.screen from congrArg Gallery.Places.coreBack hplaces]
      exact hbase
    · show lists.powerBackScreen ≠ _
      rw [show lists.powerBackScreen = s.lists.powerBackScreen from
        congrArg Gallery.Places.powerBack hplaces]
      exact hs.powerBack
  | cleared _ h =>
    have hclear : Homely s.clearMenuConfirm := hs.same rfl rfl rfl rfl
    exact hclear.keeps h
  | asked entry _ _ _ _ _ _ h =>
    subst h
    exact hs.confirmationReady entry inputs.nowMs
  | ran entry _ _ _ _ _ h =>
    have hready : Homely (if entry.action.text = lit "internal:sd2-repair" then
        (s.confirmationReady entry inputs.nowMs).2 else s) := by
      split
      · exact hs.confirmationReady entry inputs.nowMs
      · exact hs
    refine Homely.keeps (Homely.same hready ?_ ?_ ?_ ?_) h
    all_goals rfl
  | reset entry target _ _ _ _ h =>
    subst h
    unfold confirmOrRunFactoryReset
    split
    · exact hs.same rfl rfl rfl rfl
    · exact hs.same rfl rfl rfl rfl

/-- START is pressed only where B leads home from its menu. -/
def Input.OpensAtHome (s : State) (input : Input) : Prop :=
  ∀ inputs, input = .action .start inputs → ¬s.OpensOverMenu

theorem Homely.step (hs : Homely s) (hexit : s.exitRequested = false) {input : Input}
    (h : input.OpensAtHome s) : Homely (s.step input) := by
  have hs' : Homely { s with event := none } := hs.same rfl rfl rfl rfl
  cases input with
  | action action inputs =>
    refine hs'.change hexit (fun haction => ?_) (change_handle hs'.settled hexit)
    subst haction
    exact h inputs rfl
  | render clock => exact hs'.keeps (keeps_background (Gallery.places_render ..))
  | scanned systemId load => exact hs'.keeps (keeps_background (Gallery.places_scanned ..))

end Keeping

section Back

/-- A press of B lowers the depth and requests no exit. -/
def Lowers (s t : State) : Prop := t.exitRequested = s.exitRequested ∧ t.depth < s.depth

theorem lists_loadSettings (s : State) (inputs : Inputs) :
    ∃ wrap, (s.loadSettings inputs).lists = { s.lists with romCursorWrap := wrap } := by
  unfold loadSettings
  split
  · exact ⟨_, rfl⟩
  · exact ⟨s.lists.romCursorWrap, rfl⟩

theorem depth_openSettings (s : State) (category : Category) (id : CString) (inputs : Inputs) :
    ((s.openSettings category inputs).selectSetting id).exitRequested = s.exitRequested ∧
      ((s.openSettings category inputs).selectSetting id).depth =
        s.baseDepth s.lists.backScreen + 4 + category.depth := by
  have hopen : ∀ t : State, (∃ wrap, t.lists =
      { s.lists with screen := .settings, romCursorWrap := wrap }) → t.category = category →
      t.depth = s.baseDepth s.lists.backScreen + 4 + category.depth := by
    intro t ⟨wrap, hlists⟩ hcategory
    have hscreen : t.screen = .settings := by
      unfold State.screen
      rw [hlists]
    rw [depth_of_screen hscreen (by decide)]
    show t.baseDepth t.lists.backScreen + 4 + t.category.depth = _
    unfold baseDepth listDepth
    rw [hlists, hcategory]
  have hselect : ∀ t : State, (t.selectSetting id).lists = t.lists ∧
      (t.selectSetting id).category = t.category ∧
      (t.selectSetting id).exitRequested = t.exitRequested := by
    intro t
    unfold selectSetting
    split
    · exact ⟨rfl, rfl, rfl⟩
    · exact ⟨rfl, rfl, rfl⟩
  have hload : (s.openSettings category inputs).category = category ∧
      (s.openSettings category inputs).exitRequested = s.exitRequested := by
    unfold openSettings loadSettings
    split
    · exact ⟨rfl, rfl⟩
    · exact ⟨rfl, rfl⟩
  obtain ⟨hlists, hcategory, hexit⟩ := hselect (s.openSettings category inputs)
  refine ⟨hexit.trans hload.2, hopen _ ?_ (hcategory.trans hload.1)⟩
  rw [hlists]
  exact lists_loadSettings _ inputs

theorem lowers_goTo {screen : Screen} (hne : screen ≠ .powerMenu)
    (h : s.screenDepth screen < s.depth) : Lowers s (s.goTo screen) := by
  refine ⟨rfl, ?_⟩
  have hdepth : (s.goTo screen).depth = (s.goTo screen).screenDepth screen :=
    depth_of_screen rfl hne
  rw [hdepth]
  cases screen <;> exact h

theorem lowers_power (hs : Homely s) (hscreen : s.screen = .powerMenu) :
    Lowers s s.closePowerMenu := by
  have hdepth : s.depth = s.screenDepth s.lists.powerBackScreen + 1 := if_pos hscreen
  have hgo : Lowers s (s.goTo s.lists.powerBackScreen) :=
    lowers_goTo hs.powerBack (by omega)
  refine ⟨?_, hgo.2⟩
  show (s.exitRequested || s.powerOverlay) = s.exitRequested
  rw [hs.overlay, Bool.or_false]

theorem lowers_core (hs : Homely s) (hscreen : s.screen = .coreSelect) :
    Lowers s (s.goTo s.lists.coreBackScreen) := by
  have hdepth : s.depth = s.baseDepth s.lists.coreBackScreen + 1 :=
    depth_of_screen hscreen (by decide)
  refine lowers_goTo (base_ne_powerMenu hs.coreBack) ?_
  rw [screenDepth_base s hs.coreBack]
  omega

theorem menu_selectMenuEntry (s : State) (id : CString) :
    (s.selectMenuEntry id).lists = s.lists ∧ (s.selectMenuEntry id).menuId = s.menuId ∧
      (s.selectMenuEntry id).exitRequested = s.exitRequested := by
  unfold selectMenuEntry
  split
  · exact ⟨rfl, rfl, rfl⟩
  · exact ⟨rfl, rfl, rfl⟩

theorem depth_menu (hlists : t.lists = { s.lists with screen := .startMenu }) :
    t.depth = s.baseDepth s.lists.backScreen + 1 + if t.menuId = lit "apps" then 1 else 0 := by
  have hscreen : t.screen = .startMenu := by
    unfold State.screen
    rw [hlists]
  rw [depth_of_screen hscreen (by decide)]
  show t.baseDepth t.lists.backScreen + 1 + _ = _
  unfold baseDepth listDepth
  rw [hlists]

theorem lowers_backToApps (id : CString) (inputs : Inputs)
    (hdepth : s.depth = s.baseDepth s.lists.backScreen + 4) :
    Lowers s (s.backToApps id inputs) := by
  obtain ⟨hlists, -, hexit⟩ := menu_selectMenuEntry (s.openAppsMenu inputs) id
  refine ⟨hexit, ?_⟩
  have hmenu : (s.backToApps id inputs).depth = _ := depth_menu (s := s) hlists
  rw [hmenu, hdepth]
  split <;> omega

theorem lowers_toMenu (h : s.baseDepth s.lists.backScreen + 4 ≤ s.depth) :
    Lowers s (s.goTo .startMenu) := by
  have hle := screenDepth_startMenu_le s
  exact lowers_goTo (by decide) (by omega)

theorem lowers_wifi (inputs : Inputs) (hscreen : s.screen = .wifiConnect) :
    Lowers s (s.wifiScreenAction .b inputs) := by
  have hdepth : s.depth = s.baseDepth s.lists.backScreen + 5 +
      if s.wifiStage = .password then 1 else 0 := depth_of_screen hscreen (by decide)
  have hback : Lowers s (s.wifiBack inputs) := by
    obtain ⟨hexit, hopen⟩ :=
      depth_openSettings s .network (lit "network_connect_wifi") inputs
    refine ⟨hexit, ?_⟩
    show ((s.openSettings .network inputs).selectSetting _).depth < _
    rw [hopen, hdepth]
    show s.baseDepth s.lists.backScreen + 4 + 0 < _
    omega
  unfold wifiScreenAction
  split
  · rw [if_pos (Or.inr rfl)]
    exact hback
  · exact hback
  · rename_i hstage
    rw [if_pos rfl]
    refine ⟨rfl, ?_⟩
    rw [hdepth, if_pos hstage]
    have hselect : State.depth { s with wifiStage := .select } =
        s.baseDepth s.lists.backScreen + 5 + 0 :=
      depth_of_screen (s := { s with wifiStage := .select }) hscreen (by decide)
    omega

theorem lowers_menu (hs : Homely s) (inputs : Inputs) (hscreen : s.screen = .startMenu) :
    Lowers s (s.menuScreenAction .b inputs) := by
  have hdepth : s.depth = s.baseDepth s.lists.backScreen + 1 +
      if s.menuId = lit "apps" then 1 else 0 := depth_of_screen hscreen (by decide)
  have hsame : s.lists = { s.lists with screen := .startMenu } := by
    rw [← show s.lists.screen = .startMenu from hscreen]
  have hstart : ∀ t : State, t.lists = s.lists → t.menuId = lit "start" →
      t.depth = s.baseDepth s.lists.backScreen + 1 := by
    intro t hlists hid
    rw [depth_menu (hlists.trans hsame), hid, if_neg (by decide +kernel)]
  show Lowers s (if _ then _ else _)
  split
  · rename_i happs
    rw [if_pos happs] at hdepth
    split
    · obtain ⟨hlists, hid, hexit⟩ :=
        menu_selectMenuEntry (s.clearMenuConfirm.loadStart inputs) (lit "apps")
      refine ⟨hexit, ?_⟩
      rw [hstart _ hlists hid]
      omega
    · refine ⟨rfl, ?_⟩
      rw [hstart (s.clearMenuConfirm.loadStart inputs) rfl rfl]
      omega
  · have hback := screenDepth_base s hs.back
    have hgo : Lowers s (s.goTo s.lists.backScreen) :=
      lowers_goTo (base_ne_powerMenu hs.back) (by omega)
    exact hgo

theorem lowers_settings (inputs : Inputs) (hscreen : s.screen = .settings) :
    Lowers s (s.settingsScreenAction .b inputs) := by
  have hdepth : s.depth = s.baseDepth s.lists.backScreen + 4 + s.category.depth :=
    depth_of_screen hscreen (by decide)
  have hleave : ∀ t : State, t.lists = s.lists → t.category = s.category →
      t.exitRequested = s.exitRequested → Lowers s (t.leaveSettings inputs) := by
    intro t hlists hcategory hexit
    unfold leaveSettings
    split
    · rename_i parent id hparent
      obtain ⟨hopen, hto⟩ := depth_openSettings t parent id inputs
      rw [hcategory] at hparent
      have hless := Category.depth_parent hparent
      have hbase : t.baseDepth t.lists.backScreen = s.baseDepth s.lists.backScreen := by
        unfold baseDepth listDepth
        rw [hlists]
      refine ⟨hopen.trans hexit, ?_⟩
      omega
    · refine ⟨hexit, ?_⟩
      have hmenu : (t.goTo .startMenu).depth = _ :=
        depth_menu (s := s) (t := t.goTo .startMenu) (by rw [← hlists]; rfl)
      rw [hmenu]
      split <;> omega
  unfold settingsScreenAction
  split
  · exact hleave s rfl rfl rfl
  · exact hleave s.clearFactoryReset rfl rfl rfl

theorem lowers_list (inputs : Inputs) (hbase : Base s.screen) (htop : s.screen ≠ .top) :
    Lowers s (s.listScreenAction .b inputs) := by
  have hdepth : s.depth = s.listDepth := by
    rw [depth_of_screen rfl (base_ne_powerMenu hbase), screenDepth_base s hbase]
    exact if_neg htop
  have hpos : 0 < s.listDepth := Nat.succ_pos _
  have hleft : ∀ lists : Gallery.State, lists.screen = .top →
      Lowers s { s with lists := lists } := by
    intro lists hlands
    refine ⟨rfl, ?_⟩
    rw [depth_of_screen (s := { s with lists := lists }) hlands (by decide), hdepth]
    exact hpos
  have hparent : (s.lists.openParent inputs.lists.load).1 = true →
      Lowers s { s with lists := (s.lists.openParent inputs.lists.load).2 } := by
    intro hup
    have hlands : (s.lists.openParent inputs.lists.load).2.screen = s.screen :=
      congrArg Gallery.Places.screen (Gallery.places_openParent s.lists inputs.lists.load)
    have hshorter := Gallery.romDirectory_openParent hup
    refine ⟨rfl, ?_⟩
    rw [depth_of_screen (s := { s with lists := _ }) hlands (base_ne_powerMenu hbase),
      screenDepth_base _ hbase, hdepth]
    show (if s.screen = .top then 0 else _) < _
    rw [if_neg htop]
    exact Nat.succ_lt_succ hshorter
  unfold listScreenAction
  rw [if_neg (by decide), if_neg (fun h => absurd h.1 (by decide))]
  split
  · show Lowers s { s with lists := if _ then _ else _ }
    split
    · rename_i hup
      exact hparent hup
    · exact hleft _ rfl
  · show Lowers s { s with lists := if _ then _ else _ }
    split
    · split
      · rename_i hup
        exact hparent hup
      · exact hleft _ rfl
    · exact hleft _ rfl

theorem handle_back (hstands : Stands s.screen) (hrescue : s.rescueNetwork = false) :
    s.handle .b inputs = s.screenAction .b inputs := by
  unfold handle
  rw [if_neg hstands.2.2]
  exact if_neg (by rw [hrescue]; decide)

theorem lowers_screenAction (hs : Homely s) (hstands : Stands s.screen) (htop : s.screen ≠ .top)
    (inputs : Inputs) : Lowers s (s.screenAction .b inputs) := by
  unfold screenAction
  split
  · rename_i hpower
    exact lowers_power hs hpower
  · rename_i hcore
    exact lowers_core hs hcore
  · rename_i hscraping
    exact lowers_backToApps _ inputs (depth_of_screen hscraping (by decide))
  · rename_i hresults
    exact lowers_backToApps _ inputs (depth_of_screen hresults (by decide))
  · rename_i hrescue
    exact lowers_toMenu (le_of_eq (depth_of_screen hrescue (by decide)).symm)
  · rename_i hhelp
    exact lowers_toMenu (le_of_eq (depth_of_screen hhelp (by decide)).symm)
  · rename_i hwifi
    exact lowers_wifi inputs hwifi
  · rename_i hat
    exact absurd hat htop
  · rename_i hmenu
    exact lowers_menu hs inputs hmenu
  · rename_i hsettings
    exact lowers_settings inputs hsettings
  · have hbase : Base s.screen := by
      cases hscreen : s.screen
      case thumbnailRunning => exact absurd hscreen hstands.1
      case topRefreshRunning => exact absurd hscreen hstands.2.1
      case powerActionRunning => exact absurd hscreen hstands.2.2
      all_goals first | decide | contradiction
    exact lowers_list inputs hbase htop

theorem lowers_back (hs : Homely s) (hexit : s.exitRequested = false) (htop : s.screen ≠ .top)
    (inputs : Inputs) : Lowers s (s.handleAction .b inputs) := by
  have hstands : Stands s.screen := by
    rcases hs.settled.screen with h | h
    · exact h
    · rw [hexit] at h
      cases h
  have hs' : Homely { s with event := none } := hs.same rfl rfl rfl rfl
  have hlower : ∀ u : State, Homely u → Stands u.screen → u.screen ≠ .top →
      Lowers u (u.handle .b inputs) := by
    intro u hu hustands hutop
    rw [handle_back hustands hu.rescue]
    exact lowers_screenAction hu hustands hutop inputs
  exact hlower { s with event := none } hs' hstands htop

end Back

section Runs

/-- A step in which START opens its menu only where B leads home from it. -/
def StepAtHome (s : State) (input : Input) (t : State) : Prop :=
  Step s input t ∧ input.OpensAtHome s

theorem Initial.homely (h : Initial s) : Homely s where
  settled := h.settled
  back := by rw [h.back]; decide
  coreBack := by rw [h.coreBack]; decide
  powerBack := by rw [h.powerBack]; decide
  overlay := h.overlay
  rescue := h.rescue

/-- B, pressed again and again, whatever each press finds. -/
def presses (inputs : ℕ → Inputs) (s : State) : ℕ → State :=
  iterates (fun i t => t.handleAction .b (inputs i)) s

/-- B leads home from every state of a run that has not ended. -/
theorem back_leads_home {s₀ : State} {events : List Input} (h₀ : Initial s₀)
    (hrun : Run StepAtHome s₀ events t) (hexit : t.exitRequested = false) (inputs : ℕ → Inputs) :
    ∃ n, (presses inputs t n).screen = .top := by
  have hhomely : Homely t := by
    apply hrun.keeps h₀.homely
    intro u event v hu ⟨⟨hgoes, heq⟩, hat⟩
    rw [heq]
    exact hu.step hgoes hat
  have hkeep : ∀ (n : ℕ) (u : State), Homely u ∧ u.exitRequested = false →
      Homely (u.handleAction .b (inputs n)) ∧
        (u.handleAction .b (inputs n)).exitRequested = false := by
    intro n u ⟨hu, hgoes⟩
    have hkept : Homely (u.step (.action .b (inputs n))) :=
      hu.step hgoes fun _ h => by cases h
    refine ⟨hkept, ?_⟩
    by_cases htop : u.screen = .top
    · have hstay : u.handleAction .b (inputs n) = { u with event := none } := by
        unfold handleAction
        have hstands : Stands u.screen := by rw [htop]; decide
        rw [handle_back (s := { u with event := none }) hstands hu.rescue]
        unfold screenAction
        rw [show State.screen { u with event := none } = .top from htop]
        rfl
      rw [hstay]
      exact hgoes
    · rw [(lowers_back hu hgoes htop (inputs n)).1]
      exact hgoes
  have hless : ∀ (n : ℕ) (u : State), Homely u ∧ u.exitRequested = false → ¬u.screen = .top →
      (u.handleAction .b (inputs n)).depth < u.depth :=
    fun n u hu htop => (lowers_back hu.1 hu.2 htop (inputs n)).2
  obtain ⟨n, -, hn⟩ := exists_iterate_of_descent State.depth ⟨hhomely, hexit⟩ hkeep hless
  exact ⟨n, hn⟩

/-- A START menu with the UI settings. -/
def settingsMenu : CString :=
  startMenuOf (lit "\"id\":\"ui\",\"action\":\"internal:ui-settings\"")

/-- START, and A on the UI settings. -/
def inSettings : State :=
  (atTop.handleAction .start (pressAt settingsMenu 1)).handleAction .a (pressAt settingsMenu 2)

theorem back_leads_home_sample :
    inSettings.screen = .settings ∧
      ∃ n, (presses (fun _ => pressAt settingsMenu 3) inSettings n).screen = .top := by
  have hstart : StepAtHome atTop (.action .start (pressAt settingsMenu 1))
      (atTop.handleAction .start (pressAt settingsMenu 1)) := by
    refine ⟨⟨rfl, rfl⟩, fun inputs _ hover => ?_⟩
    rcases hover with h | h | h | h | ⟨h, -⟩
    all_goals cases h
  have hpress : StepAtHome (atTop.handleAction .start (pressAt settingsMenu 1))
      (.action .a (pressAt settingsMenu 2)) inSettings := by
    refine ⟨⟨by decide +kernel, rfl⟩, fun inputs h => ?_⟩
    cases h
  have hrun := (Run.single hstart).concat hpress
  exact ⟨by decide +kernel, back_leads_home initial_atTop hrun (by decide +kernel) _⟩

/-- START once more, over the page: its B leads to the menu, and the B of the menu to the page. -/
def overSettings : State := inSettings.handleAction .start (pressAt settingsMenu 3)

/-- Between the page and the menu over it. -/
structure Trapped (s : State) : Prop where
  back : s.lists.backScreen = .settings
  rescue : s.rescueNetwork = false
  menu : s.menuId ≠ lit "apps"
  category : s.category = .ui
  screen : s.screen = .startMenu ∨ s.screen = .settings

theorem Trapped.press (hs : Trapped s) (inputs : Inputs) :
    Trapped (s.handleAction .b inputs) := by
  have hstands : Stands s.screen := by
    rcases hs.screen with h | h <;> rw [h] <;> decide
  unfold handleAction
  rw [handle_back (s := { s with event := none }) hstands hs.rescue]
  unfold screenAction
  rcases hs.screen with h | h
  · rw [show State.screen { s with event := none } = .startMenu from h]
    show Trapped (if _ then _ else _)
    rw [if_neg hs.menu]
    exact ⟨hs.back, hs.rescue, hs.menu, hs.category, .inr hs.back⟩
  · rw [show State.screen { s with event := none } = .settings from h]
    show Trapped (if _ then _ else State.leaveSettings _ inputs)
    rw [if_neg (by rw [hs.category]; decide)]
    unfold leaveSettings
    rw [show State.category (State.clearFactoryReset { s with event := none }) = .ui from
      hs.category]
    exact ⟨hs.back, hs.rescue, hs.menu, hs.category, .inl rfl⟩

theorem back_cycles :
    Initial atTop ∧ (∃ events, Run Step atTop events overSettings) ∧
      overSettings.exitRequested = false ∧
      ∀ n, (presses (fun _ => pressAt settingsMenu 4) overSettings n).screen ≠ .top := by
  have hstart : Step atTop (.action .start (pressAt settingsMenu 1))
      (atTop.handleAction .start (pressAt settingsMenu 1)) := ⟨rfl, rfl⟩
  have hpress : Step (atTop.handleAction .start (pressAt settingsMenu 1))
      (.action .a (pressAt settingsMenu 2)) inSettings := ⟨by decide +kernel, rfl⟩
  have hover : Step inSettings (.action .start (pressAt settingsMenu 3)) overSettings :=
    ⟨by decide +kernel, rfl⟩
  have htrapped : Trapped overSettings :=
    ⟨by decide +kernel, by decide +kernel, by decide +kernel, by decide +kernel,
      by decide +kernel⟩
  refine ⟨initial_atTop, ⟨_, ((Run.single hstart).concat hpress).concat hover⟩,
    by decide +kernel, fun n htop => ?_⟩
  have hstill : Trapped (presses (fun _ => pressAt settingsMenu 4) overSettings n) :=
    iterates_keeps htrapped (fun _ _ h => h.press _) n
  rcases hstill.screen with h | h
  · rw [h] at htop
    cases htop
  · rw [h] at htop
    cases htop

end Runs

end PlumosBubble.Controller
