import PlumosBubble.Controller.Changes
import PlumosBubble.Sequence.Since
import PlumosBubble.Sequence.History

/-! Confirmed actions. A prompt that is live stands for the entry under the cursor, and the presses
since have left the cursor and the screen alone; where the flag of an entry is honoured, and where
no press leaves a live prompt behind on another screen, the press that runs a flagged entry or a
factory reset is the second one. -/

namespace PlumosBubble.Controller

open Frontend State Transition Sequence
open Gallery (Screen Action)

variable {s t u : State} {action : Action} {inputs : Inputs} {records : List Record}

/-- A step with its states. -/
structure Record where
  input : Input
  before : State
  after : State

/-- When an action was handled. -/
def Record.nowMs (r : Record) : Option ℤ :=
  match r.input with
  | .action _ inputs => some inputs.nowMs
  | _ => none

/-- The clock does not go back. -/
def Clocked (records : List Record) : Prop :=
  (records.filterMap Record.nowMs).Pairwise (· ≤ ·)

/-- A step, recorded. -/
def Recorded (s : State) (r : Record) (t : State) : Prop :=
  Step s r.input t ∧ r.before = s ∧ r.after = t

section Claims

/-- The cursor of the START menu is at the entry. -/
def State.OnEntry (s : State) (entry : MenuEntry) : Prop :=
  s.screen = .startMenu ∧ s.menuEntries[s.menuCursor]? = some entry

/-- The START menu is shown with the cursor where it is in `s`. -/
def Record.AtPlace (s : State) (r : Record) : Prop :=
  r.after.screen = .startMenu ∧ r.after.menuId = s.menuId ∧ r.after.menuCursor = s.menuCursor

/-- A press of A has shown the prompt of the entry, at most 5 s before. -/
def Record.Prompts (s : State) (entry : MenuEntry) (nowMs : ℤ) (r : Record) : Prop :=
  r.AtPlace s ∧ r.before.OnEntry entry ∧ r.after.event = some (.prompted entry) ∧
    ∃ inputs, r.input = .action .a inputs ∧ nowMs ≤ inputs.nowMs + 5000

/-- The cursor of the settings page is at a factory reset of the target. -/
def State.OnReset (s : State) (target : CString) : Prop :=
  s.screen = .settings ∧
    ∃ entry, s.settingEntries[s.settingsCursor]? = some entry ∧ resetTarget entry.id = some target

/-- The page of factory resets is shown. -/
def Record.OnResets (r : Record) : Prop :=
  r.after.screen = .settings ∧ r.after.category = .systemFactoryReset

/-- UP or DOWN has moved the cursor of the page. -/
def Record.MovesCursor (r : Record) : Prop :=
  (∃ inputs, r.input = .action .up inputs ∨ r.input = .action .down inputs) ∧
    r.after.settingsCursor ≠ r.before.settingsCursor

/-- A press of A has shown the prompt of the reset, at most 5 s before. -/
def Record.PromptsReset (target : CString) (nowMs : ℤ) (r : Record) : Prop :=
  r.OnResets ∧ r.before.OnReset target ∧ r.after.event = some (.resetPrompted target) ∧
    ∃ inputs, r.input = .action .a inputs ∧ nowMs ≤ inputs.nowMs + 5000

/-- A flagged entry or a factory reset runs at the second press of A on it, without a move of the
cursor or another screen in between; an entry without the flag runs at the first. -/
structure TwoPresses (before : List Record) (r : Record) : Prop where
  entry : ∀ entry, r.after.event = some (.ran entry) → entry.confirm = true →
    ∃ inputs, r.input = .action .a inputs ∧ r.before.OnEntry entry ∧
      Since (Record.Prompts r.before entry inputs.nowMs) (Record.AtPlace r.before) before
  reset : ∀ target, r.after.event = some (.resetRan target) →
    ∃ inputs, r.input = .action .a inputs ∧ r.before.OnReset target ∧
      Since (Record.PromptsReset target inputs.nowMs) (fun q => q.OnResets ∧ ¬q.MovesCursor) before
  first : ∀ entry inputs, r.input = .action .a inputs → r.before.OnEntry entry →
    entry.available = true → entry.confirm = false → r.after.event = some (.ran entry)

/-- A prompt that can still be answered. -/
def Live (prompt : CString × ℤ) (nowMs : ℤ) : Prop := prompt ≠ ([], 0) ∧ nowMs ≤ prompt.2

/-- The flag of the entry is honoured, and the press leaves no live prompt behind. -/
structure Record.Careful (r : Record) : Prop where
  flag : ∀ inputs entry, r.input = .action .a inputs → r.before.OnEntry entry →
    entry.available = true → entry.confirm = true →
    entry.action.text = lit "internal:sd2-repair" ∧ (entry.id.text ≠ [] ∨ 0 < inputs.nowMs)
  power : ∀ inputs, r.input = .action .power inputs →
    ¬Live r.before.menuPrompt inputs.nowMs ∧ ¬Live r.before.resetPrompt inputs.nowMs
  start : ∀ inputs, r.input = .action .start inputs → ¬Live r.before.resetPrompt inputs.nowMs

end Claims

section Menu

theorem menuPrompt_change (h : Change s action inputs t) :
    t.menuPrompt = s.menuPrompt ∨ t.menuPrompt = ([], 0) ∨
      ∃ entry, action = .a ∧ s.OnEntry entry ∧ entry.available = true ∧
        entry.action.text = lit "internal:sd2-repair" ∧ entry.confirm = true ∧
        t = { s with
          menuConfirmPendingId := entry.id.text
          menuConfirmPendingUntilMs := inputs.nowMs + 5000
          event := some (.prompted entry) } := by
  cases h with
  | keeps h => exact .inl h.menuPrompt
  | startMenu _ _ h =>
    rw [h]
    exact .inl rfl
  | powerMenu _ _ h =>
    rw [h]
    exact .inl rfl
  | core lists _ _ h =>
    rw [h]
    exact .inl rfl
  | cleared _ h => exact .inr (.inl h.menuPrompt)
  | asked entry hscreen haction hentry havailable hrepair hasked h =>
    unfold confirmationReady at hasked h
    split at h
    · rename_i hconfirm
      rw [if_pos hconfirm] at hasked
      cases hasked
    · rename_i hconfirm
      rw [if_neg hconfirm] at hasked
      split at h
      · rename_i hready
        rw [if_pos hready] at hasked
        cases hasked
      · exact .inr (.inr ⟨entry, haction, ⟨hscreen, hentry⟩, havailable, hrepair,
          eq_true_of_ne_false hconfirm, h⟩)
  | ran entry _ _ _ _ _ h =>
    have hsame := h.menuPrompt
    rw [hsame]
    split
    · unfold confirmationReady
      split
      · exact .inl rfl
      · split
        · exact .inr (.inl rfl)
        · rename_i hrepair hconfirm hnot
          have hready := ‹entry.action.text = _ → _› hrepair
          unfold confirmationReady at hready
          rw [if_neg hconfirm, if_neg hnot] at hready
          cases hready
    · exact .inl rfl
  | reset entry target _ _ _ _ h =>
    rw [h]
    unfold confirmOrRunFactoryReset
    split
    · exact .inl rfl
    · exact .inl rfl

theorem screenAction_menu (h : s.screen = .startMenu) :
    s.screenAction action inputs = s.menuScreenAction action inputs := by
  unfold screenAction
  rw [h]

/-- The place of the cursor in the START menu. -/
def State.SamePlace (s t : State) (entry : MenuEntry) : Prop :=
  t.OnEntry entry ∧ t.menuId = s.menuId ∧ t.menuCursor = s.menuCursor

theorem samePlace_changeVolume {entry : MenuEntry} (h : s.OnEntry entry) (inputs : Inputs) :
    s.SamePlace (s.changeVolume inputs) entry := by
  unfold changeVolume updateSettings loadSettings
  split
  · split
    · exact ⟨h, rfl, rfl⟩
    · exact ⟨h, rfl, rfl⟩
  · exact ⟨h, rfl, rfl⟩

theorem press_live {entry : MenuEntry} (havailable : entry.available = true)
    (hrepair : entry.action.text = lit "internal:sd2-repair") (hconfirm : entry.confirm = true)
    (hprompt : s.menuPrompt.1 = entry.id.text) (hlive : Live s.menuPrompt inputs.nowMs) :
    (s.press entry inputs).menuPrompt = ([], 0) := by
  have hready : s.confirmationReady entry inputs.nowMs = (true, s.clearMenuConfirm) := by
    unfold confirmationReady
    rw [if_neg (by rw [hconfirm]; decide)]
    exact if_pos ⟨hprompt, hlive.2⟩
  unfold press
  rw [if_neg (by rw [havailable]; decide), if_pos hrepair, hready]
  exact (keeps_perform ..).menuPrompt

theorem menu_stays {entry : MenuEntry} (hentry : s.OnEntry entry)
    (havailable : entry.available = true)
    (hrepair : entry.action.text = lit "internal:sd2-repair") (hconfirm : entry.confirm = true)
    (hprompt : s.menuPrompt.1 = entry.id.text) (hlive : Live s.menuPrompt inputs.nowMs)
    (hpower : action ≠ .power) (hsame : (s.handle action inputs).menuPrompt = s.menuPrompt) :
    s.SamePlace (s.handle action inputs) entry := by
  have hstay : s.SamePlace s entry := ⟨hentry, rfl, rfl⟩
  have hnotClear : (s.handle action inputs).menuPrompt ≠ ([], 0) := by
    rw [hsame]
    exact hlive.1
  rcases handle_cases s action inputs with heq | ⟨hvolume, heq⟩ | heq | ⟨haction, -⟩ | heq
  · rw [heq]
    exact hstay
  · rw [heq]
    exact samePlace_changeVolume hentry inputs
  · rw [heq]
    exact hstay
  · exact absurd haction hpower
  · rw [screenAction_menu hentry.1] at heq
    rw [heq] at hnotClear ⊢
    cases action with
    | up | down => exact absurd rfl hnotClear
    | b =>
      refine absurd ?_ hnotClear
      show State.menuPrompt (if _ then _ else _) = _
      split
      · split
        · exact (keeps_selectMenuEntry ..).menuPrompt
        · rfl
      · rfl
    | a =>
      refine absurd ?_ hnotClear
      unfold menuScreenAction
      rw [hentry.2]
      exact press_live havailable hrepair hconfirm hprompt hlive
    | _ => exact hstay

/-- All that has been handled was handled before. -/
def Past (records : List Record) (now : ℤ) : Prop :=
  ∀ r ∈ records, ∀ nowMs, r.nowMs = some nowMs → nowMs ≤ now

theorem Past.before {r : Record} {now : ℤ} (h : Past (records ++ [r]) now) : Past records now :=
  fun q hq => h q (List.mem_append_left _ hq)

theorem Past.last {r : Record} {now : ℤ} (h : Past (records ++ [r]) now)
    (hinput : r.input = .action action inputs) : inputs.nowMs ≤ now := by
  apply h r (List.mem_append_right _ (List.mem_singleton.mpr rfl))
  unfold Record.nowMs
  rw [hinput]

/-- A live prompt of the menu stands for the entry under the cursor. -/
def MenuGuard (records : List Record) (s : State) : Prop :=
  ∀ now, Past records now → Live s.menuPrompt now →
    ∃ entry, s.OnEntry entry ∧ entry.available = true ∧
      entry.action.text = lit "internal:sd2-repair" ∧ entry.confirm = true ∧
      s.menuPrompt.1 = entry.id.text ∧
      Since (Record.Prompts s entry now) (Record.AtPlace s) records

theorem MenuGuard.same {r : Record} (hg : MenuGuard records r.before)
    (hprompt : r.after.menuPrompt = r.before.menuPrompt)
    (hplace : ∀ now entry, Past (records ++ [r]) now → Live r.before.menuPrompt now →
      r.before.OnEntry entry → entry.available = true →
      entry.action.text = lit "internal:sd2-repair" → entry.confirm = true →
      r.before.menuPrompt.1 = entry.id.text → r.before.SamePlace r.after entry) :
    MenuGuard (records ++ [r]) r.after := by
  intro now hpast hlive
  rw [hprompt] at hlive ⊢
  obtain ⟨entry, hentry, havailable, hrepair, hconfirm, hid, hsince⟩ := hg now hpast.before hlive
  obtain ⟨hafter, hmenu, hcursor⟩ :=
    hplace now entry hpast hlive hentry havailable hrepair hconfirm hid
  have hat : ∀ q : Record, q.AtPlace r.before → q.AtPlace r.after := by
    intro q ⟨hq, hqmenu, hqcursor⟩
    exact ⟨hq, hqmenu.trans hmenu.symm, hqcursor.trans hcursor.symm⟩
  refine ⟨entry, hafter, havailable, hrepair, hconfirm, hid, ?_⟩
  exact (hsince.mono (fun p hp => ⟨hat p hp.1, hp.2⟩) hat).concat ⟨hafter.1, rfl, rfl⟩

theorem MenuGuard.background {r : Record} {lists : Gallery.State} (hg : MenuGuard records r.before)
    (hplaces : lists.places = r.before.lists.places)
    (heq : r.after = { r.before with lists := lists, event := none }) :
    MenuGuard (records ++ [r]) r.after := by
  have hscreen : r.after.screen = r.before.screen := by
    rw [heq]
    exact congrArg Gallery.Places.screen hplaces
  refine hg.same (by rw [heq]; rfl) fun _ entry _ _ hentry _ _ _ _ => ?_
  have hon : r.after.OnEntry entry := ⟨hscreen.trans hentry.1, by rw [heq]; exact hentry.2⟩
  exact ⟨hon, by rw [heq], by rw [heq]⟩

theorem MenuGuard.step {r : Record} (hs : Settled r.before) (hg : MenuGuard records r.before)
    (hstep : Step r.before r.input r.after) (hcareful : r.Careful) :
    MenuGuard (records ++ [r]) r.after := by
  obtain ⟨hexit, heq⟩ := hstep
  cases hinput : r.input with
  | action action inputs =>
    rw [hinput] at heq
    have hchange : Change { r.before with event := none } action inputs r.after := by
      rw [heq]
      exact change_handle (hs.event none) hexit
    rcases menuPrompt_change hchange with hsame | hclear | ⟨entry, haction, hentry, havailable,
      hrepair, hconfirm, hafter⟩
    · refine hg.same hsame fun now entry hpast hlive hentry havailable hrepair hconfirm hid => ?_
      have hnow := hpast.last hinput
      have hliveNow : Live r.before.menuPrompt inputs.nowMs := ⟨hlive.1, Int.le_trans hnow hlive.2⟩
      have hpower : action ≠ .power := by
        intro hpower
        rw [hpower] at hinput
        exact (hcareful.power inputs hinput).1 hliveNow
      rw [heq] at hsame ⊢
      exact menu_stays (s := { r.before with event := none }) hentry havailable hrepair hconfirm
        hid hliveNow hpower hsame
    · intro now _ hlive
      exact absurd hclear hlive.1
    · intro now _ hlive
      have hplace : r.AtPlace r.after := by
        rw [Record.AtPlace, hafter]
        exact ⟨hentry.1, rfl, rfl⟩
      have hon : r.after.OnEntry entry := by
        rw [hafter]
        exact hentry
      have hprompt : r.after.menuPrompt = (entry.id.text, inputs.nowMs + 5000) := by
        rw [hafter]
        rfl
      have hevent : r.after.event = some (.prompted entry) := by rw [hafter]
      rw [hprompt] at hlive ⊢
      rw [haction] at hinput
      exact ⟨entry, hon, havailable, hrepair, hconfirm, rfl,
        .last ⟨hplace, hentry, hevent, inputs, hinput, hlive.2⟩⟩
  | render clock =>
    rw [hinput] at heq
    exact hg.background (Gallery.places_render ..) heq
  | scanned systemId load =>
    rw [hinput] at heq
    exact hg.background (Gallery.places_scanned ..) heq

end Menu

section Reset

theorem onPage_change (hs : s.OnPage) (h : Change s action inputs t) : t.OnPage := by
  have hready : ∀ entry, (s.confirmationReady entry inputs.nowMs).2.OnPage := by
    intro entry
    unfold confirmationReady
    split
    · exact hs
    · split
      · exact hs
      · exact hs
  cases h with
  | keeps h => exact h.page hs
  | startMenu _ _ h =>
    rw [h]
    exact hs
  | powerMenu _ _ h =>
    rw [h]
    exact hs
  | core lists _ _ h =>
    rw [h]
    exact hs
  | cleared _ h => exact h.page hs
  | asked entry _ _ _ _ _ _ h =>
    rw [h]
    exact hready entry
  | ran entry _ _ _ _ _ h =>
    apply h.page
    split
    · exact hready entry
    · exact hs
  | reset entry target _ _ _ _ h =>
    rw [h]
    unfold confirmOrRunFactoryReset
    split
    · exact hs
    · exact hs

theorem resetPrompt_change (h : Change s action inputs t) :
    t.resetPrompt = s.resetPrompt ∨ t.resetPrompt = ([], 0) ∨
      ∃ target, action = .a ∧ s.OnReset target ∧
        t = { s with
          factoryResetPendingTarget := target
          factoryResetPendingUntilMs := inputs.nowMs + 5000
          event := some (.resetPrompted target) } := by
  have hready : ∀ entry, (s.confirmationReady entry inputs.nowMs).2.resetPrompt =
      s.resetPrompt := by
    intro entry
    unfold confirmationReady
    split
    · rfl
    · split <;> rfl
  cases h with
  | keeps h => exact h.resetPrompt.imp_right .inl
  | startMenu _ _ h =>
    rw [h]
    exact .inl rfl
  | powerMenu _ _ h =>
    rw [h]
    exact .inl rfl
  | core lists _ _ h =>
    rw [h]
    exact .inl rfl
  | cleared _ h => exact h.resetPrompt.imp_right .inl
  | asked entry _ _ _ _ _ _ h =>
    rw [h]
    exact .inl (hready entry)
  | ran entry _ _ _ _ _ h =>
    rcases h.resetPrompt with hsame | hclear
    · left
      rw [hsame]
      show State.resetPrompt (if _ then _ else _) = _
      split
      · exact hready entry
      · rfl
    · exact .inr (.inl hclear)
  | reset entry target hscreen haction hentry htarget h =>
    unfold confirmOrRunFactoryReset at h
    split at h
    · rw [h]
      exact .inr (.inl rfl)
    · exact .inr (.inr ⟨target, haction, ⟨hscreen, entry, hentry, htarget⟩, h⟩)

theorem pressSetting_reset {device : Device} {entry : SettingEntry}
    (hentry : entry ∈ factoryResetEntries device) :
    s.pressSetting entry inputs = s ∨
      ∃ target, s.pressSetting entry inputs = s.confirmOrRunFactoryReset target inputs.nowMs := by
  obtain ⟨id, hid, heq⟩ := mem_factoryResetEntries hentry
  have hcontrol : controlType entry.id ≠ .checkbox := by
    have hall : (resetIds.all fun id => controlType (lit id) ≠ .checkbox) = true := by
      decide +kernel
    rw [heq]
    exact of_decide_eq_true (List.all_eq_true.mp hall id hid)
  have hfirst : lookUp settingActions entry.id = none := by
    have hall : (resetIds.all fun id => lookUp settingActions (lit id) = none) = true := by
      decide +kernel
    rw [heq]
    exact of_decide_eq_true (List.all_eq_true.mp hall id hid)
  have hlater : lookUp laterSettingActions entry.id = none := by
    have hall : (resetIds.all fun id => lookUp laterSettingActions (lit id) = none) = true := by
      decide +kernel
    rw [heq]
    exact of_decide_eq_true (List.all_eq_true.mp hall id hid)
  unfold pressSetting
  rw [settingControl_press hcontrol]
  dsimp only
  split
  · exact .inl rfl
  · rw [hfirst]
    dsimp only
    split
    · exact .inr ⟨_, rfl⟩
    · rw [hlater]
      exact .inl rfl

/-- The page of factory resets, with the cursor where UP and DOWN have left it. -/
def State.SamePage (s t : State) (action : Action) : Prop :=
  t.screen = .settings ∧ t.category = .systemFactoryReset ∧
    (action = .up ∨ action = .down → t.settingsCursor = s.settingsCursor)

theorem screenAction_reset (hscreen : s.screen = .settings)
    (hcategory : s.category = .systemFactoryReset) :
    s.screenAction action inputs = s.settingsAction action inputs := by
  unfold screenAction
  rw [hscreen]
  exact if_neg (by rw [hcategory]; decide)

theorem reset_stays (hscreen : s.screen = .settings) (hcategory : s.category = .systemFactoryReset)
    (hpage : s.OnPage) (hprompt : s.resetPrompt ≠ ([], 0)) (hpower : action ≠ .power)
    (hstart : action ≠ .start)
    (hsame : (s.handle action inputs).resetPrompt = s.resetPrompt) :
    s.SamePage (s.handle action inputs) action := by
  have hstay : s.SamePage s action := ⟨hscreen, hcategory, fun _ => rfl⟩
  have hnotClear : (s.handle action inputs).resetPrompt ≠ ([], 0) := by
    rw [hsame]
    exact hprompt
  have hkept : ∀ t : State, Keeps s.clearFactoryReset t → t.resetPrompt = ([], 0) :=
    fun t h => h.resetPrompt.elim id id
  rcases handle_cases s action inputs with heq | ⟨hvolume, heq⟩ | heq | ⟨haction, -⟩ | heq
  · rw [heq]
    exact hstay
  · rw [heq]
    unfold changeVolume updateSettings loadSettings
    have hother : ¬(action = .up ∨ action = .down) := by
      rcases hvolume with rfl | rfl <;> decide
    split
    · split
      · exact ⟨hscreen, hcategory, fun h => absurd h hother⟩
      · exact ⟨hscreen, hcategory, fun h => absurd h hother⟩
    · exact hstay
  · rw [heq]
    exact ⟨hscreen, hcategory, fun _ => rfl⟩
  · exact absurd haction hpower
  · rw [screenAction_reset hscreen hcategory] at heq
    rw [heq] at hnotClear ⊢
    cases action with
    | power => exact absurd rfl hpower
    | start => exact absurd rfl hstart
    | up =>
      unfold settingsAction at hnotClear ⊢
      dsimp only at hnotClear ⊢
      split
      · rename_i hmove
        rw [if_pos hmove] at hnotClear
        exact absurd rfl hnotClear
      · exact hstay
    | down =>
      unfold settingsAction at hnotClear ⊢
      dsimp only at hnotClear ⊢
      split
      · rename_i hmove
        rw [if_pos hmove] at hnotClear
        exact absurd rfl hnotClear
      · exact hstay
    | left | right =>
      refine absurd (hkept _ ?_) hnotClear
      unfold settingsAction
      dsimp only
      split
      · exact keeps_settingControl ..
      · exact .refl _
    | b => exact absurd (hkept _ (keeps_leaveSettings ..)) hnotClear
    | a =>
      unfold settingsAction
      dsimp only
      split
      · rename_i entry hentry
        obtain ⟨device, hon⟩ := hpage
        have hmem := hon entry (List.mem_of_getElem? hentry)
        rw [hcategory] at hmem
        rcases @pressSetting_reset s inputs device entry hmem with hnone | ⟨target, hreset⟩
        · rw [hnone]
          exact hstay
        · rw [hreset]
          unfold confirmOrRunFactoryReset
          split
          · exact ⟨hscreen, hcategory, fun _ => rfl⟩
          · exact ⟨hscreen, hcategory, fun _ => rfl⟩
      · exact hstay
    | _ => exact hstay

/-- A live prompt of a factory reset stands for the page of factory resets. -/
def ResetGuard (records : List Record) (s : State) : Prop :=
  ∀ now, Past records now → Live s.resetPrompt now →
    s.screen = .settings ∧ s.category = .systemFactoryReset ∧
      Since (Record.PromptsReset s.resetPrompt.1 now) (fun q => q.OnResets ∧ ¬q.MovesCursor)
        records

theorem ResetGuard.same {r : Record} (hg : ResetGuard records r.before)
    (hprompt : r.after.resetPrompt = r.before.resetPrompt)
    (hpage : ∀ now, Past (records ++ [r]) now → Live r.before.resetPrompt now →
      r.before.screen = .settings → r.before.category = .systemFactoryReset →
      r.OnResets ∧ ¬r.MovesCursor) :
    ResetGuard (records ++ [r]) r.after := by
  intro now hpast hlive
  rw [hprompt] at hlive ⊢
  obtain ⟨hscreen, hcategory, hsince⟩ := hg now hpast.before hlive
  have hafter := hpage now hpast hlive hscreen hcategory
  exact ⟨hafter.1.1, hafter.1.2, hsince.concat hafter⟩

theorem ResetGuard.background {r : Record} {lists : Gallery.State}
    (hg : ResetGuard records r.before) (hplaces : lists.places = r.before.lists.places)
    (heq : r.after = { r.before with lists := lists, event := none }) :
    ResetGuard (records ++ [r]) r.after := by
  have hafter : r.after.screen = r.before.screen := by
    rw [heq]
    exact congrArg Gallery.Places.screen hplaces
  refine hg.same (by rw [heq]; rfl) fun _ _ _ hscreen hcategory => ?_
  refine ⟨⟨hafter.trans hscreen, ?_⟩, fun hmoves => hmoves.2 ?_⟩
  · rw [heq]
    exact hcategory
  · rw [heq]

theorem category_of_onReset {target : CString} (hpage : s.OnPage) (h : s.OnReset target) :
    s.category = .systemFactoryReset := by
  obtain ⟨device, hon⟩ := hpage
  obtain ⟨-, entry, hentry, htarget⟩ := h
  by_contra hcategory
  rw [resetTarget_page hcategory (hon entry (List.mem_of_getElem? hentry))] at htarget
  cases htarget

theorem ResetGuard.step {r : Record} (hs : Settled r.before) (hpage : r.before.OnPage)
    (hg : ResetGuard records r.before) (hstep : Step r.before r.input r.after)
    (hcareful : r.Careful) : ResetGuard (records ++ [r]) r.after := by
  obtain ⟨hexit, heq⟩ := hstep
  cases hinput : r.input with
  | action action inputs =>
    rw [hinput] at heq
    have hchange : Change { r.before with event := none } action inputs r.after := by
      rw [heq]
      exact change_handle (hs.event none) hexit
    rcases resetPrompt_change hchange with hsame | hclear | ⟨target, haction, hon, hafter⟩
    · refine hg.same hsame fun now hpast hlive hscreen hcategory => ?_
      have hnow := hpast.last hinput
      have hliveNow : Live r.before.resetPrompt inputs.nowMs :=
        ⟨hlive.1, Int.le_trans hnow hlive.2⟩
      have hpower : action ≠ .power := by
        intro hpower
        rw [hpower] at hinput
        exact (hcareful.power inputs hinput).2 hliveNow
      have hstart : action ≠ .start := by
        intro hstart
        rw [hstart] at hinput
        exact hcareful.start inputs hinput hliveNow
      have hstays : State.SamePage { r.before with event := none } r.after action := by
        rw [heq] at hsame ⊢
        exact reset_stays (s := { r.before with event := none }) hscreen hcategory hpage hlive.1
          hpower hstart hsame
      refine ⟨⟨hstays.1, hstays.2.1⟩, fun ⟨⟨other, hother⟩, hmoved⟩ => hmoved (hstays.2.2 ?_)⟩
      rw [hinput] at hother
      rcases hother with h | h
      · cases h
        exact .inl rfl
      · cases h
        exact .inr rfl
    · intro now _ hlive
      exact absurd hclear hlive.1
    · intro now _ hlive
      have hcategory : r.before.category = .systemFactoryReset :=
        category_of_onReset (s := { r.before with event := none }) hpage hon
      have hresets : r.OnResets := by
        rw [Record.OnResets, hafter]
        exact ⟨hon.1, hcategory⟩
      have hprompt : r.after.resetPrompt = (target, inputs.nowMs + 5000) := by
        rw [hafter]
        rfl
      have hevent : r.after.event = some (.resetPrompted target) := by rw [hafter]
      rw [hprompt] at hlive ⊢
      rw [haction] at hinput
      exact ⟨hresets.1, hresets.2, .last ⟨hresets, hon, hevent, inputs, hinput, hlive.2⟩⟩
  | render clock =>
    rw [hinput] at heq
    exact hg.background (Gallery.places_render ..) heq
  | scanned systemId load =>
    rw [hinput] at heq
    exact hg.background (Gallery.places_scanned ..) heq

end Reset

section Events

theorem event_confirmationReady {entry : MenuEntry} {nowMs : ℤ} :
    (s.confirmationReady entry nowMs).2.event = s.event ∨
      (s.confirmationReady entry nowMs).2.event = some (.prompted entry) := by
  unfold confirmationReady
  split
  · exact .inl rfl
  · split
    · exact .inl rfl
    · exact .inr rfl

theorem asked_of_ready {entry : MenuEntry} {nowMs : ℤ} (hconfirm : entry.confirm = true)
    (h : (s.confirmationReady entry nowMs).1 = true) :
    s.menuPrompt.1 = entry.id.text ∧ nowMs ≤ s.menuPrompt.2 := by
  unfold confirmationReady at h
  rw [if_neg (by rw [hconfirm]; decide)] at h
  split at h
  · rename_i hready
    exact hready
  · cases h

/-- What can come out of an action: an entry is run by A on it, behind its confirmation where that
is asked for, and a factory reset by A on it, with its prompt still live. -/
theorem event_change (h : Change s action inputs t) :
    t.event = s.event ∨ (∃ entry, t.event = some (.prompted entry)) ∨
      (∃ entry, t.event = some (.ran entry) ∧ action = .a ∧ s.OnEntry entry ∧
        entry.available = true ∧ (entry.action.text = lit "internal:sd2-repair" →
          entry.confirm = true →
          s.menuPrompt.1 = entry.id.text ∧ inputs.nowMs ≤ s.menuPrompt.2)) ∨
      (∃ target, t.event = some (.resetPrompted target)) ∨
      ∃ target, t.event = some (.resetRan target) ∧ action = .a ∧ s.OnReset target ∧
        s.resetPrompt.1 = target ∧ inputs.nowMs ≤ s.resetPrompt.2 := by
  cases h with
  | keeps h => exact .inl h.event
  | startMenu _ _ h =>
    rw [h]
    exact .inl rfl
  | powerMenu _ _ h =>
    rw [h]
    exact .inl rfl
  | core lists _ _ h =>
    rw [h]
    exact .inl rfl
  | cleared _ h => exact .inl h.event
  | asked entry _ _ _ _ _ _ h =>
    rw [h]
    exact event_confirmationReady.imp_right fun h => .inl ⟨entry, h⟩
  | ran entry hscreen haction hentry havailable hready h =>
    exact .inr (.inr (.inl ⟨entry, h.event, haction, ⟨hscreen, hentry⟩, havailable,
      fun hrepair hconfirm => asked_of_ready hconfirm (hready hrepair)⟩))
  | reset entry target hscreen haction hentry htarget h =>
    rw [h]
    unfold confirmOrRunFactoryReset
    split
    · rename_i hready
      exact .inr (.inr (.inr (.inr ⟨target, rfl, haction, ⟨hscreen, entry, hentry, htarget⟩,
        hready.1, hready.2⟩)))
    · exact .inr (.inr (.inr (.inl ⟨target, rfl⟩)))

theorem event_press {entry : MenuEntry} (havailable : entry.available = true)
    (hconfirm : entry.confirm = false) : (s.press entry inputs).event = some (.ran entry) := by
  have hready : s.confirmationReady entry inputs.nowMs = (true, s) := if_pos hconfirm
  have hrun : (s.runEntry entry inputs).event = some (.ran entry) :=
    (keeps_perform { s with event := some (.ran entry) } inputs entry).event
  unfold press
  rw [if_neg (by rw [havailable]; decide), hready]
  split
  · exact hrun
  · exact hrun

theorem rescue_change (h : Change s action inputs t) : t.rescueNetwork = s.rescueNetwork := by
  have hready : ∀ entry, (s.confirmationReady entry inputs.nowMs).2.rescueNetwork =
      s.rescueNetwork := by
    intro entry
    unfold confirmationReady
    split
    · rfl
    · split <;> rfl
  cases h with
  | keeps h => exact h.rescue
  | startMenu _ _ h => rw [h]; rfl
  | powerMenu _ _ h => rw [h]; rfl
  | core lists _ _ h => rw [h]
  | cleared _ h => exact h.rescue
  | asked entry _ _ _ _ _ _ h =>
    rw [h]
    exact hready entry
  | ran entry _ _ _ _ _ h =>
    refine h.rescue.trans ?_
    show State.rescueNetwork (if _ then _ else _) = _
    split
    · exact hready entry
    · rfl
  | reset entry target _ _ _ _ h =>
    rw [h]
    unfold confirmOrRunFactoryReset
    split <;> rfl

end Events

section Runs

/-- A step that honours the flag and leaves no live prompt behind. -/
def CarefulStep (s : State) (r : Record) (t : State) : Prop := Recorded s r t ∧ r.Careful

/-- What a run has established. -/
structure Guarded (records : List Record) (s : State) : Prop where
  settled : Settled s
  rescue : s.rescueNetwork = false
  page : s.OnPage
  menu : MenuGuard records s
  reset : ResetGuard records s

theorem Initial.guarded (h : Initial s) : Guarded [] s where
  settled := h.settled
  rescue := h.rescue
  page := ⟨⟨false, false, false, false, false, false, false⟩, fun entry hentry => by
    rw [h.settings] at hentry
    cases hentry⟩
  menu := fun _ _ hlive => absurd h.menuPrompt hlive.1
  reset := fun _ _ hlive => absurd h.resetPrompt hlive.1

theorem Guarded.step {r : Record} (hg : Guarded records r.before)
    (hstep : Step r.before r.input r.after) (hcareful : r.Careful) :
    Guarded (records ++ [r]) r.after := by
  have hsettled : Settled r.after := by
    rw [hstep.2]
    exact hg.settled.step hstep.1 r.input
  have hkept : r.after.rescueNetwork = r.before.rescueNetwork ∧ r.after.OnPage := by
    rw [hstep.2]
    cases r.input with
    | action action inputs =>
      have hchange : Change { r.before with event := none } action inputs
          (r.before.step (.action action inputs)) :=
        change_handle (hg.settled.event none) hstep.1
      exact ⟨rescue_change (s := { r.before with event := none }) hchange,
        onPage_change (s := { r.before with event := none }) hg.page hchange⟩
    | render clock => exact ⟨rfl, hg.page⟩
    | scanned systemId load => exact ⟨rfl, hg.page⟩
  exact ⟨hsettled, hkept.1.trans hg.rescue, hkept.2, hg.menu.step hg.settled hstep hcareful,
    hg.reset.step hg.settled hg.page hstep hcareful⟩

theorem Clocked.before {r : Record} (h : Clocked (records ++ [r])) : Clocked records := by
  unfold Clocked at h ⊢
  rw [List.filterMap_append] at h
  exact (List.pairwise_append.mp h).1

theorem Clocked.past {r : Record} (h : Clocked (records ++ [r]))
    (hinput : r.input = .action action inputs) : Past records inputs.nowMs := by
  intro q hq nowMs hnow
  have hlast : r.nowMs = some inputs.nowMs := by
    unfold Record.nowMs
    rw [hinput]
  unfold Clocked at h
  rw [List.filterMap_append] at h
  refine (List.pairwise_append.mp h).2.2 nowMs (List.mem_filterMap.mpr ⟨q, hq, hnow⟩)
    inputs.nowMs (List.mem_filterMap.mpr ⟨r, List.mem_singleton.mpr rfl, hlast⟩)

theorem Guarded.entry {r : Record} {entry : MenuEntry} (hg : Guarded records r.before)
    (hcareful : r.Careful) (hpast : Past records inputs.nowMs)
    (hinput : r.input = .action .a inputs) (hentry : r.before.OnEntry entry)
    (havailable : entry.available = true) (hconfirm : entry.confirm = true)
    (hready : entry.action.text = lit "internal:sd2-repair" → entry.confirm = true →
      r.before.menuPrompt.1 = entry.id.text ∧ inputs.nowMs ≤ r.before.menuPrompt.2) :
    Since (Record.Prompts r.before entry inputs.nowMs) (Record.AtPlace r.before) records := by
  obtain ⟨hrepair, hclock⟩ := hcareful.flag inputs entry hinput hentry havailable hconfirm
  have hasked := hready hrepair hconfirm
  have hlive : Live r.before.menuPrompt inputs.nowMs := by
    refine ⟨fun hclear => ?_, hasked.2⟩
    rw [hclear] at hasked
    rcases hclock with hnonempty | hpositive
    · exact hnonempty hasked.1.symm
    · exact absurd hasked.2 (Int.not_le.mpr hpositive)
  obtain ⟨prompted, hprompted, -, -, -, -, hsince⟩ := hg.menu inputs.nowMs hpast hlive
  have hsame : some prompted = some entry := hprompted.2.symm.trans hentry.2
  cases hsame
  exact hsince

theorem Guarded.factoryReset {r : Record} {target : CString} (hg : Guarded records r.before)
    (hpast : Past records inputs.nowMs) (hon : r.before.OnReset target)
    (hprompt : r.before.resetPrompt.1 = target) (hnow : inputs.nowMs ≤ r.before.resetPrompt.2) :
    Since (Record.PromptsReset target inputs.nowMs) (fun q => q.OnResets ∧ ¬q.MovesCursor)
      records := by
  have hlive : Live r.before.resetPrompt inputs.nowMs := by
    refine ⟨fun hclear => ?_, hnow⟩
    obtain ⟨-, entry, -, htarget⟩ := hon
    rw [hclear] at hprompt
    exact resetTarget_ne_nil htarget hprompt.symm
  obtain ⟨-, -, hsince⟩ := hg.reset inputs.nowMs hpast hlive
  rw [hprompt] at hsince
  exact hsince

theorem event_handle_press {entry : MenuEntry} (hrescue : s.rescueNetwork = false)
    (hentry : s.OnEntry entry) (havailable : entry.available = true)
    (hconfirm : entry.confirm = false) :
    (s.handle .a inputs).event = some (.ran entry) := by
  unfold handle
  rw [if_neg (by rw [hentry.1]; decide)]
  dsimp only
  rw [if_neg (by rw [hrescue]; decide), screenAction_menu hentry.1]
  unfold menuScreenAction
  dsimp only
  rw [hentry.2]
  exact event_press havailable hconfirm

theorem Guarded.first {r : Record} {entry : MenuEntry} (hg : Guarded records r.before)
    (heq : r.after = r.before.handleAction .a inputs) (hentry : r.before.OnEntry entry)
    (havailable : entry.available = true) (hconfirm : entry.confirm = false) :
    r.after.event = some (.ran entry) := by
  rw [heq]
  exact event_handle_press (s := { r.before with event := none }) hg.rescue hentry havailable
    hconfirm

theorem Guarded.twoPresses {r : Record} (hg : Guarded records r.before)
    (hclock : Clocked (records ++ [r])) (hstep : Step r.before r.input r.after)
    (hcareful : r.Careful) : TwoPresses records r := by
  obtain ⟨hexit, heq⟩ := hstep
  have hfirst : ∀ entry inputs, r.input = .action .a inputs → r.before.OnEntry entry →
      entry.available = true → entry.confirm = false → r.after.event = some (.ran entry) := by
    intro entry inputs hinput hentry
    rw [hinput] at heq
    exact hg.first heq hentry
  have hquiet : (∃ action inputs, r.input = .action action inputs) ∨ r.after.event = none := by
    rw [heq]
    cases r.input with
    | action action inputs => exact .inl ⟨action, inputs, rfl⟩
    | render clock => exact .inr rfl
    | scanned systemId load => exact .inr rfl
  rcases hquiet with ⟨action, inputs, hinput⟩ | hnone
  · rw [hinput] at heq
    have hchange : Change { r.before with event := none } action inputs r.after := by
      rw [heq]
      exact change_handle (hg.settled.event none) hexit
    have hevent := event_change hchange
    have hpast := hclock.past hinput
    refine ⟨fun entry hran hconfirm => ?_, fun target hran => ?_, hfirst⟩
    · rw [hran] at hevent
      rcases hevent with h | ⟨other, h⟩ | ⟨other, h, haction, hentry, havailable, hready⟩ |
        ⟨other, h⟩ | ⟨other, h, -⟩
      case inr.inr.inl =>
        cases h
        rw [haction] at hinput
        exact ⟨inputs, hinput, hentry,
          hg.entry hcareful hpast hinput hentry havailable hconfirm hready⟩
      all_goals cases h
    · rw [hran] at hevent
      rcases hevent with h | ⟨other, h⟩ | ⟨other, h, -⟩ | ⟨other, h⟩ |
        ⟨other, h, haction, hon, hprompt, hnow⟩
      case inr.inr.inr.inr =>
        cases h
        rw [haction] at hinput
        exact ⟨inputs, hinput, hon, hg.factoryReset hpast hon hprompt hnow⟩
      all_goals cases h
  · refine ⟨fun entry hran => ?_, fun target hran => ?_, hfirst⟩
    · rw [hnone] at hran
      cases hran
    · rw [hnone] at hran
      cases hran

/-- Over a run whose clock does not go back. -/
theorem confirmed_by_two_presses {s₀ : State} (h₀ : Initial s₀)
    (hrun : Run CarefulStep s₀ records t) (hclock : Clocked records) :
    Always TwoPresses records := by
  have hall : Guarded records t ∧ (Clocked records → Always TwoPresses records) := by
    refine hrun.invariant (I := fun records t => Guarded records t ∧
      (Clocked records → Always TwoPresses records)) ⟨h₀.guarded, fun _ => .nil⟩ ?_
    intro records s r t _ ⟨hg, halways⟩ ⟨⟨hstep, hbefore, hafter⟩, hcareful⟩
    subst hbefore hafter
    exact ⟨hg.step hstep hcareful, fun hclock =>
      (halways hclock.before).concat (hg.twoPresses hclock hstep hcareful)⟩
  exact hall.2 hclock

/-- A START menu with the repair of the second card, which is flagged. -/
def repairMenu : CString :=
  startMenuOf (lit "\"id\":\"sd2_repair\",\"action\":\"internal:sd2-repair\",\"confirm\":true")

/-- A START menu with a reboot that is flagged. -/
def rebootMenu : CString :=
  startMenuOf (lit "\"id\":\"reboot\",\"action\":\"system:reboot\",\"confirm\":true")

/-- The press of an action at a time, where the START menu is that of the file. -/
def pressed (menus : CString) (s : State) (action : Action) (nowMs : ℤ) : Record where
  input := .action action (pressAt menus nowMs)
  before := s
  after := s.handleAction action (pressAt menus nowMs)

theorem recorded_pressed {menus : CString} {nowMs : ℤ} (h : s.exitRequested = false) :
    Recorded s (pressed menus s action nowMs) (s.handleAction action (pressAt menus nowMs)) :=
  ⟨⟨h, rfl⟩, rfl, rfl⟩

/-- START, and A twice within five seconds. -/
def opened (menus : CString) : State := atTop.handleAction .start (pressAt menus 1)

def once (menus : CString) : State := (opened menus).handleAction .a (pressAt menus 1000)

def repairs : List Record :=
  [pressed repairMenu atTop .start 1, pressed repairMenu (opened repairMenu) .a 1000,
    pressed repairMenu (once repairMenu) .a 4000]

def repaired : State := (once repairMenu).handleAction .a (pressAt repairMenu 4000)

/-- Whether an entry that is flagged has run. -/
def runsFlagged : Option Event → Bool
  | some (.ran entry) => entry.confirm
  | _ => false

theorem exists_of_runsFlagged {event : Option Event} (h : runsFlagged event = true) :
    ∃ entry, event = some (.ran entry) ∧ entry.confirm = true := by
  unfold runsFlagged at h
  split at h
  · exact ⟨_, rfl, h⟩
  · cases h

theorem careful_press {menus : CString} {nowMs : ℤ}
    (h : (s.menuEntries.all fun entry =>
      entry.action.text = lit "internal:sd2-repair" ∧ entry.id.text ≠ []) = true) :
    (pressed menus s .a nowMs).Careful := by
  refine ⟨fun _ entry _ hentry _ _ => ?_, fun _ hinput => ?_, fun _ hinput => ?_⟩
  · have hmem := List.all_eq_true.mp h entry (List.mem_of_getElem? hentry.2)
    obtain ⟨hrepair, hid⟩ := of_decide_eq_true hmem
    exact ⟨hrepair, .inl hid⟩
  · cases hinput
  · cases hinput

theorem confirmed_by_two_presses_sample :
    (∃ entry, repaired.event = some (.ran entry) ∧ entry.confirm = true) ∧
      Always TwoPresses repairs := by
  have hstart : (pressed repairMenu atTop .start 1).Careful := by
    refine ⟨fun _ _ hinput => ?_, fun _ hinput => ?_, fun _ _ hlive => hlive.1 rfl⟩
    · cases hinput
    · cases hinput
  have hprompt : (pressed repairMenu (opened repairMenu) .a 1000).Careful :=
    careful_press (by decide +kernel)
  have hpress : (pressed repairMenu (once repairMenu) .a 4000).Careful :=
    careful_press (by decide +kernel)
  have hrun : Run CarefulStep atTop repairs repaired :=
    ((Run.single ⟨recorded_pressed rfl, hstart⟩).concat
      ⟨recorded_pressed (by decide +kernel), hprompt⟩).concat
      ⟨recorded_pressed (by decide +kernel), hpress⟩
  have hclock : Clocked repairs := by
    unfold Clocked
    decide
  exact ⟨exists_of_runsFlagged (by decide +kernel),
    confirmed_by_two_presses initial_atTop hrun hclock⟩

/-- The same presses on the reboot: it runs at the first. -/
def reboots : List Record :=
  [pressed rebootMenu atTop .start 1, pressed rebootMenu (opened rebootMenu) .a 1000]

theorem reboot_at_first_press :
    Initial atTop ∧ Run Recorded atTop reboots (once rebootMenu) ∧ Clocked reboots ∧
      ¬Always TwoPresses reboots := by
  have hrun : Run Recorded atTop reboots (once rebootMenu) :=
    (Run.single (recorded_pressed rfl)).concat (recorded_pressed (by decide +kernel))
  have hclock : Clocked reboots := by
    unfold Clocked
    decide
  refine ⟨initial_atTop, hrun, hclock, fun halways => ?_⟩
  have htwo := halways [pressed rebootMenu atTop .start 1] _ [] rfl
  obtain ⟨entry, hran, hconfirm⟩ : ∃ entry, (once rebootMenu).event = some (.ran entry) ∧
      entry.confirm = true := exists_of_runsFlagged (by decide +kernel)
  obtain ⟨inputs, -, -, before, p, after, hsplit, hprompts, -⟩ := htwo.entry entry hran hconfirm
  have hp : p ∈ [pressed rebootMenu atTop .start 1] := by
    rw [hsplit]
    exact List.mem_append_right _ List.mem_cons_self
  rw [List.mem_singleton.mp hp] at hprompts
  have hnone : (opened rebootMenu).event = none :=
    Option.isNone_iff_eq_none.mp (by decide +kernel)
  have hevent : (opened rebootMenu).event = some (.prompted entry) := hprompts.2.2.1
  rw [hnone] at hevent
  cases hevent

end Runs

end PlumosBubble.Controller
