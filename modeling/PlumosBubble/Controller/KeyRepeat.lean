import Mathlib.Algebra.Order.Ring.Int
import PlumosBubble.Frontend.Gallery
import PlumosBubble.Sequence.History

/-! Keys that repeat. The event loop of `plumos_controller_ui.c` records the key or the axis whose
action repeats, and forgets it when `read_input_actions` reads its release. Two more places take
events from the device, `settle_input_after_child` and the window in which input is ignored; they
drop what they take. -/

namespace PlumosBubble.Controller.KeyRepeat

open Sequence
open Gallery (Screen Action)

/-- `struct input_event`; events of other types are passed over. -/
inductive InputEvent where
  | key (code : UInt16) (value : ℤ)
  | abs (code : UInt16) (value : ℤ)
  | other
  deriving DecidableEq

/-- The cases of `action_from_key_code`. -/
def keyActions : List (ℕ × Action) :=
  [(103, .up), (544, .up), (108, .down), (545, .down), (105, .left), (546, .left), (106, .right),
    (547, .right), (57, .a), (305, .a), (44, .a), (7, .a), (29, .b), (304, .b), (9, .b), (42, .x),
    (307, .x), (45, .x), (308, .y), (56, .y), (21, .y), (28, .start), (139, .start), (315, .start),
    (102, .start), (10, .start), (316, .function), (704, .function), (97, .select), (353, .select),
    (314, .select), (116, .power), (16, .quit)]

/-- `action_from_key_code`. -/
def actionFromKeyCode (code : UInt16) : Action := (keyActions.lookup code.toNat).getD .none

/-- `KEY_POWER`. -/
def keyPower : UInt16 := 116

/-- `UI_ABS_AXIS_DEADZONE`. -/
def deadzone : ℤ := 512

/-- `action_from_abs_event`, with whether the axis counts as released; `analog` is false where the
sticks do not navigate. -/
def actionFromAbsEvent (analog : Bool) (code : UInt16) (value : ℤ) : Action × Bool :=
  if code = 0 ∨ code = 1 then
    if analog = false then (.none, true)
    else if value ≤ -deadzone then (if code = 0 then .left else .up, false)
    else if deadzone ≤ value then (if code = 0 then .right else .down, false)
    else (.none, true)
  else if code = 16 ∨ code = 17 then
    if value < 0 then (if code = 16 then .left else .up, false)
    else if 0 < value then (if code = 16 then .right else .down, false)
    else (.none, true)
  else (.none, false)

/-- `UI_ABS_REPEAT_CODE_BASE | code`. -/
def absRepeatCode (code : UInt16) : ℕ := 2 ^ 16 ||| code.toNat

/-- What `action_repeat_interval_ms` reads of the screen; `valueRepeats` tells whether the setting
under the cursor is a number or a choice that can be changed. -/
structure View where
  screen : Screen
  wifiPassword : Bool
  topStrip : Bool
  brightnessTest : Bool
  valueRepeats : Bool

/-- `action_repeat_interval_ms`. -/
def actionRepeatIntervalMs (v : View) (action : Action) : ℤ :=
  let sideways := action = .left ∨ action = .right
  if action = .up ∨ action = .down then 95
  else if action = .volumeDown ∨ action = .volumeUp then 95
  else if v.screen = .wifiConnect ∧ v.wifiPassword ∧ sideways then 95
  else if v.screen = .top ∧ v.topStrip ∧ sideways then 95
  else if v.screen = .gallery ∧ sideways then 95
  else if v.screen = .settings ∧ v.brightnessTest ∧ sideways then 95
  else if v.screen = .settings ∧ v.valueRepeats ∧ sideways then 250
  else 0

/-- The fields of `struct ui_state` that the event loop repeats by, and whether it goes on. -/
structure Loop where
  repeatAction : Action
  repeatKeyCode : ℕ
  repeatNextMs : ℤ
  ignoreInputUntilMs : ℤ
  view : View
  running : Bool

/-- The event loop as it starts. -/
def Loop.start (view : View) : Loop := ⟨.none, 0, 0, 0, view, true⟩

/-- What a run records: an event taken from the input device, and an action that repeats handled
for a key or an axis. -/
inductive Record where
  | consumed (event : InputEvent)
  | repeated (code : ℕ)
  deriving DecidableEq

/-- What `handle_action` does that bears on repeating: the screen changes,
`settle_input_after_child` drops events, a power action stops the repeating, or the UI is asked to
exit. -/
inductive Effect where
  | view (view : View)
  | settle (dropped : List InputEvent) (nowMs : ℤ)
  | stopRepeat
  | exit

/-- What `poll` leads to: the loop ends, a scan that has ended is shown, nothing is ready in time,
or there is something to read. The clock is read for the end of the window and for each press. -/
inductive Polled where
  | stop
  | refresh
  | timeout
  | ready (nowMs : ℤ) (events : List (InputEvent × ℤ)) (power : List InputEvent)
      (stdin : List Action)

/-- One pass of the event loop: the screen at its start, what it polls, the clock as a repeat reads
it twice, and what the action does that is handled. -/
structure Turn where
  view : View
  polled : Polled
  dueMs : ℤ
  nowMs : ℤ
  effects : List Effect

namespace Loop

variable (analog : Bool) (s : Loop)

def clearRepeat : Loop := { s with repeatAction := .none, repeatKeyCode := 0, repeatNextMs := 0 }

/-- A release of `code`. -/
def release (code : ℕ) : Loop :=
  if s.repeatAction ≠ .none ∧ s.repeatKeyCode = code then s.clearRepeat else s

/-- A press of `code`, which repeats if `intervalMs` is positive. -/
def press (action : Action) (code : ℕ) (intervalMs nextMs : ℤ) : Loop :=
  if 0 < intervalMs then
    { s with repeatAction := action, repeatKeyCode := code, repeatNextMs := nextMs }
  else s

/-- The body of `read_input_actions` for the input device. -/
def readEvent (action : Action) : InputEvent × ℤ → Loop × Action
  | (.key code value, nowMs) =>
    let event := actionFromKeyCode code
    let intervalMs := actionRepeatIntervalMs s.view event
    if value = 0 then (s.release code.toNat, action)
    else if value = 1 ∨ value = 2 then
      (s.press event code.toNat intervalMs (nowMs + if value = 1 then 350 else intervalMs), event)
    else (s, action)
  | (.abs code value, nowMs) =>
    let (event, released) := actionFromAbsEvent analog code value
    if released then (s.release (absRepeatCode code), action)
    else if event = .none then (s, action)
    else if s.repeatAction = event ∧ s.repeatKeyCode = absRepeatCode code then (s, action)
    else
      let intervalMs := actionRepeatIntervalMs s.view event
      (s.press event (absRepeatCode code) intervalMs (nowMs + 350), event)
  | (.other, _) => (s, action)

/-- `read_input_actions` for the input device. -/
def readActions : Loop → Action → List (InputEvent × ℤ) → Loop × Action
  | s, action, [] => (s, action)
  | s, action, event :: rest =>
    let (s, action) := s.readEvent analog action event
    readActions s action rest

/-- The body of `read_input_actions` for the power key. -/
def readPower (action : Action) : InputEvent → Action
  | .key code value => if code = keyPower ∧ (value = 1 ∨ value = 2) then .power else action
  | _ => action

/-- The action that repeats, if it is due. -/
def fire (dueMs nowMs : ℤ) : Loop × Action :=
  if s.repeatAction ≠ .none ∧ s.repeatNextMs ≤ dueMs then
    let intervalMs := actionRepeatIntervalMs s.view s.repeatAction
    if 0 < intervalMs then ({ s with repeatNextMs := nowMs + intervalMs }, s.repeatAction)
    else (s.clearRepeat, .none)
  else (s, .none)

/-- A due action with its record. -/
def fired (dueMs nowMs : ℤ) : Loop × Action × List Record :=
  let (s', action) := s.fire dueMs nowMs
  (s', action, if action = .none then [] else [.repeated s.repeatKeyCode])

/-- A pass of the loop up to the action that it handles. -/
def input (t : Turn) : Loop × Action × List Record :=
  let s := { s with view := t.view }
  match t.polled with
  | .stop => ({ s with running := false }, .none, [])
  | .refresh => (s, .none, [])
  | .timeout => s.fired t.dueMs t.nowMs
  | .ready nowMs events power stdin =>
    let taken := events.map fun event => Record.consumed event.1
    if nowMs < s.ignoreInputUntilMs then (s, .none, taken)
    else
      let (s, action) := readActions analog s .none events
      let action := power.foldl readPower action
      let action := stdin.foldl (fun action key => if key = .none then action else key) action
      if action = .none then
        let (s, action, records) := s.fired t.dueMs t.nowMs
        (s, action, taken ++ records)
      else (s, action, taken)

def effect : Effect → Loop × List Record
  | .view view => ({ s with view }, [])
  | .settle dropped nowMs =>
    ({ s with ignoreInputUntilMs := nowMs + 750 }, dropped.map Record.consumed)
  | .stopRepeat => (s.clearRepeat, [])
  | .exit => ({ s with running := false }, [])

def applyEffects : Loop → List Effect → Loop × List Record
  | s, [] => (s, [])
  | s, e :: rest =>
    let (s, records) := s.effect e
    let (s, more) := applyEffects s rest
    (s, records ++ more)

/-- `handle_action`. -/
def handleAction (action : Action) (effects : List Effect) : Loop × List Record :=
  if action = .none then (s, [])
  else
    let (s, records) := s.applyEffects effects
    ({ s with running := s.running && !decide (action = .quit) }, records)

/-- One pass of `run_event_loop`. -/
def step (t : Turn) : Loop × List Record :=
  if s.running then
    let (s, action, records) := s.input analog t
    let (s, more) := s.handleAction action t.effects
    (s, records ++ more)
  else (s, [])

/-- Passes one after another. -/
def run : Loop → List Turn → Loop × List Record
  | s, [] => (s, [])
  | s, t :: rest =>
    let (s, records) := s.step analog t
    let (s, more) := run s rest
    (s, records ++ more)

end Loop

section Touches

variable (analog : Bool)

/-- The key or the axis that an event is about, and whether it is pressed. -/
def touch : InputEvent → Option (ℕ × Bool)
  | .key code value =>
    if value = 0 then some (code.toNat, false)
    else if value = 1 ∨ value = 2 then some (code.toNat, true)
    else none
  | .abs code value =>
    let (action, released) := actionFromAbsEvent analog code value
    if released then some (absRepeatCode code, false)
    else if action = .none then none
    else some (absRepeatCode code, true)
  | .other => none

/-- How the events leave a key or an axis: pressed, released, or untouched. -/
def lastTouch (code : ℕ) (events : List InputEvent) : Option Bool :=
  ((events.filterMap (touch analog)).filter fun t => t.1 = code).getLast?.map Prod.snd

/-- No release of `code` since its last press. -/
def Held (code : ℕ) (events : List InputEvent) : Prop := lastTouch analog code events ≠ some false

instance (code : ℕ) (events : List InputEvent) : Decidable (Held analog code events) :=
  inferInstanceAs (Decidable (_ ≠ _))

/-- The events among the records. -/
def Record.event : Record → Option InputEvent
  | .consumed event => some event
  | .repeated _ => none

/-- An action repeats only for a key or an axis that is held. -/
def RepeatsHeld (before : List Record) : Record → Prop
  | .consumed _ => True
  | .repeated code => Held analog code (before.filterMap Record.event)

/-- Events that are dropped while an action repeats do not release its key or axis at last. -/
def Loop.Spares (s : Loop) (dropped : List InputEvent) : Prop :=
  s.repeatAction ≠ .none → Held analog s.repeatKeyCode dropped

/-- What `settle_input_after_child` drops spares the key or axis that repeats. -/
def Loop.CarefulEffects : Loop → List Effect → Prop
  | _, [] => True
  | s, e :: rest =>
    (∀ dropped nowMs, e = .settle dropped nowMs → s.Spares analog dropped) ∧
      CarefulEffects (s.effect e).1 rest

/-- What a pass of the loop drops, in the window or behind a child, spares the key or axis that
repeats. -/
structure Loop.Careful (s : Loop) (t : Turn) : Prop where
  window : ∀ nowMs events power stdin, t.polled = .ready nowMs events power stdin →
    nowMs < s.ignoreInputUntilMs → s.Spares analog (events.map Prod.fst)
  effects : (s.input analog t).2.1 ≠ .none →
    (s.input analog t).1.CarefulEffects analog t.effects

def Loop.CarefulRun : Loop → List Turn → Prop
  | _, [] => True
  | s, t :: rest => (s.running = true → s.Careful analog t) ∧ CarefulRun (s.step analog t).1 rest

variable {analog}

theorem lastTouch_append (code : ℕ) (before after : List InputEvent) :
    lastTouch analog code (before ++ after) =
      (lastTouch analog code after).or (lastTouch analog code before) := by
  unfold lastTouch
  rw [List.filterMap_append, List.filter_append, List.getLast?_append, Option.map_or]

theorem lastTouch_singleton (code : ℕ) (event : InputEvent) :
    lastTouch analog code [event] =
      (touch analog event).bind fun t => if t.1 = code then some t.2 else none := by
  unfold lastTouch
  cases htouch : touch analog event with
  | none => simp [htouch]
  | some t => by_cases hcode : t.1 = code <;> simp [htouch, hcode]

theorem Held.append {code : ℕ} {before after : List InputEvent} (hbefore : Held analog code before)
    (hafter : Held analog code after) : Held analog code (before ++ after) := by
  unfold Held at *
  rw [lastTouch_append]
  cases h : lastTouch analog code after with
  | none => exact hbefore
  | some pressed =>
    rw [h] at hafter
    exact hafter

/-- The key or axis that repeats is held. -/
def Loop.Sound (analog : Bool) (s : Loop) (history : List InputEvent) : Prop :=
  s.repeatAction ≠ .none → Held analog s.repeatKeyCode history

section Events

variable {s : Loop} {history : List InputEvent} {event : InputEvent} {code : ℕ}

theorem held_concat (hheld : Held analog code history)
    (htouch : ∀ pressed, touch analog event = some (code, pressed) → pressed = true) :
    Held analog code (history ++ [event]) := by
  apply hheld.append
  unfold Held
  rw [lastTouch_singleton]
  cases h : touch analog event with
  | none => simp
  | some t =>
    obtain ⟨other, pressed⟩ := t
    by_cases hcode : other = code
    · subst hcode
      have hpressed : pressed = true := htouch pressed h
      simp [hpressed]
    · simp [hcode]

theorem Sound.concat (h : s.Sound analog history)
    (htouch : ∀ pressed, touch analog event = some (s.repeatKeyCode, pressed) → pressed = true) :
    s.Sound analog (history ++ [event]) :=
  fun haction => held_concat (h haction) htouch

theorem Sound.release (h : s.Sound analog history)
    (htouch : touch analog event = some (code, false)) :
    (s.release code).Sound analog (history ++ [event]) := by
  unfold Loop.release
  split_ifs with hsame
  · intro haction
    exact absurd rfl haction
  · intro haction
    refine Sound.concat h (fun pressed hpressed => ?_) haction
    rw [htouch] at hpressed
    cases hpressed
    exact absurd ⟨haction, rfl⟩ hsame

theorem Sound.press (h : s.Sound analog history) (htouch : touch analog event = some (code, true))
    (action : Action) (intervalMs nextMs : ℤ) :
    (s.press action code intervalMs nextMs).Sound analog (history ++ [event]) := by
  have hpressed : ∀ code' pressed, touch analog event = some (code', pressed) → pressed = true := by
    intro code' pressed hpressed
    rw [htouch] at hpressed
    cases hpressed
    rfl
  unfold Loop.press
  split_ifs
  · intro _
    unfold Held
    rw [lastTouch_append, lastTouch_singleton, htouch]
    simp
  · exact Sound.concat h (hpressed _)

theorem Sound.readEvent (h : s.Sound analog history) (action : Action) (nowMs : ℤ) :
    (s.readEvent analog action (event, nowMs)).1.Sound analog (history ++ [event]) := by
  cases event with
  | key code value =>
    simp only [Loop.readEvent]
    by_cases hzero : value = 0
    · rw [if_pos hzero]
      exact Sound.release h (by simp [touch, hzero])
    · rw [if_neg hzero]
      by_cases hpress : value = 1 ∨ value = 2
      · rw [if_pos hpress]
        exact Sound.press h (by simp [touch, hzero, hpress]) _ _ _
      · rw [if_neg hpress]
        exact Sound.concat h (by simp [touch, hzero, hpress])
  | abs code value =>
    simp only [Loop.readEvent]
    split_ifs with hreleased hnone hsame
    · exact Sound.release h (by simp [touch, hreleased])
    · exact Sound.concat h (by simp [touch, hreleased, hnone])
    · exact Sound.concat h (by simp [touch, hreleased, hnone])
    · exact Sound.press h (by simp [touch, hreleased, hnone]) _ _ _
  | other => exact Sound.concat h (by simp [touch])

theorem Sound.readActions {events : List (InputEvent × ℤ)} :
    ∀ {s : Loop} {history : List InputEvent} (action : Action), s.Sound analog history →
      (s.readActions analog action events).1.Sound analog (history ++ events.map Prod.fst) := by
  induction events with
  | nil =>
    intro s history action h
    rwa [List.map_nil, List.append_nil]
  | cons e rest ih =>
    intro s history action h
    obtain ⟨event, nowMs⟩ := e
    have hread : (s.readEvent analog action (event, nowMs)).1.Sound analog (history ++ [event]) :=
      Sound.readEvent h action nowMs
    have hrest := ih (s.readEvent analog action (event, nowMs)).2 hread
    rw [List.append_assoc] at hrest
    exact hrest

theorem Sound.fire (h : s.Sound analog history) (dueMs nowMs : ℤ) :
    (s.fire dueMs nowMs).1.Sound analog history := by
  unfold Loop.fire
  dsimp only
  split_ifs
  · exact h
  · exact fun haction => absurd rfl haction
  · exact h

theorem fire_action (dueMs nowMs : ℤ) (hfire : (s.fire dueMs nowMs).2 ≠ .none) :
    s.repeatAction ≠ .none := by
  unfold Loop.fire at hfire
  dsimp only at hfire
  split_ifs at hfire with hdue
  · exact hdue.1
  · exact absurd rfl hfire
  · exact absurd rfl hfire

theorem Sound.drop (h : s.Sound analog history) {dropped : List InputEvent}
    (hspares : s.Spares analog dropped) : s.Sound analog (history ++ dropped) :=
  fun haction => (h haction).append (hspares haction)

/-- What holds between any two parts of a run: the key that repeats is held, and nothing has
repeated for a key that was not. -/
structure Good (analog : Bool) (s : Loop) (records : List Record) : Prop where
  sound : s.Sound analog (records.filterMap Record.event)
  held : Always (RepeatsHeld analog) records

variable {records : List Record}

theorem filterMap_consumed (records : List Record) (events : List InputEvent) :
    (records ++ events.map Record.consumed).filterMap Record.event =
      records.filterMap Record.event ++ events := by
  rw [List.filterMap_append, List.filterMap_map]
  congr 1
  exact List.filterMap_some

theorem always_consumed (events : List InputEvent) :
    ∀ {records : List Record}, Always (RepeatsHeld analog) records →
      Always (RepeatsHeld analog) (records ++ events.map Record.consumed) := by
  induction events with
  | nil =>
    intro records h
    rwa [List.map_nil, List.append_nil]
  | cons event rest ih =>
    intro records h
    have hone : Always (RepeatsHeld analog) (records ++ [.consumed event]) := h.concat trivial
    have hrest := ih hone
    rwa [List.append_assoc] at hrest

theorem Good.drop (h : Good analog s records) {dropped : List InputEvent}
    (hspares : s.Spares analog dropped) :
    Good analog s (records ++ dropped.map Record.consumed) := by
  constructor
  · rw [filterMap_consumed]
    exact Sound.drop h.sound hspares
  · exact always_consumed dropped h.held

theorem Good.readActions (h : Good analog s records) (action : Action)
    (events : List (InputEvent × ℤ)) :
    Good analog (s.readActions analog action events).1
      (records ++ events.map fun event => Record.consumed event.1) := by
  have hmap : events.map (fun event => Record.consumed event.1) =
      (events.map Prod.fst).map Record.consumed := by
    rw [List.map_map]
    rfl
  rw [hmap]
  constructor
  · rw [filterMap_consumed]
    exact Sound.readActions action h.sound
  · exact always_consumed _ h.held

theorem Good.fired (h : Good analog s records) (dueMs nowMs : ℤ) :
    Good analog (s.fired dueMs nowMs).1 (records ++ (s.fired dueMs nowMs).2.2) := by
  have hsound := Sound.fire h.sound dueMs nowMs
  unfold Loop.fired
  dsimp only
  split_ifs with hnone
  · rw [List.append_nil]
    exact ⟨hsound, h.held⟩
  · have hheld := h.sound (fire_action dueMs nowMs hnone)
    have hsame : (records ++ [Record.repeated s.repeatKeyCode]).filterMap Record.event =
        records.filterMap Record.event := by
      rw [List.filterMap_append]
      exact List.append_nil _
    constructor
    · rw [hsame]
      exact hsound
    · exact h.held.concat hheld

theorem Good.input {t : Turn} (h : Good analog s records)
    (hwindow : ∀ nowMs events power stdin, t.polled = .ready nowMs events power stdin →
      nowMs < s.ignoreInputUntilMs → s.Spares analog (events.map Prod.fst)) :
    Good analog (s.input analog t).1 (records ++ (s.input analog t).2.2) := by
  have hview : Good analog { s with view := t.view } records := ⟨h.sound, h.held⟩
  unfold Loop.input
  cases hpolled : t.polled with
  | stop =>
    rw [List.append_nil]
    exact ⟨h.sound, h.held⟩
  | refresh =>
    rw [List.append_nil]
    exact hview
  | timeout => exact hview.fired _ _
  | ready nowMs events power stdin =>
    dsimp only
    split_ifs with hignored haction
    · have hmap : events.map (fun event => Record.consumed event.1) =
          (events.map Prod.fst).map Record.consumed := by
        rw [List.map_map]
        rfl
      rw [hmap]
      exact hview.drop (hwindow nowMs events power stdin hpolled hignored)
    · have hread := (hview.readActions .none events).fired t.dueMs t.nowMs
      rw [List.append_assoc] at hread
      exact hread
    · exact hview.readActions .none events

theorem Good.applyEffects {effects : List Effect} :
    ∀ {s : Loop} {records : List Record}, Good analog s records →
      s.CarefulEffects analog effects →
        Good analog (s.applyEffects effects).1 (records ++ (s.applyEffects effects).2) := by
  induction effects with
  | nil =>
    intro s records h _
    rw [Loop.applyEffects, List.append_nil]
    exact h
  | cons e rest ih =>
    intro s records h hcareful
    obtain ⟨hspares, hrest⟩ := hcareful
    have hone : Good analog (s.effect e).1 (records ++ (s.effect e).2) := by
      cases e with
      | view view =>
        rw [Loop.effect, List.append_nil]
        exact ⟨h.sound, h.held⟩
      | settle dropped nowMs =>
        have hdropped := h.drop (hspares dropped nowMs rfl)
        exact ⟨hdropped.sound, hdropped.held⟩
      | stopRepeat =>
        rw [Loop.effect, List.append_nil]
        exact ⟨fun haction => absurd rfl haction, h.held⟩
      | exit =>
        rw [Loop.effect, List.append_nil]
        exact ⟨h.sound, h.held⟩
    have hmore := ih hone hrest
    rw [List.append_assoc] at hmore
    exact hmore

theorem Good.step {t : Turn} (h : Good analog s records)
    (hcareful : s.running = true → s.Careful analog t) :
    Good analog (s.step analog t).1 (records ++ (s.step analog t).2) := by
  unfold Loop.step
  split_ifs with hrunning
  · obtain ⟨hwindow, heffects⟩ := hcareful hrunning
    have hinput := h.input hwindow
    dsimp only [Loop.handleAction]
    split_ifs with haction
    · rw [List.append_nil]
      exact hinput
    · have hdone := hinput.applyEffects (heffects haction)
      rw [List.append_assoc] at hdone
      exact ⟨hdone.sound, hdone.held⟩
  · rw [List.append_nil]
    exact h

theorem Good.run {turns : List Turn} :
    ∀ {s : Loop} {records : List Record}, Good analog s records → s.CarefulRun analog turns →
      Good analog (s.run analog turns).1 (records ++ (s.run analog turns).2) := by
  induction turns with
  | nil =>
    intro s records h _
    rw [Loop.run, List.append_nil]
    exact h
  | cons t rest ih =>
    intro s records h hcareful
    have hrest := ih (h.step hcareful.1) hcareful.2
    rw [List.append_assoc] at hrest
    exact hrest

theorem good_start (view : View) : Good analog (.start view) [] :=
  ⟨fun haction => absurd rfl haction, .nil⟩

theorem run_append (turns rest : List Turn) :
    ∀ s : Loop, s.run analog (turns ++ rest) =
      (((s.run analog turns).1.run analog rest).1,
        (s.run analog turns).2 ++ ((s.run analog turns).1.run analog rest).2) := by
  induction turns with
  | nil => exact fun s => rfl
  | cons t turns ih =>
    intro s
    rw [List.cons_append, Loop.run]
    dsimp only
    rw [ih]
    simp only [Loop.run, List.append_assoc]

/-- A pass in which nothing is ready until the repeat is due. -/
def idle (s : Loop) (view : View) : Turn := ⟨view, .timeout, s.repeatNextMs, s.repeatNextMs, []⟩

theorem step_idle (hrunning : s.running = true) (haction : s.repeatAction ≠ .none) {view : View}
    (hrepeats : 0 < actionRepeatIntervalMs view s.repeatAction) :
    (s.step analog (idle s view)).2 = [.repeated s.repeatKeyCode] := by
  simp [Loop.step, hrunning, Loop.input, idle, Loop.fired, Loop.fire, haction, hrepeats,
    Loop.handleAction, Loop.applyEffects]

/-- The run that leaves the key that repeats released goes wrong once the loop has nothing to
read on a screen where its action repeats. -/
theorem stale_repeats {turns : List Turn} (hrunning : (s.run analog turns).1.running = true)
    (haction : (s.run analog turns).1.repeatAction ≠ .none) {view : View}
    (hrepeats : 0 < actionRepeatIntervalMs view (s.run analog turns).1.repeatAction)
    (hreleased : ¬Held analog (s.run analog turns).1.repeatKeyCode
      ((s.run analog turns).2.filterMap Record.event)) :
    ¬Always (RepeatsHeld analog)
      (s.run analog (turns ++ [idle (s.run analog turns).1 view])).2 := by
  intro hall
  refine hreleased (hall (s.run analog turns).2 (.repeated (s.run analog turns).1.repeatKeyCode)
    [] ?_)
  rw [run_append]
  simp only [Loop.run, step_idle hrunning haction hrepeats, List.append_nil]

end Events

end Touches

/-- In every run in which neither the window nor a child makes the loop drop the release of the
key or axis that repeats, an action repeats only while its key or axis is held; a run that leaves
it released goes on to repeat it. -/
theorem repeats_only_held (analog : Bool) (view : View) :
    (∀ turns, (Loop.start view).CarefulRun analog turns →
      Always (RepeatsHeld analog) ((Loop.start view).run analog turns).2) ∧
    ∀ turns view', ((Loop.start view).run analog turns).1.running = true →
      ((Loop.start view).run analog turns).1.repeatAction ≠ .none →
      0 < actionRepeatIntervalMs view' ((Loop.start view).run analog turns).1.repeatAction →
      ¬Held analog ((Loop.start view).run analog turns).1.repeatKeyCode
        (((Loop.start view).run analog turns).2.filterMap Record.event) →
      ¬Always (RepeatsHeld analog) ((Loop.start view).run analog
        (turns ++ [idle ((Loop.start view).run analog turns).1 view'])).2 :=
  ⟨fun _ hcareful => ((good_start view).run hcareful).held,
    fun _ _ hrunning haction hrepeats hreleased =>
      stale_repeats hrunning haction hrepeats hreleased⟩

/-- The list of ROMs. -/
def romList : View := ⟨.roms, false, false, false, false⟩

/-- DOWN is pressed. -/
def pressDown : Turn := ⟨romList, .ready 0 [(.key 545 1, 0)] [] [], 0, 0, []⟩

/-- A starts a game, behind which the releases of A and DOWN are dropped. -/
def playGame : Turn :=
  ⟨romList, .ready 10 [(.key 305 1, 10)] [] [], 10, 10,
    [.settle [.key 545 0, .key 305 0] 60000]⟩

/-- Nothing is ready when DOWN is due. -/
def wait : Turn := ⟨romList, .timeout, 60010, 60010, []⟩

theorem repeats_only_held_sample :
    Always (RepeatsHeld true) ((Loop.start romList).run true [pressDown, wait]).2 := by
  refine (repeats_only_held true romList).1 _ ⟨fun _ => ⟨?_, fun _ => trivial⟩,
    fun _ => ⟨?_, fun _ => trivial⟩, trivial⟩
  · intro nowMs events power stdin hpolled hwindow
    cases hpolled
    cases hwindow
  · intro nowMs events power stdin hpolled
    cases hpolled

/-- Behind the game the list scrolls on although DOWN was released while it ran. -/
theorem released_behind_child :
    ¬Always (RepeatsHeld true)
      ((Loop.start romList).run true [pressDown, playGame, wait]).2 := by
  intro hall
  have hheld := hall [.consumed (.key 545 1), .consumed (.key 305 1), .consumed (.key 545 0),
    .consumed (.key 305 0)] (.repeated 545) [] (by decide)
  have hreleased : ¬Held true 545 [.key 545 1, .key 305 1, .key 545 0, .key 305 0] := by decide
  exact hreleased hheld

end PlumosBubble.Controller.KeyRepeat
