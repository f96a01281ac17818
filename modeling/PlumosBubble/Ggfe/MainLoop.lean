import PlumosBubble.Ggfe.Scroll

/-! The main loop of `plumos_ggfe.c`: key events, the menu, key repeat and the launch
animation, frame by frame. `ggfe_launch_rom` runs at the end of the animation with the
entry that is selected then. -/

namespace PlumosBubble.Ggfe

/-- The key codes `main` tells apart. -/
inductive Button where
  | dpadUp
  | dpadDown
  | dpadLeft
  | dpadRight
  | east
  | south
  | north
  | select
  | start
  | other (code : ℕ)
  deriving DecidableEq

/-- A `struct input_event`, and what `ggfe_now_ms` returns to its handler: to
`ggfe_repeat_press`, then to `ggfe_scroll_request`. -/
structure InputEvent where
  isKey : Bool
  code : Button
  value : ℤ
  pressMs : ℤ
  requestMs : ℤ
  deriving DecidableEq

/-- What one pass of the loop reads: the clock, the events waiting, and whether the input
can be opened again after a launch. -/
structure FrameInput where
  now : ℤ
  events : List InputEvent
  repeatMs : ℤ
  repeatRequestMs : ℤ
  positionMs : ℤ
  reopened : Bool
  relaunchedMs : ℤ
  deriving DecidableEq

/-- `struct ggfe_menu`. -/
structure Menu where
  isOpen : Bool
  cursor : ℕ
  deriving DecidableEq

/-- `GGFE_MENU_CORE`, `GGFE_MENU_MOTION`, `GGFE_MENU_CASES`, `GGFE_MENU_EXIT`. -/
def menuCore : ℕ := 0
def menuMotion : ℕ := 1
def menuCases : ℕ := 2
def menuExit : ℕ := 3
def menuRows : ℕ := 4

/-- `struct ggfe_repeat_state`. -/
structure RepeatState where
  keyCode : Button
  delta : ℤ
  active : Bool
  nextMs : ℤ
  deriving DecidableEq

namespace RepeatState

/-- `ggfe_repeat_cancel`. -/
def cancel : RepeatState := ⟨.other 0, 0, false, 0⟩

/-- `ggfe_repeat_press`, with `GGFE_KEY_REPEAT_DELAY_MS`. -/
def press (keyCode : Button) (delta now : ℤ) : RepeatState := ⟨keyCode, delta, true, now + 350⟩

/-- `ggfe_repeat_release`. -/
def release (r : RepeatState) (keyCode : Button) : RepeatState :=
  if r.active ∧ r.keyCode = keyCode then cancel else r

/-- `ggfe_repeat_due`, with `GGFE_KEY_REPEAT_INTERVAL_MS`. -/
def due (r : RepeatState) (now : ℤ) : Option (RepeatState × ℤ) :=
  if !r.active ∨ now < r.nextMs then none else some ({ r with nextMs := now + 95 }, r.delta)

end RepeatState

/-- `-1.0f`: no launch animation is running. -/
def launchIdle : ℚ := -1

/-- `GGFE_LAUNCH_NO_CASE_START`, the float `0.30f`. -/
def launchNoCaseStart : ℚ := 5033165 / 16777216

/-- `GGFE_LAUNCH_END`, the float `1.44f`. -/
def launchEnd : ℚ := 3019899 / 2097152

/-- The float `0.1f`. -/
def longestFrame : ℚ := 13421773 / 134217728

/-- `GGFE_PAGE_JUMP`. -/
def pageJump : ℤ := 5

/-- The variables of `main`. `Prefs` holds the launch catalogue and its overrides. -/
structure LoopState (Prefs : Type) where
  scroll : ScrollState
  menu : Menu
  keyRepeat : RepeatState
  launchT : ℚ
  showCases : Bool
  lastMs : ℤ
  running : Bool
  inputOpen : Bool
  prefs : Prefs

/-- What a run of the loop does that matters to a launch: an A press that starts the
animation, the position read of each frame, and the call of `ggfe_launch_rom`. -/
inductive LoopEvent (Prefs : Type) where
  | press (prefs : Prefs) (scroll : ScrollState)
  | frame (now : ℤ)
  | launch (prefs : Prefs) (entry : ℤ)
  deriving DecidableEq

/-- The variables as the loop starts. -/
def LoopState.start {Prefs : Type} (model : Motion) (durationMs now : ℤ)
    (showCases inputOpen : Bool) (prefs : Prefs) : LoopState Prefs where
  scroll := startScroll model durationMs
  menu := ⟨false, 0⟩
  keyRepeat := .cancel
  launchT := launchIdle
  showCases := showCases
  lastMs := now
  running := true
  inputOpen := inputOpen
  prefs := prefs

section Loop

variable {Prefs : Type} (round : ℚ → ℚ) (count : ℤ)
/- `ggfe_can_launch` on an entry, and `ggfe_menu_cycle_core` on an entry and a direction. -/
variable (canLaunch : Prefs → ℤ → Bool) (cycleCore : Prefs → ℤ → ℤ → Prefs)

namespace LoopState

/-- The row at the cursor, with its value moved by `adjust`. -/
def adjustRow (s : LoopState Prefs) (adjust : ℤ) : LoopState Prefs :=
  if adjust = 0 then s
  else if s.menu.cursor = menuCore then
    { s with prefs := cycleCore s.prefs s.scroll.target adjust }
  else if s.menu.cursor = menuMotion then { s with scroll := s.scroll.toggleMotion }
  else if s.menu.cursor = menuCases then { s with showCases := !s.showCases }
  else s

/-- A key press while the menu is open. -/
def menuKey (s : LoopState Prefs) (code : Button) : LoopState Prefs :=
  match code with
  | .dpadUp =>
    { s with menu := { s.menu with cursor := (s.menu.cursor + menuRows - 1) % menuRows } }
  | .dpadDown => { s with menu := { s.menu with cursor := (s.menu.cursor + 1) % menuRows } }
  | .dpadLeft => s.adjustRow cycleCore (-1)
  | .dpadRight => s.adjustRow cycleCore 1
  | .east =>
    { s with running := s.running && s.menu.cursor ≠ menuExit }.adjustRow cycleCore 1
  | .south | .select => { s with menu := { s.menu with isOpen := false } }
  | _ => s

/-- `ggfe_scroll_request`. -/
def request (s : LoopState Prefs) (delta now : ℤ) : LoopState Prefs :=
  { s with scroll := (s.scroll.requestAt round count delta now).1 }

/-- A key press while browsing. -/
def browseKey (s : LoopState Prefs) (ev : InputEvent) :
    LoopState Prefs × List (LoopEvent Prefs) :=
  match ev.code with
  | .select => ({ s with keyRepeat := .cancel, menu := ⟨true, 0⟩ }, [])
  | .dpadLeft =>
    ({ s with keyRepeat := .press ev.code (-1) ev.pressMs }.request round count (-1)
      ev.requestMs, [])
  | .dpadUp =>
    ({ s with keyRepeat := .cancel }.request round count (-pageJump) ev.requestMs, [])
  | .dpadRight =>
    ({ s with keyRepeat := .press ev.code 1 ev.pressMs }.request round count 1 ev.requestMs, [])
  | .dpadDown =>
    ({ s with keyRepeat := .cancel }.request round count pageJump ev.requestMs, [])
  | .east =>
    if canLaunch s.prefs s.scroll.target then
      ({ s with keyRepeat := .cancel, launchT := if s.showCases then 0 else launchNoCaseStart },
        [.press s.prefs s.scroll])
    else ({ s with keyRepeat := .cancel }, [])
  | .north => ({ s with showCases := !s.showCases }, [])
  | .south | .start => ({ s with keyRepeat := .cancel }, [])
  | .other _ => (s, [])

/-- One event of the input loop. -/
def handleEvent (s : LoopState Prefs) (ev : InputEvent) :
    LoopState Prefs × List (LoopEvent Prefs) :=
  if !ev.isKey then (s, [])
  else if ev.value = 0 then ({ s with keyRepeat := s.keyRepeat.release ev.code }, [])
  else if ev.value ≠ 1 then (s, [])
  else if 0 ≤ s.launchT then (s, [])
  else if s.menu.isOpen then (s.menuKey cycleCore ev.code, [])
  else s.browseKey round count canLaunch ev

/-- The input loop. -/
def handleEvents (s : LoopState Prefs) :
    List InputEvent → LoopState Prefs × List (LoopEvent Prefs)
  | [] => (s, [])
  | ev :: evs =>
    let (s, out) := s.handleEvent round count canLaunch cycleCore ev
    let (s, rest) := s.handleEvents evs
    (s, out ++ rest)

/-- The request of a held key. -/
def repeatKey (s : LoopState Prefs) (input : FrameInput) : LoopState Prefs :=
  if s.running ∧ s.launchT < 0 then
    match s.keyRepeat.due input.repeatMs with
    | some (keyRepeat, delta) =>
      { s with keyRepeat }.request round count delta input.repeatRequestMs
    | none => s
  else s

/-- The position read of a frame, and the clock of the launch animation. -/
def advance (s : LoopState Prefs) (input : FrameInput) (dt : ℚ) : LoopState Prefs :=
  { s with
    scroll := (s.scroll.position round input.positionMs).1
    launchT := if 0 ≤ s.launchT then round (s.launchT + dt) else s.launchT }

/-- The end of the launch animation. -/
def finishLaunch (s : LoopState Prefs) (input : FrameInput) :
    LoopState Prefs × List (LoopEvent Prefs) :=
  if launchEnd < s.launchT then
    ({ s with
        keyRepeat := .cancel
        inputOpen := input.reopened
        launchT := launchIdle
        lastMs := input.relaunchedMs },
      [.launch s.prefs s.scroll.target])
  else (s, [])

/-- One pass of the loop. -/
def frame (s : LoopState Prefs) (input : FrameInput) :
    LoopState Prefs × List (LoopEvent Prefs) :=
  let dt := round (round ↑(input.now - s.lastMs) / 1000)
  let dt := if longestFrame < dt then longestFrame else dt
  let s := { s with lastMs := input.now }
  let (s, pressed) :=
    s.handleEvents round count canLaunch cycleCore (if s.inputOpen then input.events else [])
  let s := (s.repeatKey round count input).advance round input dt
  let (s, launched) := s.finishLaunch input
  (s, pressed ++ .frame input.positionMs :: launched)

/-- The loop, until `running` is cleared. -/
def run (s : LoopState Prefs) : List FrameInput → LoopState Prefs × List (LoopEvent Prefs)
  | [] => (s, [])
  | input :: inputs =>
    if s.running then
      let (s, out) := s.frame round count canLaunch cycleCore input
      let (s, rest) := s.run inputs
      (s, out ++ rest)
    else (s, [])

end LoopState

end Loop

end PlumosBubble.Ggfe
