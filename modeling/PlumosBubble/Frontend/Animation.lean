import PlumosBubble.Frontend.Gallery
import PlumosBubble.Transition.Run

/-! The animation boost of `plumos_controller_ui.c`. A slide of TOP or of the gallery sets the
governor to `performance`, and the render that finds no slide in progress puts the old one back.
The lists and the gallery are those of the gallery's model. With `rescue_network` no action is
handled and nothing slides; a renderer that is chosen is active whenever `render_ui` runs. -/

namespace PlumosBubble.Animation

open Frontend Transition
open Gallery (Screen Action Clock)

/-- What the file of the governor takes and gives during an event: whether its line is read,
whether it accepts `performance`, and whether it accepts what is put back. -/
structure Io where
  reads : Bool
  accepts : Bool
  restores : Bool

/-- `animation_cpu_boosted`, the governor of `animation_cpu_snapshot`, which is empty where none
has been read, and the governor itself. `found` is the one that the last boost has found; nothing
reads it, and it is forgotten when something else sets the governor without a boost. -/
structure Cpu where
  boosted : Bool
  snapshot : String
  governor : String
  found : Option String
  deriving DecidableEq

/-- The mode of the UI and its theme, as an event finds them. -/
structure Look where
  graphic : Bool
  strip : Bool
  slide : Bool
  transitionMs : ℤ

/-- `top_transition_*`. -/
structure TopSlide where
  toPage : ℕ
  startMs : ℤ
  durationMs : ℤ
  active : Bool

/-- The UI. `child` tells whether the last event has run a command of a launch, of a menu entry or
of a power action; nothing reads it. -/
structure State where
  lists : Gallery.State
  topCount : ℕ
  topCursor : ℕ
  top : TopSlide
  cpu : Cpu
  child : Bool
  exited : Bool

/-- What an action meets besides its inputs: whether it runs a command on a screen without a list
of ROMs, and the systems on TOP behind it. -/
structure Env where
  look : Look
  io : Io
  runs : Bool
  topCount : ℕ
  topCursor : ℕ

inductive Event where
  | action (action : Action) (inputs : Gallery.Inputs) (env : Env)
  | render (clock : Clock) (look : Look) (io : Io)
  | scanned (systemId : CString) (load : Gallery.Load)
  | governed (governor : String)
  | exited (io : Io)

namespace Cpu

variable (c : Cpu)

/-- `restore_cpu_policy_snapshot`, as far as the governor goes. -/
def restoreSnapshot (snapshot : String) (restores : Bool) (governor : String) : String :=
  if snapshot ≠ "" ∧ restores = true then snapshot else governor

/-- `ui_animation_cpu_boost`. -/
def boost (io : Io) : Cpu :=
  if c.boosted = true then c
  else
    let snapshot := if io.reads = true then c.governor else ""
    if io.accepts = true then ⟨true, snapshot, "performance", some c.governor⟩
    else { c with
      snapshot := ""
      governor := restoreSnapshot snapshot io.restores c.governor }

/-- `ui_animation_cpu_restore`. -/
def restore (io : Io) : Cpu :=
  if c.boosted = true then
    { c with
      boosted := false
      snapshot := ""
      governor := restoreSnapshot c.snapshot io.restores c.governor }
  else c

/-- Something else sets the governor. -/
def governed (governor : String) : Cpu :=
  { c with governor := governor, found := if c.boosted = true then c.found else none }

end Cpu

namespace Look

/-- `ui_graphic_top_slide_enabled` on TOP. -/
def slides (look : Look) : Bool := look.graphic && look.slide

/-- `ui_graphic_top_uses_strip`. -/
def usesStrip (look : Look) : Bool := look.graphic && look.strip

/-- `ui_graphic_top_columns`. -/
def columns (look : Look) : ℕ := if look.usesStrip then 2 else 3

/-- `ui_graphic_top_page_for_cursor`. -/
def page (look : Look) (cursor : ℕ) : ℕ := cursor / if look.usesStrip then 2 else 6

/-- `ui_graphic_top_transition_duration_ms` on TOP. -/
def duration (look : Look) : ℤ :=
  if look.slides = false then 0
  else max 80 (min 1000 (if 0 < look.transitionMs then look.transitionMs else 260))

end Look

namespace State

variable (s : State)

section Top

/-- `ui_start_graphic_top_transition` on TOP. -/
def startTop (fromCursor toCursor : ℕ) (look : Look) (now : ℤ) (io : Io) : State :=
  if fromCursor = toCursor ∨ look.slides = false ∨ look.page fromCursor = look.page toCursor ∨
      look.duration ≤ 0 then s
  else
    { s with cpu := s.cpu.boost io, top := ⟨look.page toCursor, now, look.duration, true⟩ }

/-- Where `ui_move_graphic_top_cursor` moves the cursor. -/
def nextTop (action : Action) (look : Look) : ℕ :=
  let cursor := s.topCursor
  if action = .left then cursor - 1
  else if action = .right then if cursor + 1 < s.topCount then cursor + 1 else cursor
  else if look.usesStrip then cursor
  else if action = .up then if look.columns ≤ cursor then cursor - look.columns else cursor
  else if cursor + look.columns < s.topCount then cursor + look.columns
  else if (cursor / look.columns + 1) * look.columns < s.topCount then s.topCount - 1
  else cursor

/-- `ui_move_graphic_top_cursor`. -/
def moveTop (action : Action) (look : Look) (now : ℤ) (io : Io) : State :=
  if s.topCount = 0 ∨ s.nextTop action look = s.topCursor then s
  else
    { s.startTop s.topCursor (s.nextTop action look) look now io with
      topCursor := s.nextTop action look }

/-- What becomes of `top_transition_active` in `render_top`. -/
def renderTop (look : Look) (now : ℤ) : TopSlide :=
  if s.top.active = true ∧ s.top.toPage = look.page s.topCursor ∧ look.slides = true ∧
      0 < s.top.durationMs ∧ s.top.durationMs ≤ now - s.top.startMs then
    { s.top with active := false }
  else s.top

end Top

section Render

/-- The slide of the gallery is over by the clock, and it led to the cursor. -/
def galleryEnded (lists : Gallery.State) (clock : Clock) : Bool :=
  lists.slide.toCursor = lists.romCursor && 0 < lists.slide.durationMs &&
    lists.slide.durationMs ≤ clock.progress - lists.slide.startMs

/-- `render_gallery` starts the move that has waited. -/
def startsPending (lists : Gallery.State) (clock : Clock) : Bool :=
  lists.screen = .gallery && (!lists.slide.active || galleryEnded lists clock) &&
    lists.pending.active && lists.romCount ≠ 0 &&
    (if lists.romCount ≤ lists.pending.cursor then lists.romCount - 1
      else lists.pending.cursor) ≠ lists.romCursor

/-- The CPU behind the moves that a render of these lists starts. -/
def boostedBy (cpu : Cpu) (lists : Gallery.State) (clock : Clock) (io : Io) : Cpu :=
  if startsPending lists clock = true then cpu.boost io else cpu

/-- `render_ui`. -/
def render (clock : Clock) (look : Look) (io : Io) : State :=
  let lists := s.lists.render clock
  let top := if s.lists.screen = .top then s.renderTop look clock.progress
    else { s.top with active := false }
  let cpu := boostedBy s.cpu s.lists clock io
  { s with
    lists := lists
    top := top
    cpu := if top.active = false ∧ lists.slide.active = false then cpu.restore io else cpu }

end Render

section Actions

/-- `move_gallery_cursor` starts a slide. -/
def startsSlide (lists : Gallery.State) (action : Action) : Bool :=
  lists.screen = .gallery && (action = .left || action = .right) && !lists.slide.active &&
    lists.romCount ≠ 0 &&
    lists.cursorAfterDelta lists.romCursor (if action = .left then -1 else 1) ≠ lists.romCursor

/-- `launch_rom_entry` gets as far as running its command. -/
def launches (lists : Gallery.State) (action : Action) (inputs : Gallery.Inputs) : Bool :=
  action = .a && (lists.screen = .gallery || lists.screen = .roms ||
      lists.screen = .favorites || lists.screen = .recent) &&
    match lists.romEntries[lists.romCursor]? with
    | none => false
    | some entry =>
      entry.relativePath ≠ [] && !entry.isNavigationDirectory &&
        validSystemId (lists.entrySystem entry) && inputs.succeeds

/-- The screens on which A runs a menu entry, a power action or another command. -/
def runsCommands (screen : Screen) : Bool :=
  screen ≠ .top && screen ≠ .gallery && screen ≠ .roms && screen ≠ .favorites && screen ≠ .recent

/-- `handle_action_impl`. A command runs behind a render of the screen. -/
def act (action : Action) (inputs : Gallery.Inputs) (env : Env) : State :=
  if s.lists.screen = .top ∧ env.look.graphic = true ∧
      (action = .up ∨ action = .down ∨ action = .left ∨ action = .right) then
    { s.moveTop action env.look inputs.clock.start env.io with
      lists := { s.lists with due := true }
      child := false }
  else if launches s.lists action inputs = true then
    { s.render inputs.clock env.look env.io with
      lists := s.lists.step (.action action inputs)
      child := true }
  else if runsCommands s.lists.screen = true ∧ action = .a ∧ env.runs = true then
    { s.render inputs.clock env.look env.io with
      lists := s.lists.resetGallery.step (.action action inputs)
      topCount := env.topCount
      topCursor := env.topCursor
      child := true }
  else
    { s with
      lists := s.lists.step (.action action inputs)
      topCount := env.topCount
      topCursor := env.topCursor
      cpu := if startsSlide s.lists action = true then s.cpu.boost env.io else s.cpu
      child := false }

end Actions

end State

/-- The event loop: behind an action, and behind a refresh of the list, there is a render before
the next one, and the governor is put back at the end. -/
inductive Step : State → Event → State → Prop
  | action {s : State} {action : Action} {inputs : Gallery.Inputs} {env : Env} :
      s.exited = false → s.lists.due = false →
      Step s (.action action inputs env) (s.act action inputs env)
  | render {s : State} {clock : Clock} {look : Look} {io : Io} : s.exited = false →
      Step s (.render clock look io) { s.render clock look io with child := false }
  | scanned {s : State} {systemId : CString} {load : Gallery.Load} :
      s.exited = false → s.lists.due = false →
      Step s (.scanned systemId load)
        { s with lists := s.lists.scanned systemId load, child := false }
  | governed {s : State} {governor : String} :
      Step s (.governed governor) { s with cpu := s.cpu.governed governor, child := false }
  | exited {s : State} {io : Io} : s.exited = false →
      Step s (.exited io)
        { s with cpu := s.cpu.restore io, child := false, exited := true }

/-- The UI as the event loop finds it: no boost is in force, and the first thing is a render. -/
structure Initial (s : State) : Prop where
  due : s.lists.due = true
  boosted : s.cpu.boosted = false
  found : s.cpu.found = none
  child : s.child = false

/-- The bracket: behind a render a boost is in force only while something slides, without one the
governor is the one that the last boost has found, and no command runs under a boost. -/
structure Bracketed (s : State) : Prop where
  sliding : s.lists.due = false → s.cpu.boosted = true →
    s.top.active = true ∨ s.lists.slide.active = true
  governor : s.cpu.boosted = false → ∀ found ∈ s.cpu.found, s.cpu.governor = found
  child : s.child = true → s.cpu.boosted = false

end PlumosBubble.Animation
