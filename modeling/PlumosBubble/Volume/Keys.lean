import Mathlib.Data.Int.Order.Basic
import PlumosBubble.Transition.Run
import PlumosBubble.Sequence.Since
import PlumosBubble.Sequence.History

/-! The loop of `plumos_bubble_volume_keys.c`: the two input devices, the repetition of a
held volume key and the saving of a changed volume. A step of the model takes what the
kernel, the clock and the volume helper answer at the place where the loop stands. -/

namespace PlumosBubble.Volume

open Sequence Transition

/-- The directions 1 and -1. -/
inductive Direction
  | up
  | down
  deriving DecidableEq

/-- `struct input_event`, without its time. -/
structure InputEvent where
  type : ℕ
  code : ℕ
  value : ℤ

def evKey : ℕ := 0x01
def keyVolumeDown : ℕ := 114
def keyVolumeUp : ℕ := 115
def keyPower : ℕ := 116

def reopenInterval : ℤ := 2000
def repeatDelay : ℤ := 450
def repeatInterval : ℤ := 120
def persistDelay : ℤ := 750
def powerDebounce : ℤ := 800

/-- What a `read` of a device gives: an event, `EAGAIN`, `EINTR`, or anything else. -/
inductive Reading
  | event (event : InputEvent)
  | again
  | interrupted
  | lost

/-- The direction of an event of a volume key. -/
def InputEvent.direction (event : InputEvent) : Option Direction :=
  if event.type = evKey ∧ event.code = keyVolumeUp then some .up
  else if event.type = evKey ∧ event.code = keyVolumeDown then some .down
  else none

/-- The command line and the environment: `--once`, and which devices are configured. -/
structure Options where
  once : Bool
  configuredEvent : Bool
  configuredPowerEvent : Bool

/-- The places of the loop, where the answers of the kernel are used. -/
inductive Point
  | running
  | reopenVolume
  | reopenPower
  | poll
  | readVolume (powerReady : Bool)
  | readPower
  | repeating
  | persisting
  | shutdown
  | stopped
  deriving DecidableEq

/-- The variables of `main`; a descriptor is told by whether it is open, and a
`held_direction` of 0 is none. -/
structure State where
  point : Point
  now : ℤ
  nextVolumeReopen : ℤ
  nextPowerReopen : ℤ
  repeatDue : ℤ
  persistDue : ℤ
  powerDebounceUntil : ℤ
  heldDirection : Option Direction
  persistPending : Bool
  eventFd : Bool
  powerEventFd : Bool
  volumeDone : Bool
  powerDone : Bool

/-- The answers at one place. -/
structure Answer where
  /-- `running`. -/
  running : Bool
  /-- `monotonic_ms`. -/
  clock : ℤ
  /-- The device could be opened. -/
  opened : Bool
  /-- `poll` reports something for the volume keys, and for the power key. -/
  volumeReady : Bool
  powerReady : Bool
  reading : Reading
  /-- The volume helper exits with 0. -/
  helped : Bool

/-- What a step shows. -/
inductive Event
  | idle
  | pressed (direction : Direction) (helped : Bool)
  | released (direction : Direction)
  | lost
  | menu
  | repeated (direction : Direction) (helped : Bool)
  | persisted (helped : Bool)
  deriving DecidableEq

/-- The variables before the loop. -/
def start (options : Options) : State where
  point := .running
  now := 0
  nextVolumeReopen := 0
  nextPowerReopen := 0
  repeatDue := 0
  persistDue := 0
  powerDebounceUntil := 0
  heldDirection := none
  persistPending := false
  eventFd := false
  powerEventFd := false
  volumeDone := options.once && !options.configuredEvent
  powerDone := options.once && !options.configuredPowerEvent

/-- The volume device is opened again when it is due. -/
def reopenVolume (options : Options) (s : State) (a : Answer) : State :=
  if !s.volumeDone && !s.eventFd && s.nextVolumeReopen ≤ s.now then
    { s with
      eventFd := a.opened
      nextVolumeReopen := s.now + reopenInterval
      volumeDone := s.volumeDone || options.once && !a.opened }
  else s

/-- The power device is opened again when it is due. -/
def reopenPower (options : Options) (s : State) (a : Answer) : State :=
  if !s.powerDone && !s.powerEventFd && s.nextPowerReopen ≤ s.now then
    { s with
      powerEventFd := a.opened
      nextPowerReopen := s.now + reopenInterval
      powerDone := s.powerDone || options.once && !a.opened }
  else s

/-- `persist_pending` and `persist_due` behind a volume step. -/
def applied (s : State) (helped : Bool) : State :=
  if helped then { s with persistPending := true, persistDue := s.now + persistDelay } else s

/-- An event of a volume key; the value 2 is the kernel's own repetition. -/
def volumeKey (s : State) (direction : Direction) (value : ℤ) (helped : Bool) : State × Event :=
  if value = 1 then
    ({ applied { s with heldDirection := some direction } helped with
      repeatDue := s.now + repeatDelay }, .pressed direction helped)
  else if value = 0 then
    (if s.heldDirection = some direction then { s with heldDirection := none, repeatDue := 0 }
      else s, .released direction)
  else (s, .idle)

/-- One turn of the loop that reads the volume keys. -/
def readVolume (options : Options) (s : State) (powerReady : Bool) (a : Answer) : State × Event :=
  match a.reading with
  | .event event =>
    match event.direction with
    | some direction => volumeKey s direction event.value a.helped
    | none => (s, .idle)
  | .interrupted => (s, .idle)
  | .again => ({ s with point := if powerReady then .readPower else .repeating }, .idle)
  | .lost =>
    ({ s with
      point := if powerReady then .readPower else .repeating
      eventFd := false
      heldDirection := none
      repeatDue := 0
      nextVolumeReopen := 0
      volumeDone := s.volumeDone || options.once }, .lost)

/-- One turn of the loop that reads the power key. -/
def readPower (options : Options) (s : State) (a : Answer) : State × Event :=
  match a.reading with
  | .event event =>
    if event.type = evKey ∧ event.code = keyPower ∧ event.value = 1 ∧
        s.powerDebounceUntil ≤ a.clock then
      ({ s with now := a.clock, powerDebounceUntil := a.clock + powerDebounce }, .menu)
    else ({ s with now := a.clock }, .idle)
  | .interrupted => (s, .idle)
  | .again => ({ s with point := .repeating }, .idle)
  | .lost =>
    ({ s with
      point := .repeating
      powerEventFd := false
      nextPowerReopen := 0
      powerDone := s.powerDone || options.once }, .idle)

/-- The step of a held key when it is due. -/
def repeatHeld (s : State) (helped : Bool) : State × Event :=
  match s.heldDirection with
  | some direction =>
    if 0 < s.repeatDue ∧ s.repeatDue ≤ s.now then
      ({ applied s helped with repeatDue := s.now + repeatInterval }, .repeated direction helped)
    else (s, .idle)
  | none => (s, .idle)

/-- `persist-runtime` when it is due. -/
def persistRuntime (s : State) (helped : Bool) : State × Event :=
  if s.persistPending ∧ 0 < s.persistDue ∧ s.persistDue ≤ s.now then
    (if helped then { s with persistPending := false }
      else { s with persistDue := s.now + persistDelay }, .persisted helped)
  else (s, .idle)

/-- The state at another place. -/
def State.goto (s : State) (point : Point) : State := { s with point := point }

/-- A step of the daemon, from the test of the loop to the next. -/
def step (options : Options) (s : State) (a : Answer) : State × Event :=
  match s.point with
  | .running =>
    if a.running then ({ s with point := .reopenVolume, now := a.clock }, .idle)
    else (s.goto .shutdown, .idle)
  | .reopenVolume => ((reopenVolume options s a).goto .reopenPower, .idle)
  | .reopenPower =>
    let s := reopenPower options s a
    if options.once && s.volumeDone && s.powerDone then (s.goto .shutdown, .idle)
    else (s.goto .poll, .idle)
  | .poll =>
    ({ s with
      now := a.clock
      point := if a.volumeReady && s.eventFd then .readVolume (a.powerReady && s.powerEventFd)
        else if a.powerReady && s.powerEventFd then .readPower else .repeating }, .idle)
  | .readVolume powerReady => readVolume options s powerReady a
  | .readPower => readPower options s a
  | .repeating =>
    let (s, event) := repeatHeld { s with now := a.clock } a.helped
    (s.goto .persisting, event)
  | .persisting =>
    let (s, event) := persistRuntime s a.helped
    (s.goto .running, event)
  | .shutdown =>
    if s.persistPending then (s.goto .stopped, .persisted a.helped) else (s.goto .stopped, .idle)
  | .stopped => (s, .idle)

/-- A step, whatever the answers. -/
def Steps (options : Options) (s : State) (event : Event) (t : State) : Prop :=
  ∃ answer, step options s answer = (t, event)

/-- The steps with the answers of a list. -/
def follow (options : Options) (s : State) : List Answer → State × List Event
  | [] => (s, [])
  | answer :: answers =>
    let rest := follow options (step options s answer).1 answers
    (rest.1, (step options s answer).2 :: rest.2)

theorem run_follow (options : Options) (s : State) (answers : List Answer) :
    Run (Steps options) s (follow options s answers).2 (follow options s answers).1 := by
  induction answers generalizing s with
  | nil => exact Run.nil
  | cons answer answers ih =>
    have hfirst : Run (Steps options) s [(step options s answer).2] (step options s answer).1 :=
      Run.single ⟨answer, rfl⟩
    exact hfirst.append (ih _)

section Records

/-- The volume keys that are down after the events, the one pressed last first. -/
def held : List Event → List Direction :=
  List.foldl (fun keys event =>
    match event with
    | .pressed direction _ => direction :: keys.erase direction
    | .released direction => keys.erase direction
    | .lost => []
    | _ => keys) []

/-- A volume step that succeeded. -/
def Event.Changed (event : Event) : Prop :=
  ∃ direction, event = .pressed direction true ∨ event = .repeated direction true

/-- Some successful change has not been persisted successfully since. -/
def Unsaved (events : List Event) : Prop :=
  Since Event.Changed (· ≠ .persisted true) events

theorem held_concat (events : List Event) (event : Event) :
    held (events ++ [event]) =
      match event with
      | .pressed direction _ => direction :: (held events).erase direction
      | .released direction => (held events).erase direction
      | .lost => []
      | _ => held events := by
  rw [held, List.foldl_append]
  rfl

theorem unsaved_changed {events : List Event} {event : Event} (h : event.Changed) :
    Unsaved (events ++ [event]) :=
  Since.last h

theorem unsaved_concat {events : List Event} {event : Event} (hchanged : ¬event.Changed)
    (hevent : event ≠ .persisted true) : Unsaved (events ++ [event]) ↔ Unsaved events := by
  constructor
  · rintro ⟨before, e, after, heq, he, hafter⟩
    rcases List.eq_nil_or_concat after with rfl | ⟨rest, last, rfl⟩
    · obtain ⟨-, hlast⟩ := List.append_inj' heq rfl
      cases hlast
      exact absurd he hchanged
    · rw [List.concat_eq_append, ← List.cons_append, ← List.append_assoc] at heq
      obtain ⟨rfl, -⟩ := List.append_inj' heq rfl
      exact ⟨before, e, rest, rfl, he, fun q hq => hafter q (by simp [hq])⟩
  · exact fun h => h.concat hevent

theorem not_unsaved_persisted {events : List Event} :
    ¬Unsaved (events ++ [.persisted true]) := by
  rintro ⟨before, e, after, heq, he, hafter⟩
  rcases List.eq_nil_or_concat after with rfl | ⟨rest, last, rfl⟩
  · obtain ⟨-, hlast⟩ := List.append_inj' heq rfl
    cases hlast
    obtain ⟨direction, h | h⟩ := he <;> cases h
  · rw [List.concat_eq_append, ← List.cons_append, ← List.append_assoc] at heq
    obtain ⟨-, hlast⟩ := List.append_inj' heq rfl
    cases hlast
    exact hafter _ (by simp) rfl

end Records

section Cases

variable {options : Options} {s t : State} {event : Event} {a : Answer}

@[simp] theorem goto_point (point : Point) : (s.goto point).point = point := rfl

@[simp] theorem goto_heldDirection (point : Point) :
    (s.goto point).heldDirection = s.heldDirection := rfl

@[simp] theorem goto_persistPending (point : Point) :
    (s.goto point).persistPending = s.persistPending := rfl

@[simp] theorem applied_point (helped : Bool) : (applied s helped).point = s.point := by
  cases helped <;> rfl

@[simp] theorem applied_heldDirection (helped : Bool) :
    (applied s helped).heldDirection = s.heldDirection := by
  cases helped <;> rfl

@[simp] theorem applied_persistPending (helped : Bool) :
    (applied s helped).persistPending = (helped || s.persistPending) := by
  cases helped <;> rfl

/-- What a step does to the held direction and to `persist_pending`. -/
inductive Does (s t : State) : Event → Prop
  | idle : t.heldDirection = s.heldDirection → t.persistPending = s.persistPending →
      (t.point = .stopped → s.point = .stopped ∨ s.persistPending = false) → Does s t .idle
  | menu : t.heldDirection = s.heldDirection → t.persistPending = s.persistPending →
      t.point ≠ .stopped → Does s t .menu
  | pressed (direction : Direction) (helped : Bool) : t.heldDirection = some direction →
      t.persistPending = (helped || s.persistPending) → t.point ≠ .stopped →
      Does s t (.pressed direction helped)
  | released (direction : Direction) :
      t.heldDirection = (if s.heldDirection = some direction then none else s.heldDirection) →
      t.persistPending = s.persistPending → t.point ≠ .stopped → Does s t (.released direction)
  | lost : t.heldDirection = none → t.persistPending = s.persistPending → t.point ≠ .stopped →
      Does s t .lost
  | repeated (direction : Direction) (helped : Bool) : s.heldDirection = some direction →
      t.heldDirection = s.heldDirection → t.persistPending = (helped || s.persistPending) →
      t.point ≠ .stopped → Does s t (.repeated direction helped)
  | persisted (helped : Bool) : s.persistPending = true → t.heldDirection = s.heldDirection →
      (t.point ≠ .stopped → t.persistPending = !helped) → Does s t (.persisted helped)

theorem reopenVolume_kept (options : Options) (s : State) (a : Answer) :
    (reopenVolume options s a).heldDirection = s.heldDirection ∧
      (reopenVolume options s a).persistPending = s.persistPending := by
  unfold reopenVolume
  split_ifs <;> exact ⟨rfl, rfl⟩

theorem reopenPower_kept (options : Options) (s : State) (a : Answer) :
    (reopenPower options s a).heldDirection = s.heldDirection ∧
      (reopenPower options s a).persistPending = s.persistPending := by
  unfold reopenPower
  split_ifs <;> exact ⟨rfl, rfl⟩

theorem volumeKey_does (direction : Direction) (value : ℤ) (helped : Bool)
    (hs : s.point ≠ .stopped) :
    Does s (volumeKey s direction value helped).1 (volumeKey s direction value helped).2 := by
  unfold volumeKey
  split_ifs with hpress hrelease hheld
  · exact .pressed direction helped (by simp) (by simp) (by simpa using hs)
  · exact .released direction (by rw [if_pos hheld]) rfl hs
  · exact .released direction (by rw [if_neg hheld]) rfl hs
  · exact .idle rfl rfl Or.inl

theorem readVolume_does (options : Options) (a : Answer) (powerReady : Bool)
    (hs : s.point ≠ .stopped) :
    Does s (readVolume options s powerReady a).1 (readVolume options s powerReady a).2 := by
  unfold readVolume
  cases a.reading with
  | event event =>
    cases hdirection : event.direction with
    | some direction => simpa [hdirection] using volumeKey_does direction event.value a.helped hs
    | none =>
      simp only [hdirection]
      exact .idle rfl rfl Or.inl
  | again => exact .idle rfl rfl (by cases powerReady <;> simp)
  | interrupted => exact .idle rfl rfl Or.inl
  | lost => exact .lost rfl rfl (by cases powerReady <;> simp)

theorem readPower_does (options : Options) (a : Answer) (hs : s.point ≠ .stopped) :
    Does s (readPower options s a).1 (readPower options s a).2 := by
  unfold readPower
  cases a.reading with
  | event event =>
    simp only
    split_ifs
    · exact .menu rfl rfl hs
    · exact .idle rfl rfl Or.inl
  | again => exact .idle rfl rfl (by simp)
  | interrupted => exact .idle rfl rfl Or.inl
  | lost => exact .idle rfl rfl (by simp)

theorem step_does (h : Steps options s event t) : Does s t event := by
  obtain ⟨a, h⟩ := h
  unfold step at h
  cases hpoint : s.point with
  | running =>
    simp only [hpoint] at h
    split_ifs at h <;> cases h <;> exact .idle rfl rfl (by simp)
  | reopenVolume =>
    simp only [hpoint] at h
    cases h
    have hkept := reopenVolume_kept options s a
    exact .idle hkept.1 hkept.2 (by simp)
  | reopenPower =>
    simp only [hpoint] at h
    have hkept := reopenPower_kept options s a
    split_ifs at h <;> cases h <;> exact .idle hkept.1 hkept.2 (by simp)
  | poll =>
    simp only [hpoint] at h
    cases h
    exact .idle rfl rfl (by simp only; split_ifs <;> simp)
  | readVolume powerReady =>
    simp only [hpoint] at h
    have hs : s.point ≠ .stopped := by simp [hpoint]
    have hdoes := readVolume_does options a powerReady hs
    rwa [h] at hdoes
  | readPower =>
    simp only [hpoint] at h
    have hs : s.point ≠ .stopped := by simp [hpoint]
    have hdoes := readPower_does options a hs
    rwa [h] at hdoes
  | repeating =>
    simp only [hpoint, repeatHeld] at h
    cases hheld : s.heldDirection with
    | some direction =>
      simp only [hheld] at h
      split_ifs at h <;> cases h
      · exact .repeated direction a.helped hheld (by simp [hheld]) (by simp) (by simp)
      · exact .idle (by simp [hheld]) rfl (by simp)
    | none =>
      simp only [hheld] at h
      cases h
      exact .idle (by simp [hheld]) rfl (by simp)
  | persisting =>
    simp only [hpoint, persistRuntime] at h
    split_ifs at h with hdue hhelped <;> cases h
    · exact .persisted a.helped hdue.1 rfl fun _ => by simp [hhelped]
    · exact .persisted a.helped hdue.1 rfl fun _ => by simp [hhelped, hdue.1]
    · exact .idle rfl rfl (by simp)
  | shutdown =>
    simp only [hpoint] at h
    split_ifs at h with hpending <;> cases h
    · exact .persisted a.helped hpending rfl (by simp)
    · exact .idle rfl rfl fun _ => Or.inr (by simpa using hpending)
  | stopped =>
    simp only [hpoint] at h
    cases h
    exact .idle rfl rfl Or.inl

theorem stopped_idle (hs : s.point = .stopped) (h : Steps options s event t) :
    event = .idle ∧ t = s := by
  obtain ⟨a, h⟩ := h
  simp only [step, hs, Prod.mk.injEq] at h
  exact ⟨h.2.symm, h.1.symm⟩

end Cases

section Runs

variable {options : Options} {t : State} {events : List Event}

/-- Behind every successful change there is an attempt to persist, or `P` holds. -/
def AttemptedOr (P : Prop) (events : List Event) : Prop :=
  ∀ before event after, events = before ++ event :: after → event.Changed →
    (∃ helped, Event.persisted helped ∈ after) ∨ P

theorem AttemptedOr.concat {P Q : Prop} {event : Event} (h : AttemptedOr P events)
    (hlast : event.Changed → Q) (hold : P → Q ∨ ∃ helped, event = .persisted helped) :
    AttemptedOr Q (events ++ [event]) := by
  intro before changed after heq hchanged
  rcases List.eq_nil_or_concat after with rfl | ⟨rest, last, rfl⟩
  · obtain ⟨-, hsame⟩ := List.append_inj' heq rfl
    cases hsame
    exact Or.inr (hlast hchanged)
  · rw [List.concat_eq_append, ← List.cons_append, ← List.append_assoc] at heq
    obtain ⟨hrest, hsame⟩ := List.append_inj' heq rfl
    cases hsame
    rcases h before changed rest hrest hchanged with ⟨helped, hmem⟩ | hP
    · exact Or.inl ⟨helped, by simp [hmem]⟩
    · rcases hold hP with hQ | ⟨helped, rfl⟩
      · exact Or.inr hQ
      · exact Or.inl ⟨helped, by simp⟩

/-- The invariant of the loop, of the records so far and the variables. -/
structure Kept (events : List Event) (t : State) : Prop where
  held : ∀ direction, t.heldDirection = some direction →
    (Volume.held events).head? = some direction
  repeats : Always (fun before event => ∀ direction helped, event = .repeated direction helped →
    (Volume.held before).head? = some direction) events
  unsaved : t.point ≠ .stopped → (t.persistPending = true ↔ Unsaved events)
  attempted : AttemptedOr (t.persistPending = true ∧ t.point ≠ .stopped) events

theorem kept_start (options : Options) : Kept [] (start options) := by
  constructor
  · intro direction h
    cases h
  · exact Always.nil
  · intro _
    constructor
    · intro h
      cases h
    · rintro ⟨before, e, after, heq, -⟩
      simp at heq
  · intro before event after heq
    simp at heq

theorem not_changed_of {event : Event} (hpressed : ∀ d, event ≠ .pressed d true)
    (hrepeated : ∀ d, event ≠ .repeated d true) : ¬event.Changed := by
  rintro ⟨direction, h | h⟩
  · exact hpressed direction h
  · exact hrepeated direction h

theorem kept_quiet {s u : State} {event : Event} (hs : Kept events s)
    (hevent : event = .idle ∨ event = .menu ∨ (∃ d, event = .released d) ∨ event = .lost)
    (hheld : ∀ direction, u.heldDirection = some direction →
      (Volume.held (events ++ [event])).head? = some direction)
    (hpending : u.persistPending = s.persistPending)
    (hpoint : u.point = .stopped → s.point = .stopped ∨ s.persistPending = false)
    (hlive : u.point ≠ .stopped → s.point ≠ .stopped) : Kept (events ++ [event]) u := by
  have hnot : ¬event.Changed := by
    rcases hevent with rfl | rfl | ⟨d, rfl⟩ | rfl <;> exact not_changed_of (by simp) (by simp)
  refine ⟨hheld, hs.repeats.concat fun direction helped heq => ?_, fun hu => ?_,
    hs.attempted.concat (fun h => absurd h hnot) fun h => Or.inl ⟨hpending ▸ h.1, fun hu => ?_⟩⟩
  · rcases hevent with rfl | rfl | ⟨d, rfl⟩ | rfl <;> cases heq
  · rw [hpending, unsaved_concat hnot, hs.unsaved (hlive hu)]
    rcases hevent with rfl | rfl | ⟨d, rfl⟩ | rfl <;> simp
  · rcases hpoint hu with hstop | hsaved
    · exact h.2 hstop
    · rw [hsaved] at h
      cases h.1

theorem kept_change {s u : State} {event : Event} {helped : Bool} (hs : Kept events s)
    (hevent : event.Changed ↔ helped = true) (hsaved : event ≠ .persisted true)
    (hheld : ∀ direction, u.heldDirection = some direction →
      (Volume.held (events ++ [event])).head? = some direction)
    (hrepeats : ∀ direction helped, event = .repeated direction helped →
      (Volume.held events).head? = some direction)
    (hpending : u.persistPending = (helped || s.persistPending))
    (hlive : s.point ≠ .stopped) (hpoint : u.point ≠ .stopped) : Kept (events ++ [event]) u := by
  refine ⟨hheld, hs.repeats.concat hrepeats, fun _ => ?_,
    hs.attempted.concat (fun h => ⟨?_, hpoint⟩) fun h => Or.inl ⟨?_, hpoint⟩⟩
  · cases helped with
    | true =>
      rw [hpending, Bool.true_or]
      exact ⟨fun _ => unsaved_changed (hevent.mpr rfl), fun _ => rfl⟩
    | false =>
      rw [hpending, Bool.false_or, unsaved_concat (fun h => by simpa using hevent.mp h) hsaved]
      exact hs.unsaved hlive
  · rw [hpending, hevent.mp h, Bool.true_or]
  · rw [hpending, h.1, Bool.or_true]

theorem kept_step {s u : State} {event : Event} (hs : Kept events s)
    (hstep : Steps options s event u) : Kept (events ++ [event]) u := by
  have hlive : u.point ≠ .stopped → s.point ≠ .stopped := fun hu hstop =>
    hu ((stopped_idle hstop hstep).2 ▸ hstop)
  have hstop : s.point = .stopped → event = .idle := fun hstop => (stopped_idle hstop hstep).1
  cases step_does hstep with
  | idle hheld hpending hpoint =>
    refine kept_quiet hs (Or.inl rfl) (fun direction hd => ?_) hpending hpoint hlive
    rw [held_concat]
    exact hs.held direction (hheld ▸ hd)
  | menu hheld hpending hpoint =>
    refine kept_quiet hs (Or.inr (Or.inl rfl)) (fun direction hd => ?_) hpending
      (fun h => absurd h hpoint) hlive
    rw [held_concat]
    exact hs.held direction (hheld ▸ hd)
  | pressed direction helped hheld hpending hpoint =>
    refine kept_change hs ?_ (by simp) (fun d hd => ?_) (by simp) hpending (hlive hpoint) hpoint
    · simp [Event.Changed]
    · rw [hheld] at hd
      cases hd
      rw [held_concat]
      rfl
  | released direction hheld hpending hpoint =>
    refine kept_quiet hs (Or.inr (Or.inr (Or.inl ⟨direction, rfl⟩))) (fun d hd => ?_) hpending
      (fun h => absurd h hpoint) hlive
    rw [hheld] at hd
    split_ifs at hd with hsame
    have hhead := hs.held d hd
    have hne : d ≠ direction := fun heq => hsame (heq ▸ hd)
    rw [held_concat]
    cases hkeys : Volume.held events with
    | nil => simp [hkeys] at hhead
    | cons first keys =>
      simp only [hkeys, List.head?_cons, Option.some.injEq] at hhead
      subst hhead
      simp [hne]
  | lost hheld hpending hpoint =>
    refine kept_quiet hs (Or.inr (Or.inr (Or.inr rfl))) (fun d hd => ?_) hpending
      (fun h => absurd h hpoint) hlive
    rw [hheld] at hd
    cases hd
  | repeated direction helped hold hheld hpending hpoint =>
    refine kept_change hs ?_ (by simp) (fun d hd => ?_) ?_ hpending (hlive hpoint) hpoint
    · simp [Event.Changed]
    · rw [held_concat]
      exact hs.held d (hheld ▸ hd)
    · intro d h heq
      cases heq
      exact hs.held direction hold
  | persisted helped hold hheld hpending =>
    have hnot : ¬(Event.persisted helped).Changed := not_changed_of (by simp) (by simp)
    refine ⟨fun d hd => ?_, hs.repeats.concat (by simp), fun hu => ?_,
      hs.attempted.concat (fun h => absurd h hnot) fun _ => Or.inr ⟨helped, rfl⟩⟩
    · rw [held_concat]
      exact hs.held d (hheld ▸ hd)
    · rw [hpending hu]
      cases helped with
      | true => simp [not_unsaved_persisted]
      | false =>
        rw [unsaved_concat hnot (by simp), ← hs.unsaved (hlive hu)]
        simp [hold]

theorem kept_run (h : Run (Steps options) (start options) events t) : Kept events t :=
  h.invariant (kept_start options) fun _ hs hstep => kept_step hs hstep

end Runs

/-- In every run of the daemon, in its loop `persist_pending` is set exactly while a change
is unsaved, a held key is repeated only in the direction pressed last of those still held, and
at the end of the daemon every change has been followed by an attempt to persist it. -/
theorem keys_run {options : Options} {events : List Event} {t : State}
    (h : Run (Steps options) (start options) events t) :
    (t.point = .stopped → AttemptedOr False events) ∧
      (t.point ≠ .stopped → (t.persistPending = true ↔ Unsaved events)) ∧
      ∀ before after direction helped,
        events = before ++ .repeated direction helped :: after →
          (held before).head? = some direction := by
  have hkept := kept_run h
  refine ⟨fun hstop before event after heq hchanged => ?_, hkept.unsaved, ?_⟩
  · rcases hkept.attempted before event after heq hchanged with hmem | hlive
    · exact Or.inl hmem
    · exact absurd hstop hlive.2
  · intro before after direction helped heq
    exact hkept.repeats before _ after heq direction helped rfl

/-- Volume up is pressed and held until it is repeated; then the daemon is stopped. -/
def heldKeyAnswers : List Answer :=
  let quiet : Answer := ⟨true, 0, true, false, false, .again, true⟩
  [quiet, quiet, quiet, { quiet with volumeReady := true },
    { quiet with reading := .event ⟨evKey, keyVolumeUp, 1⟩ }, quiet,
    { quiet with clock := 500 }, quiet, { quiet with running := false }, quiet]

theorem keys_run_sample :
    (follow ⟨false, false, false⟩ (start ⟨false, false, false⟩) heldKeyAnswers).2 =
        [.idle, .idle, .idle, .idle, .pressed .up true, .idle, .repeated .up true, .idle, .idle,
          .persisted true] ∧
      AttemptedOr False
        (follow ⟨false, false, false⟩ (start ⟨false, false, false⟩) heldKeyAnswers).2 :=
  ⟨by decide, (keys_run (run_follow _ _ _)).1 (by decide)⟩

end PlumosBubble.Volume
