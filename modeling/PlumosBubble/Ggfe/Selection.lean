import PlumosBubble.Sequence.History
import PlumosBubble.Ggfe.MainLoop

/-! What A selects and what launches. From the press that starts the animation to the
launch, the loop only reads the position of the carousel; such a read moves the target
when it ends a motion of the gallery model that has a request queued behind it. -/

namespace PlumosBubble.Ggfe

open Sequence ScrollState

section Reads

variable (round : ℚ → ℚ)

/-- The carousel after position reads at these times. -/
def readAt (s : ScrollState) (times : List ℤ) : ScrollState :=
  times.foldl (fun s now => (s.position round now).1) s

/-- A request waits behind a running motion of the gallery model. -/
def QueuedBehind (s : ScrollState) : Prop :=
  s.active = true ∧ s.model = .gallery ∧ s.pendingActive = true

instance (s : ScrollState) : Decidable (QueuedBehind s) :=
  inferInstanceAs (Decidable (_ ∧ _ ∧ _))

/-- One of the reads comes at the end of the running motion or later. -/
def Overtaken (s : ScrollState) (times : List ℤ) : Prop :=
  ∃ now ∈ times, s.durationMs ≤ now - s.startMs

instance (s : ScrollState) (times : List ℤ) : Decidable (Overtaken s times) :=
  inferInstanceAs (Decidable (∃ now ∈ times, _))

variable {round}

variable (round) in
theorem position_of_not_queued {s : ScrollState} (h : ¬QueuedBehind s) (now : ℤ) :
    ¬QueuedBehind (s.position round now).1 ∧ (s.position round now).1.target = s.target := by
  obtain ⟨-, hstate, -⟩ | ⟨hactive, -, hmodel, hpending, -⟩ | ⟨-, -, -, hstate, -⟩ :=
    position_cases round s now
  · rw [hstate]
    exact ⟨h, rfl⟩
  · exact absurd ⟨hactive, hmodel, hpending⟩ h
  · rw [hstate]
    exact ⟨fun hqueued => by simp [QueuedBehind, settle] at hqueued, rfl⟩

theorem readAt_of_not_queued {times : List ℤ} :
    ∀ {s : ScrollState}, ¬QueuedBehind s → (readAt round s times).target = s.target := by
  induction times with
  | nil => exact fun _ => rfl
  | cons now times ih =>
    intro s h
    obtain ⟨hkept, htarget⟩ := position_of_not_queued round h now
    show (readAt round (s.position round now).1 times).target = s.target
    rw [ih hkept, htarget]

variable (round) in
theorem position_of_queued {s : ScrollState} (h : QueuedBehind s) (now : ℤ) :
    (now - s.startMs < s.durationMs ∧ (s.position round now).1 = s) ∨
    (s.durationMs ≤ now - s.startMs ∧ ¬QueuedBehind (s.position round now).1 ∧
      (s.position round now).1.target = s.pendingTarget) := by
  obtain ⟨hactive, hmodel, hpending⟩ := h
  obtain ⟨hearly, hstate, -⟩ | ⟨-, hdue, -, -, hstate, -⟩ | ⟨-, -, hfree, -⟩ :=
    position_cases round s now
  · refine Or.inl ⟨?_, hstate⟩
    rcases hearly with hidle | hearly
    · simp [hactive] at hidle
    · exact hearly
  · refine Or.inr ⟨hdue, ?_, ?_⟩ <;> rw [hstate]
    · exact fun hqueued => by simp [QueuedBehind, takeQueued] at hqueued
    · rfl
  · simp [hmodel, hpending] at hfree

theorem readAt_target (s : ScrollState) (times : List ℤ) :
    (readAt round s times).target =
      if QueuedBehind s ∧ Overtaken s times then s.pendingTarget else s.target := by
  by_cases hqueued : QueuedBehind s
  · induction times with
    | nil => simp [readAt, Overtaken]
    | cons now times ih =>
      show (readAt round (s.position round now).1 times).target = _
      obtain ⟨hearly, hstate⟩ | ⟨hdue, hkept, htarget⟩ :=
        position_of_queued round hqueued now
      · have hsame : Overtaken s (now :: times) ↔ Overtaken s times := by
          simp [Overtaken, hearly]
        rw [hstate, ih]
        simp only [hsame]
      · have hover : Overtaken s (now :: times) := ⟨now, List.mem_cons_self, hdue⟩
        rw [if_pos ⟨hqueued, hover⟩, readAt_of_not_queued hkept, htarget]
  · rw [if_neg fun h => hqueued h.1, readAt_of_not_queued hqueued]

end Reads

section Runs

variable {Prefs : Type} (round : ℚ → ℚ) (count : ℤ)
variable (canLaunch : Prefs → ℤ → Bool) (cycleCore : Prefs → ℤ → ℤ → Prefs)

/-- Since an A press that was approved, the run has only read the position. -/
def PressedAt (records : List (LoopEvent Prefs)) (prefs : Prefs) (s : ScrollState)
    (times : List ℤ) : Prop :=
  ∃ earlier, records = earlier ++ .press prefs s :: times.map .frame ∧
    canLaunch prefs s.target = true

/-- A launch follows an approved press, with the same preferences, and takes the entry that
the reads since the press have left selected. -/
def Follows (before : List (LoopEvent Prefs)) : LoopEvent Prefs → Prop
  | .launch prefs entry =>
    ∃ s times, PressedAt canLaunch before prefs s times ∧ entry = (readAt round s times).target
  | _ => True

/-- The records of a run that is in the state `s`. -/
structure Launches (records : List (LoopEvent Prefs)) (s : LoopState Prefs) : Prop where
  follows : Always (Follows round canLaunch) records
  launching : 0 ≤ s.launchT →
    ∃ start times, PressedAt canLaunch records s.prefs start times ∧
      s.scroll = readAt round start times

variable {round count canLaunch cycleCore}

theorem adjustRow_launchT (s : LoopState Prefs) (adjust : ℤ) :
    (s.adjustRow cycleCore adjust).launchT = s.launchT := by
  unfold LoopState.adjustRow
  split_ifs <;> rfl

theorem menuKey_launchT (s : LoopState Prefs) (code : Button) :
    (s.menuKey cycleCore code).launchT = s.launchT := by
  cases code <;> simp only [LoopState.menuKey, adjustRow_launchT]

variable (round count canLaunch) in
theorem browseKey_cases (s : LoopState Prefs) (ev : InputEvent) :
    ((s.browseKey round count canLaunch ev).2 = [] ∧
      (s.browseKey round count canLaunch ev).1.launchT = s.launchT) ∨
    (canLaunch s.prefs s.scroll.target = true ∧
      (s.browseKey round count canLaunch ev).2 = [.press s.prefs s.scroll] ∧
      (s.browseKey round count canLaunch ev).1.prefs = s.prefs ∧
      (s.browseKey round count canLaunch ev).1.scroll = s.scroll) := by
  cases hcode : ev.code with
  | east =>
    by_cases happroved : canLaunch s.prefs s.scroll.target = true
    · apply Or.inr
      simp [LoopState.browseKey, hcode, happroved]
    · apply Or.inl
      simp [LoopState.browseKey, hcode, happroved]
  | _ =>
    apply Or.inl
    simp [LoopState.browseKey, hcode, LoopState.request]

variable (round count canLaunch cycleCore) in
theorem handleEvent_cases (s : LoopState Prefs) (ev : InputEvent) :
    ((s.handleEvent round count canLaunch cycleCore ev).2 = [] ∧
      (s.handleEvent round count canLaunch cycleCore ev).1.launchT = s.launchT ∧
      (0 ≤ s.launchT →
        (s.handleEvent round count canLaunch cycleCore ev).1.prefs = s.prefs ∧
        (s.handleEvent round count canLaunch cycleCore ev).1.scroll = s.scroll)) ∨
    (canLaunch s.prefs s.scroll.target = true ∧
      (s.handleEvent round count canLaunch cycleCore ev).2 = [.press s.prefs s.scroll] ∧
      (s.handleEvent round count canLaunch cycleCore ev).1.prefs = s.prefs ∧
      (s.handleEvent round count canLaunch cycleCore ev).1.scroll = s.scroll) := by
  unfold LoopState.handleEvent
  split_ifs with hkey hrelease hpress hlaunching hmenu
  · exact Or.inl ⟨rfl, rfl, fun _ => ⟨rfl, rfl⟩⟩
  · exact Or.inl ⟨rfl, rfl, fun _ => ⟨rfl, rfl⟩⟩
  · exact Or.inl ⟨rfl, rfl, fun _ => ⟨rfl, rfl⟩⟩
  · exact Or.inl ⟨rfl, rfl, fun _ => ⟨rfl, rfl⟩⟩
  · exact Or.inl ⟨rfl, menuKey_launchT s ev.code, fun h => absurd h hlaunching⟩
  · rcases browseKey_cases round count canLaunch s ev with ⟨hout, hclock⟩ | hpressed
    · exact Or.inl ⟨hout, hclock, fun h => absurd h hlaunching⟩
    · exact Or.inr hpressed

variable (count cycleCore) in
theorem Launches.handleEvent {records : List (LoopEvent Prefs)} {s : LoopState Prefs}
    (h : Launches round canLaunch records s) (ev : InputEvent) :
    Launches round canLaunch
      (records ++ (s.handleEvent round count canLaunch cycleCore ev).2)
      (s.handleEvent round count canLaunch cycleCore ev).1 := by
  obtain ⟨hout, hclock, hsame⟩ | ⟨happroved, hout, hprefs, hscroll⟩ :=
    handleEvent_cases round count canLaunch cycleCore s ev
  · rw [hout, List.append_nil]
    refine ⟨h.follows, ?_⟩
    intro hlaunching
    rw [hclock] at hlaunching
    obtain ⟨hprefs, hscroll⟩ := hsame hlaunching
    rw [hprefs, hscroll]
    exact h.launching hlaunching
  · rw [hout]
    refine ⟨h.follows.concat trivial, ?_⟩
    intro _
    rw [hprefs, hscroll]
    exact ⟨s.scroll, [], ⟨records, rfl, happroved⟩, rfl⟩

variable (count cycleCore) in
theorem Launches.handleEvents (evs : List InputEvent) :
    ∀ {records : List (LoopEvent Prefs)} {s : LoopState Prefs},
      Launches round canLaunch records s →
      Launches round canLaunch
        (records ++ (s.handleEvents round count canLaunch cycleCore evs).2)
        (s.handleEvents round count canLaunch cycleCore evs).1 := by
  induction evs with
  | nil =>
    intro records s h
    simpa [LoopState.handleEvents] using h
  | cons ev evs ih =>
    intro records s h
    have hrest := ih (h.handleEvent count cycleCore ev)
    rw [List.append_assoc] at hrest
    exact hrest

variable (count) in
theorem Launches.repeatKey {records : List (LoopEvent Prefs)} {s : LoopState Prefs}
    (h : Launches round canLaunch records s) (input : FrameInput) :
    Launches round canLaunch records (s.repeatKey round count input) := by
  unfold LoopState.repeatKey
  split_ifs with hbrowsing
  · have hidle : ¬0 ≤ s.launchT := not_le.mpr hbrowsing.2
    cases s.keyRepeat.due input.repeatMs with
    | none => exact h
    | some due => exact ⟨h.follows, fun hlaunching => absurd hlaunching hidle⟩
  · exact h

theorem Launches.advance {records : List (LoopEvent Prefs)} {s : LoopState Prefs}
    (h : Launches round canLaunch records s) (input : FrameInput) (dt : ℚ) :
    Launches round canLaunch (records ++ [.frame input.positionMs])
      (s.advance round input dt) := by
  refine ⟨h.follows.concat trivial, ?_⟩
  intro hlaunching
  have hbefore : 0 ≤ s.launchT := by
    by_contra hidle
    simp [LoopState.advance, hidle] at hlaunching
  obtain ⟨start, times, ⟨earlier, rfl, happroved⟩, hscroll⟩ := h.launching hbefore
  refine ⟨start, times ++ [input.positionMs], ⟨earlier, by simp [LoopState.advance], happroved⟩, ?_⟩
  simp only [LoopState.advance, hscroll, readAt, List.foldl_append, List.foldl_cons,
    List.foldl_nil]

theorem launchEnd_nonneg : 0 ≤ launchEnd := by decide +kernel

theorem launchIdle_neg : ¬0 ≤ launchIdle := by norm_num [launchIdle]

theorem Launches.finishLaunch {records : List (LoopEvent Prefs)} {s : LoopState Prefs}
    (h : Launches round canLaunch records s) (input : FrameInput) :
    Launches round canLaunch (records ++ (s.finishLaunch input).2) (s.finishLaunch input).1 := by
  unfold LoopState.finishLaunch
  split_ifs with hend
  · obtain ⟨start, times, hpressed, hscroll⟩ :=
      h.launching (le_of_lt (lt_of_le_of_lt launchEnd_nonneg hend))
    refine ⟨h.follows.concat ⟨start, times, hpressed, by rw [hscroll]⟩, ?_⟩
    exact fun hlaunching => absurd hlaunching launchIdle_neg
  · simpa using h

variable (count cycleCore) in
theorem Launches.frame {records : List (LoopEvent Prefs)} {s : LoopState Prefs}
    (h : Launches round canLaunch records s) (input : FrameInput) :
    Launches round canLaunch
      (records ++ (s.frame round count canLaunch cycleCore input).2)
      (s.frame round count canLaunch cycleCore input).1 := by
  have hclock : Launches round canLaunch records { s with lastMs := input.now } :=
    ⟨h.follows, h.launching⟩
  have hend := (((hclock.handleEvents count cycleCore
    (if s.inputOpen then input.events else [])).repeatKey count input).advance
      input (if longestFrame < round (round ↑(input.now - s.lastMs) / 1000) then longestFrame
        else round (round ↑(input.now - s.lastMs) / 1000))).finishLaunch input
  simpa only [LoopState.frame, List.append_assoc, List.singleton_append] using hend

variable (count cycleCore) in
theorem Launches.run (inputs : List FrameInput) :
    ∀ {records : List (LoopEvent Prefs)} {s : LoopState Prefs},
      Launches round canLaunch records s →
      Launches round canLaunch
        (records ++ (s.run round count canLaunch cycleCore inputs).2)
        (s.run round count canLaunch cycleCore inputs).1 := by
  induction inputs with
  | nil =>
    intro records s h
    simpa [LoopState.run] using h
  | cons input inputs ih =>
    intro records s h
    unfold LoopState.run
    split_ifs with hrunning
    · have hrest := ih (h.frame count cycleCore input)
      rw [List.append_assoc] at hrest
      exact hrest
    · simpa using h

/-- Every call of `ggfe_launch_rom` follows an approved A press, and takes the entry that
was selected at the press unless a request for another entry was queued behind a motion
then running, and the motion ended before the launch. -/
theorem selected_launches (round : ℚ → ℚ) (count : ℤ) (canLaunch : Prefs → ℤ → Bool)
    (cycleCore : Prefs → ℤ → ℤ → Prefs) (model : Motion) (durationMs now : ℤ)
    (showCases inputOpen : Bool) (prefs : Prefs) (inputs : List FrameInput)
    {before after : List (LoopEvent Prefs)} {prefs' : Prefs} {entry : ℤ}
    (hlaunch : ((LoopState.start model durationMs now showCases inputOpen prefs).run round count
      canLaunch cycleCore inputs).2 = before ++ .launch prefs' entry :: after) :
    ∃ s times, PressedAt canLaunch before prefs' s times ∧
      (entry = s.target ↔
        ¬(QueuedBehind s ∧ s.pendingTarget ≠ s.target ∧ Overtaken s times)) := by
  have hstart : Launches round canLaunch []
      (LoopState.start model durationMs now showCases inputOpen prefs) :=
    ⟨Always.nil, fun hlaunching => absurd hlaunching launchIdle_neg⟩
  have hrun := (hstart.run count cycleCore inputs).follows
  obtain ⟨s, times, hpressed, rfl⟩ := hrun before (.launch prefs' entry) after hlaunch
  refine ⟨s, times, hpressed, ?_⟩
  rw [readAt_target]
  by_cases htaken : QueuedBehind s ∧ Overtaken s times
  · rw [if_pos htaken]
    constructor
    · intro hsame hother
      exact hother.2.1 hsame
    · intro hnot
      by_contra hother
      exact hnot ⟨htaken.1, hother, htaken.2⟩
  · rw [if_neg htaken]
    constructor
    · rintro - ⟨hqueued, -, hover⟩
      exact htaken ⟨hqueued, hover⟩
    · exact fun _ => rfl

end Runs

/-- A key press at a time. -/
def keyPress (code : Button) (now : ℤ) : InputEvent := ⟨true, code, 1, now, now⟩

/-- A pass of the loop every 100 ms, with these events in the first. -/
def sampleFrames (events : List InputEvent) : List FrameInput :=
  ⟨0, events, 20, 20, 20, true, 0⟩ ::
    (List.range 12).map fun i => ⟨100 * (i + 1), [], 0, 0, 100 * (i + 1) + 20, true, 0⟩

/-- The records of a run on three entries that can all be launched, without cases. -/
def sampleRecords (events : List InputEvent) : List (LoopEvent Unit) :=
  ((LoopState.start .gallery 360 0 false true ()).run id 3 (fun _ _ => true) (fun _ _ _ => ())
    (sampleFrames events)).2

/-- When the first 13 reads of a sample run come. -/
def sampleTimes : List ℤ := (List.range 13).map fun i => 100 * i + 20

/-- The carousel while the motion to the first entry runs. -/
def movingScroll : ScrollState := (startScroll .gallery 360).aim 0 1 1 0

theorem selected_launches_sample : ∃ s times,
    PressedAt (fun (_ : Unit) _ => true)
      (.press () movingScroll :: sampleTimes.map .frame) () s times ∧
    ((1 : ℤ) = s.target ↔
      ¬(QueuedBehind s ∧ s.pendingTarget ≠ s.target ∧ Overtaken s times)) :=
  selected_launches id 3 (fun _ _ => true) (fun _ _ _ => ()) .gallery 360 0 false true ()
    (sampleFrames [keyPress .dpadRight 0, keyPress .east 15])
    (by decide +kernel : sampleRecords [keyPress .dpadRight 0, keyPress .east 15] =
      (.press () movingScroll :: sampleTimes.map .frame) ++ [.launch () 1])

/-- With a second request queued, A approves the first entry and the second one launches. -/
theorem queued_request_launches :
    sampleRecords [keyPress .dpadRight 0, keyPress .dpadRight 10, keyPress .east 15] =
      .press () (movingScroll.enqueue 2 2) :: sampleTimes.map .frame ++ [.launch () 2] ∧
    (movingScroll.enqueue 2 2).target = 1 := by
  decide +kernel

end PlumosBubble.Ggfe
