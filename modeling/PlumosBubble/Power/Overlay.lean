import Mathlib.Data.List.Dedup
import Mathlib.Data.List.Basic

/-! The power menu over a running game: `plumos-runtime-quiesce` stops the processes that own
the display and `plumos-power-menu-overlay` decides what becomes of them. One run of the
overlay is a function of what it meets; its trace lists what happened to the processes. -/

namespace PlumosBubble.Power

/-- A line of the state file. -/
inductive Line where
  | pid (p : ℕ)
  | master (p : ℕ)
  deriving DecidableEq

/-- What happens to a process. -/
inductive Event where
  | stopped (p : ℕ)
  | dropped (p : ℕ)
  | masterSet (p : ℕ)
  | continued (p : ℕ)
  | terminated (p : ℕ)
  deriving DecidableEq

/-- What a process does when it is told to end. -/
inductive Fate where
  | diesOfTerm
  | diesOfKill
  | survives
  deriving DecidableEq

inductive Selection where
  | sleep
  | reboot
  | shutdown
  | cancel
  | ignored
  deriving DecidableEq

/-- The command after which a TERM or INT is handled. -/
inductive SignalPoint where
  | beforeHold
  | afterHold
  | afterMenu
  | afterTerminate
  deriving DecidableEq

/-- What one run of the overlay meets: the processes, and how each command ends. -/
structure Setting where
  owners : List ℕ
  owners_nodup : owners.Nodup
  self : ℕ
  parent : ℕ
  drmHelper : Bool
  toolsPresent : Bool
  mkdirOk : Bool
  createOk : Bool
  renameOk : Bool
  stopOk : ℕ → Bool
  dropOk : ℕ → Bool
  pidWritten : ℕ → Bool
  masterWritten : ℕ → Bool
  signal : Option SignalPoint
  selection : Selection
  group : List ℕ
  groupFate : ℕ → Fate
  listFate : ℕ → Fate
  excluded : ℕ → Bool
  actionOk : Bool

def isPid (p : ℕ) : Bool := 1 < p

/-- `pid_is_live`, by what happened so far. -/
def isLive (trace : List Event) (p : ℕ) : Bool := !trace.contains (.terminated p)

section Quiesce

variable (e : Setting)

/-- The guards of the loop in `hold_runtime` and the two signals. -/
def stops (p : ℕ) : Bool := isPid p && p ≠ e.self && p ≠ e.parent && e.stopOk p

def drops (p : ℕ) : Bool := stops e p && e.drmHelper && e.dropOk p

/-- One round of the loop: what happens, and what is appended to the file. -/
def holdRound (p : ℕ) : List Event × List Line :=
  if stops e p then
    (.stopped p :: if drops e p then [.dropped p] else [],
      (if e.pidWritten p then [.pid p] else []) ++
        if drops e p && e.masterWritten p then [.master p] else [])
  else ([], [])

/-- What `hold_runtime` leaves: the trace, the state file and the exit status. -/
structure Held where
  trace : List Event
  file : Option (List Line)
  ok : Bool

def holdRuntime : Held :=
  if e.mkdirOk && e.createOk then
    { trace := e.owners.flatMap fun p => (holdRound e p).1
      file := if e.renameOk then some (e.owners.flatMap fun p => (holdRound e p).2) else none
      ok := e.renameOk }
  else ⟨[], none, false⟩

/-- The first loop of `release_runtime`. -/
def setMasters (trace : List Event) (lines : List Line) : List Event :=
  lines.filterMap fun line =>
    match line with
    | .master p => if isPid p && e.drmHelper && isLive trace p then some (.masterSet p) else none
    | .pid _ => none

/-- The second one. -/
def continueAll (trace : List Event) (lines : List Line) : List Event :=
  lines.filterMap fun line =>
    match line with
    | .pid p => if isPid p && isLive trace p then some (.continued p) else none
    | .master _ => none

def releaseRuntime (trace : List Event) (file : Option (List Line)) : List Event :=
  match file with
  | none => []
  | some lines => setMasters e trace lines ++ continueAll trace lines

/-- TERM and CONT to each process, then KILL to those that are still there. -/
def signalAll (fate : ℕ → Fate) (pids : List ℕ) : List Event :=
  pids.map .continued ++ (pids.filter fun p => fate p = .diesOfTerm).map .terminated ++
    (pids.filter fun p => fate p = .diesOfKill).map .terminated

def survivor (fate : ℕ → Fate) (pids : List ℕ) : Bool := pids.any fun p => fate p = .survives

def terminateGroup : List Event × Bool :=
  (signalAll e.groupFate e.group, !survivor e.groupFate e.group)

/-- The pids that `terminate_pid_list` collects. -/
def collectPids (trace : List Event) (pids : List ℕ) : List ℕ :=
  (pids.filter fun p => isPid p && !e.excluded p && isLive trace p).dedup

def terminatePidList (trace : List Event) (pids : List ℕ) : List Event × Bool :=
  let collected := collectPids e trace pids
  (signalAll e.listFate collected, !survivor e.listFate collected)

def statePids (file : Option (List Line)) : List ℕ :=
  (file.getD []).filterMap fun line =>
    match line with
    | .pid p => some p
    | .master _ => none

/-- `terminate_active`: what happens, the state file after it and the exit status. -/
def terminateActive (trace : List Event) (file : Option (List Line)) :
    List Event × Option (List Line) × Bool :=
  let group := terminateGroup e
  let list := terminatePidList e (trace ++ group.1) (statePids file)
  if group.2 && list.2 then (group.1 ++ list.1, none, true)
  else (group.1 ++ list.1, file, false)

end Quiesce

section Overlay

variable (e : Setting)

/-- What a run of the overlay leaves. -/
structure Exit where
  trace : List Event
  committed : Bool

/-- `release_runtime` of the overlay, and again in the trap where nothing is left to do. -/
def leaveBy (trace : List Event) (file : Option (List Line)) : Exit :=
  ⟨trace ++ releaseRuntime e trace file, false⟩

/-- The branch of `reboot` and `shutdown`. -/
def terminalAction (held : Held) : Exit :=
  let ended := terminateActive e held.trace held.file
  let trace := held.trace ++ ended.1
  if ended.2.2 then
    if e.signal = some .afterTerminate then leaveBy e trace ended.2.1
    else if e.actionOk then ⟨trace, true⟩
    else leaveBy e trace ended.2.1
  else leaveBy e trace ended.2.1

/-- `plumos-power-menu-overlay`, once it has its lock. -/
def overlay : Exit :=
  if e.toolsPresent = false ∨ e.signal = some .beforeHold then leaveBy e [] none
  else
    let held := holdRuntime e
    if held.ok = false ∨ e.signal = some .afterHold ∨ e.signal = some .afterMenu then
      leaveBy e held.trace held.file
    else
      match e.selection with
      | .reboot | .shutdown => terminalAction e held
      | .sleep | .cancel | .ignored => leaveBy e held.trace held.file

end Overlay

section Hold

variable {e : Setting} {p : ℕ} {trace : List Event} {lines : List Line}

/-- `hold_runtime` gets to its loop and stops the process there. -/
def Stopped (e : Setting) (p : ℕ) : Prop :=
  (e.mkdirOk && e.createOk) = true ∧ p ∈ e.owners ∧ stops e p = true

/-- It drops the DRM master of the process as well. -/
def Dropped (e : Setting) (p : ℕ) : Prop := Stopped e p ∧ drops e p = true

theorem holdRuntime_of_ok (h : (e.mkdirOk && e.createOk) = true) :
    holdRuntime e = ⟨e.owners.flatMap fun p => (holdRound e p).1,
      if e.renameOk then some (e.owners.flatMap fun p => (holdRound e p).2) else none,
      e.renameOk⟩ := by
  unfold holdRuntime
  rw [if_pos h]

theorem mem_holdRound {event : Event} {q : ℕ} : event ∈ (holdRound e q).1 ↔
    stops e q = true ∧ (event = .stopped q ∨ drops e q = true ∧ event = .dropped q) := by
  unfold holdRound
  split
  · rename_i hstops
    split
    · simp_all
    · simp_all
  · simp_all

theorem mem_hold {event : Event} : event ∈ (holdRuntime e).trace ↔
    ∃ q, Stopped e q ∧ (event = .stopped q ∨ drops e q = true ∧ event = .dropped q) := by
  by_cases h : (e.mkdirOk && e.createOk) = true
  · rw [holdRuntime_of_ok h]
    simp only [List.mem_flatMap, mem_holdRound, Stopped, h, true_and]
    constructor
    · rintro ⟨q, hq, hs, hevent⟩
      exact ⟨q, ⟨hq, hs⟩, hevent⟩
    · rintro ⟨q, ⟨hq, hs⟩, hevent⟩
      exact ⟨q, hq, hs, hevent⟩
  · unfold holdRuntime Stopped
    rw [if_neg h]
    simp [h]

theorem mem_hold_stopped : .stopped p ∈ (holdRuntime e).trace ↔ Stopped e p := by
  rw [mem_hold]
  simp

theorem mem_hold_dropped : .dropped p ∈ (holdRuntime e).trace ↔ Dropped e p := by
  rw [mem_hold]
  simp [Dropped]

theorem hold_quiet : .continued p ∉ (holdRuntime e).trace ∧ .terminated p ∉ (holdRuntime e).trace ∧
    .masterSet p ∉ (holdRuntime e).trace := by
  refine ⟨?_, ?_, ?_⟩ <;> rw [mem_hold] <;> simp

theorem mem_hold_file (hfile : (holdRuntime e).file = some lines) :
    (.pid p ∈ lines ↔ Stopped e p ∧ e.pidWritten p = true) ∧
      (.master p ∈ lines ↔ Dropped e p ∧ e.masterWritten p = true) := by
  by_cases h : (e.mkdirOk && e.createOk) = true
  · rw [holdRuntime_of_ok h] at hfile
    by_cases hrename : e.renameOk = true
    · simp only [hrename, if_true, Option.some.injEq] at hfile
      subst hfile
      have hround : ∀ q line, line ∈ (holdRound e q).2 ↔ stops e q = true ∧
          (e.pidWritten q = true ∧ line = .pid q ∨
            (drops e q = true ∧ e.masterWritten q = true) ∧ line = .master q) := by
        intro q line
        unfold holdRound
        split
        · rename_i hstops
          simp [hstops]
        · rename_i hstops
          simp [hstops]
      simp only [List.mem_flatMap, hround, Stopped, Dropped, h]
      constructor
      · constructor
        · rintro ⟨q, hq, hs, ⟨hw, heq⟩ | ⟨-, heq⟩⟩
          · cases heq
            exact ⟨⟨trivial, hq, hs⟩, hw⟩
          · cases heq
        · rintro ⟨⟨-, hq, hs⟩, hw⟩
          exact ⟨p, hq, hs, Or.inl ⟨hw, rfl⟩⟩
      · constructor
        · rintro ⟨q, hq, hs, ⟨-, heq⟩ | ⟨⟨hd, hw⟩, heq⟩⟩
          · cases heq
          · cases heq
            exact ⟨⟨⟨trivial, hq, hs⟩, hd⟩, hw⟩
        · rintro ⟨⟨⟨-, hq, hs⟩, hd⟩, hw⟩
          exact ⟨p, hq, hs, Or.inr ⟨⟨hd, hw⟩, rfl⟩⟩
    · simp [hrename] at hfile
  · unfold holdRuntime at hfile
    rw [if_neg h] at hfile
    cases hfile

end Hold

end PlumosBubble.Power
