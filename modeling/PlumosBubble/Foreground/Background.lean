import Mathlib.Data.List.Infix
import Mathlib.Logic.Function.Basic
import PlumosBubble.Transition.Run

/-! The apps that `run_menu_shell_action` starts in the background. The shell of a start makes the
lock directory and leaves a job behind, which runs the app and takes the lock away at its end. The
job stays in the process group that the shell leads, and this is the group that
`terminate_foreground_process_group` empties once the shell has been reaped. The frontend itself
is not asked to end. -/

namespace PlumosBubble.Foreground.Background

open Transition

variable {Id : Type}

/-- Where a job is: it has not set its trap yet, it waits for its app, or the app has ended. -/
inductive Phase where
  | forked
  | waiting
  | leaving
  deriving DecidableEq

/-- A job. `trap` is a TERM or INT whose trap is run when the app has ended; `signalled` tells
whether the frontend has sent the job a signal, and nothing reads it. -/
structure Job (Id : Type) where
  entry : Id
  phase : Phase
  trap : Bool
  signalled : Bool

/-- Where the frontend is: in its loop, in a start with the group of its shell, where `entry` is
that of an app in the background, behind the shell's end, and between the probes of the clean-up
with those left. -/
inductive Call (Id : Type) where
  | idle
  | shell (entry : Option Id) (group : ℕ)
  | ended (group : ℕ)
  | probe (group : ℕ)
  | term (group : ℕ)
  | wait (group : ℕ) (left : ℕ)
  | kill (group : ℕ)

/-- The jobs by their groups, the lock directories, and the frontend. A group is `busy` while the
kernel does not give its id to a new process: other processes of it may be left. -/
structure State (Id : Type) where
  job : ℕ → Option (Job Id)
  busy : ℕ → Bool
  lock : Id → Bool
  call : Call Id

inductive Event (Id : Type) where
  | called (entry : Option Id) (group : ℕ)
  | locked (entry : Id) (group : ℕ)
  | refused (entry : Id)
  | shellEnded
  | reaped
  | probed
  | termed (group : ℕ)
  | killed (group : ℕ)
  | returned
  | trapSet (group : ℕ)
  | appEnded (group : ℕ)
  | sent (group : ℕ)
  | trapRan (group : ℕ)
  | exited (group : ℕ)
  | emptied (group : ℕ)

namespace State

variable (s : State Id)

def setJob (group : ℕ) (job : Option (Job Id)) : State Id :=
  { s with job := Function.update s.job group job }

def setLock [DecidableEq Id] (entry : Id) (value : Bool) : State Id :=
  { s with lock := Function.update s.lock entry value }

/-- TERM, or an INT that is not ignored, reaches a job: without its trap it dies, with it the trap
waits for the end of the app. -/
def receive (group : ℕ) (byFrontend : Bool) : State Id :=
  match s.job group with
  | none => s
  | some job =>
    if job.phase = .forked then s.setJob group none
    else s.setJob group (some { job with
      trap := true
      signalled := job.signalled || byFrontend })

/-- `kill(-group, 0)` does not fail with `ESRCH`. -/
def present (group : ℕ) : Bool := s.busy group

end State

/-- The steps. `mkdir` of the lock and the fork of the job are one, since nothing else looks at the
lock in between; so are the last commands of a job and its EXIT trap. -/
inductive Step [DecidableEq Id] : State Id → Event Id → State Id → Prop
  | called {s : State Id} {entry : Option Id} {group : ℕ} : s.call = .idle →
      s.busy group = false → Step s (.called entry group)
        { s with busy := Function.update s.busy group true, call := .shell entry group }
  | locked {s : State Id} {entry : Id} {group : ℕ} : s.call = .shell (some entry) group →
      s.lock entry = false → Step s (.locked entry group)
        { (s.setLock entry true).setJob group (some ⟨entry, .forked, false, false⟩) with
          call := .ended group }
  | refused {s : State Id} {entry : Id} {group : ℕ} : s.call = .shell (some entry) group →
      s.lock entry = true → Step s (.refused entry) { s with call := .ended group }
  | shellEnded {s : State Id} {group : ℕ} : s.call = .shell none group →
      Step s .shellEnded { s with call := .ended group }
  | reaped {s : State Id} {group : ℕ} : s.call = .ended group →
      Step s .reaped { s with call := .probe group }
  | absent {s : State Id} {group : ℕ} : s.call = .probe group → s.present group = false →
      Step s .returned { s with call := .idle }
  | present {s : State Id} {group : ℕ} : s.call = .probe group → s.present group = true →
      Step s .probed { s with call := .term group }
  | termed {s : State Id} {group : ℕ} : s.call = .term group →
      Step s (.termed group) { s.receive group true with call := .wait group 10 }
  | gone {s : State Id} {group left : ℕ} : s.call = .wait group (left + 1) →
      s.present group = false → Step s .returned { s with call := .idle }
  | left {s : State Id} {group left : ℕ} : s.call = .wait group (left + 1) →
      s.present group = true → Step s .probed { s with call := .wait group left }
  | waited {s : State Id} {group : ℕ} : s.call = .wait group 0 →
      Step s .probed { s with call := .kill group }
  | killed {s : State Id} {group : ℕ} : s.call = .kill group →
      Step s (.killed group) { s.setJob group none with call := .idle }
  | trapSet {s : State Id} {group : ℕ} {job : Job Id} : s.job group = some job →
      job.phase = .forked → Step s (.trapSet group)
        (s.setJob group (some { job with phase := .waiting }))
  | appEnded {s : State Id} {group : ℕ} {job : Job Id} : s.job group = some job →
      job.phase = .waiting → Step s (.appEnded group)
        (s.setJob group (some { job with phase := .leaving }))
  | sent {s : State Id} {group : ℕ} {job : Job Id} : s.job group = some job →
      Step s (.sent group) (s.receive group false)
  | trapRan {s : State Id} {group : ℕ} {job : Job Id} : s.job group = some job →
      job.phase = .leaving → job.trap = true → Step s (.trapRan group)
        ((s.setLock job.entry false).setJob group (some { job with trap := false }))
  | exited {s : State Id} {group : ℕ} {job : Job Id} : s.job group = some job →
      job.phase = .leaving → job.trap = false → Step s (.exited group)
        ((s.setLock job.entry false).setJob group none)
  | emptied {s : State Id} {group : ℕ} : s.job group = none →
      (∀ entry, s.call ≠ .shell entry group) → s.call ≠ .ended group →
      Step s (.emptied group) { s with busy := Function.update s.busy group false }

/-- Before the first start: no job runs, and no lock is there. -/
def Initial (s : State Id) : Prop :=
  (∀ group, s.job group = none) ∧ (∀ entry, s.lock entry = false) ∧ s.call = .idle

/-- An instance of the entry runs. -/
def Runs (s : State Id) (entry : Id) : Prop :=
  ∃ group job, s.job group = some job ∧ job.entry = entry

/-- The lock of an entry is there as long as an instance runs, there is at most one instance, and
the frontend has sent none of them a signal. -/
structure Kept (s : State Id) : Prop where
  lock : ∀ entry, s.lock entry = true ↔ Runs s entry
  single : ∀ group other job more, s.job group = some job → s.job other = some more →
    job.entry = more.entry → group = other
  unsignalled : ∀ group job, s.job group = some job → job.signalled = false

/-- What a start is told: that an instance runs, exactly if one does. -/
def Told (s : State Id) : Event Id → Prop
  | .refused entry => Runs s entry
  | .locked entry _ => ¬Runs s entry
  | _ => True

/-- What an event has to meet: the clean-up finds no job in the group, no signal reaches a job that
has not set its trap, and no trap is run before the end of a job. -/
def Careful (s : State Id) : Event Id → Prop
  | .termed group | .killed group => s.job group = none
  | .sent group => ∀ job, s.job group = some job → job.phase ≠ .forked
  | .trapRan _ => False
  | _ => True

section Invariants

variable {s t : State Id} {e : Event Id} {group : ℕ} {job new : Job Id}

/-- A job has a group of its own: that of no shell that still runs. -/
structure Sound (s : State Id) : Prop where
  job : ∀ group job, s.job group = some job →
    s.busy group = true ∧ ∀ entry, s.call ≠ .shell entry group
  shell : ∀ entry group, s.call = .shell entry group → s.busy group = true

theorem sound_initial (h : Initial s) : Sound s where
  job := fun group job hjob => by
    rw [h.1 group] at hjob
    cases hjob
  shell := fun entry group hcall => by
    rw [h.2.2] at hcall
    cases hcall

theorem Sound.of (h : Sound s) (hjob : ∀ group job, t.job group = some job →
      ∃ job, s.job group = some job) (hbusy : t.busy = s.busy)
    (hcall : ∀ entry group, t.call = .shell entry group → s.call = .shell entry group) :
    Sound t where
  job := fun group job hgroup => by
    obtain ⟨old, hold⟩ := hjob group job hgroup
    rw [hbusy]
    exact ⟨(h.job group old hold).1, fun entry hentry =>
      (h.job group old hold).2 entry (hcall entry group hentry)⟩
  shell := fun entry group hentry => by
    rw [hbusy]
    exact h.shell entry group (hcall entry group hentry)

theorem update_some {f : ℕ → Option (Job Id)} {other : ℕ} {more : Job Id} :
    Function.update f group (some new) other = some more ↔
      other = group ∧ more = new ∨ other ≠ group ∧ f other = some more := by
  by_cases hother : other = group
  · subst hother
    simp [eq_comm]
  · simp [hother]

theorem update_none {f : ℕ → Option (Job Id)} {other : ℕ} {more : Job Id} :
    Function.update f group none other = some more ↔ other ≠ group ∧ f other = some more := by
  by_cases hother : other = group
  · subst hother
    simp
  · simp [hother]

theorem receive_or (s : State Id) (group : ℕ) (byFrontend : Bool) :
    s.job group = none ∧ s.receive group byFrontend = s ∨
    (∃ job, s.job group = some job ∧ job.phase = .forked ∧
      s.receive group byFrontend = s.setJob group none) ∨
    ∃ job, s.job group = some job ∧ job.phase ≠ .forked ∧ s.receive group byFrontend =
      s.setJob group (some { job with
        trap := true
        signalled := job.signalled || byFrontend }) := by
  unfold State.receive
  cases hjob : s.job group with
  | none => exact Or.inl ⟨rfl, rfl⟩
  | some job =>
    by_cases hphase : job.phase = .forked
    · exact Or.inr (Or.inl ⟨job, rfl, hphase, if_pos hphase⟩)
    · exact Or.inr (Or.inr ⟨job, rfl, hphase, if_neg hphase⟩)

theorem receive_rest (s : State Id) (group : ℕ) (byFrontend : Bool) :
    (s.receive group byFrontend).busy = s.busy ∧
      (s.receive group byFrontend).lock = s.lock ∧
      (s.receive group byFrontend).call = s.call := by
  rcases receive_or s group byFrontend with ⟨-, h⟩ | ⟨_, -, -, h⟩ | ⟨_, -, -, h⟩ <;>
    rw [h] <;> exact ⟨rfl, rfl, rfl⟩

theorem receive_job {other : ℕ} {byFrontend : Bool}
    (h : (s.receive group byFrontend).job other = some new) :
    ∃ job, s.job other = some job := by
  rcases receive_or s group byFrontend with ⟨-, hs⟩ | ⟨_, -, -, hs⟩ | ⟨job, hjob, -, hs⟩
  · rw [hs] at h
    exact ⟨new, h⟩
  · rw [hs] at h
    exact ⟨new, (update_none.mp h).2⟩
  · rw [hs] at h
    rcases update_some.mp h with ⟨rfl, -⟩ | ⟨-, hold⟩
    · exact ⟨job, hjob⟩
    · exact ⟨new, hold⟩

/-! ### What an event keeps -/

theorem Kept.same (h : Kept s) (hjob : t.job = s.job) (hlock : t.lock = s.lock) : Kept t where
  lock := fun entry => by
    rw [hlock, h.lock entry]
    unfold Runs
    rw [hjob]
  single := by
    rw [hjob]
    exact h.single
  unsignalled := by
    rw [hjob]
    exact h.unsignalled

theorem Kept.goesOn (h : Kept s) (hold : s.job group = some job) (hentry : new.entry = job.entry)
    (hsent : new.signalled = job.signalled)
    (hjob : t.job = Function.update s.job group (some new)) (hlock : t.lock = s.lock) :
    Kept t := by
  have hof : ∀ {other more}, t.job other = some more →
      ∃ was, s.job other = some was ∧ was.entry = more.entry ∧
        was.signalled = more.signalled := by
    intro other more hmore
    rw [hjob] at hmore
    rcases update_some.mp hmore with ⟨rfl, rfl⟩ | ⟨-, hsame⟩
    · exact ⟨job, hold, hentry.symm, hsent.symm⟩
    · exact ⟨more, hsame, rfl, rfl⟩
  refine ⟨fun entry => ?_, fun first other one two hfirst hother hsame => ?_,
    fun other more hmore => ?_⟩
  · rw [hlock, h.lock entry]
    constructor
    · rintro ⟨other, more, hmore, hid⟩
      by_cases hne : other = group
      · subst hne
        refine ⟨other, new, by rw [hjob, Function.update_self], ?_⟩
        rw [hold] at hmore
        cases hmore
        exact hentry.trans hid
      · exact ⟨other, more, by rw [hjob, Function.update_of_ne hne, hmore], hid⟩
    · rintro ⟨other, more, hmore, hid⟩
      obtain ⟨was, hwas, hwasid, -⟩ := hof hmore
      exact ⟨other, was, hwas, hwasid.trans hid⟩
  · obtain ⟨was, hwas, hid, -⟩ := hof hfirst
    obtain ⟨had, hhad, hid', -⟩ := hof hother
    exact h.single first other was had hwas hhad (hid.trans (hsame.trans hid'.symm))
  · obtain ⟨was, hwas, -, hsent⟩ := hof hmore
    exact hsent.symm.trans (h.unsignalled other was hwas)

theorem Kept.alone (h : Kept s) (hold : s.job group = some job)
    (hjob : t.job = Function.update s.job group none) : ¬Runs t job.entry := by
  rintro ⟨other, more, hmore, hid⟩
  rw [hjob] at hmore
  obtain ⟨hne, hsame⟩ := update_none.mp hmore
  exact hne (h.single other group more job hsame hold hid)

theorem Kept.stale (h : Kept s) (hold : s.job group = some job)
    (hjob : t.job = Function.update s.job group none) (hlock : t.lock = s.lock) :
    t.lock job.entry = true ∧ ¬Runs t job.entry := by
  refine ⟨?_, h.alone hold hjob⟩
  rw [hlock, h.lock job.entry]
  exact ⟨group, job, hold, rfl⟩

theorem not_kept_of_stale {entry : Id} (h : t.lock entry = true ∧ ¬Runs t entry) : ¬Kept t :=
  fun hkept => h.2 ((hkept.lock entry).mp h.1)

theorem Kept.receive (h : Kept s) (hjob : t.job = (s.receive group false).job)
    (hlock : t.lock = s.lock) :
    Kept t ↔ ∀ job, s.job group = some job → job.phase ≠ .forked := by
  rcases receive_or s group false with ⟨hnone, hs⟩ | ⟨job, hold, hphase, hs⟩ |
    ⟨job, hold, hphase, hs⟩
  · rw [hs] at hjob
    refine iff_of_true (h.same hjob hlock) fun job hold => ?_
    rw [hnone] at hold
    cases hold
  · rw [hs] at hjob
    exact iff_of_false (not_kept_of_stale (h.stale hold hjob hlock))
      fun hall => hall job hold hphase
  · rw [hs] at hjob
    have hkept : Kept t := by
      refine h.goesOn hold ?_ ?_ hjob hlock
      · rfl
      · exact Bool.or_false job.signalled
    refine iff_of_true hkept fun other hother => ?_
    rw [hold] at hother
    cases hother
    exact hphase

theorem Kept.term (h : Kept s) (hjob : t.job = (s.receive group true).job)
    (hlock : t.lock = s.lock) : Kept t ↔ s.job group = none := by
  rcases receive_or s group true with ⟨hnone, hs⟩ | ⟨job, hold, -, hs⟩ | ⟨job, hold, -, hs⟩
  · rw [hs] at hjob
    exact iff_of_true (h.same hjob hlock) hnone
  · rw [hs] at hjob
    exact iff_of_false (not_kept_of_stale (h.stale hold hjob hlock)) (by simp [hold])
  · rw [hs] at hjob
    refine iff_of_false (fun hkept => ?_) (by simp [hold])
    have hsent := hkept.unsignalled group _ (by rw [hjob]; exact Function.update_self ..)
    exact Bool.false_ne_true (hsent.symm.trans (Bool.or_true _))

theorem Kept.kill (h : Kept s) (hjob : t.job = Function.update s.job group none)
    (hlock : t.lock = s.lock) : Kept t ↔ s.job group = none := by
  cases hold : s.job group with
  | none =>
    refine iff_of_true (h.same ?_ hlock) rfl
    rw [hjob, ← hold, Function.update_eq_self]
  | some job => exact iff_of_false (not_kept_of_stale (h.stale hold hjob hlock)) (by simp)

theorem kept_initial (h : Initial s) : Kept s where
  lock := fun entry => by
    rw [h.2.1 entry]
    refine iff_of_false Bool.false_ne_true ?_
    rintro ⟨group, job, hjob, -⟩
    rw [h.1 group] at hjob
    cases hjob
  single := fun group _ _ _ hjob => by
    rw [h.1 group] at hjob
    cases hjob
  unsignalled := fun group _ hjob => by
    rw [h.1 group] at hjob
    cases hjob

variable [DecidableEq Id]

theorem Kept.starts {entry : Id} (h : Kept s) (hfree : s.lock entry = false)
    (hnone : s.job group = none)
    (hjob : t.job = Function.update s.job group (some ⟨entry, .forked, false, false⟩))
    (hlock : t.lock = Function.update s.lock entry true) : Kept t := by
  have hnew : ¬Runs s entry := fun hruns => by
    rw [← h.lock entry, hfree] at hruns
    cases hruns
  have hof : ∀ {other more}, t.job other = some more →
      other = group ∧ more = ⟨entry, .forked, false, false⟩ ∨
        other ≠ group ∧ more.entry ≠ entry ∧ s.job other = some more := by
    intro other more hmore
    rw [hjob] at hmore
    rcases update_some.mp hmore with hmore | ⟨hne, hsame⟩
    · exact Or.inl hmore
    · exact Or.inr ⟨hne, fun hid => hnew ⟨other, more, hsame, hid⟩, hsame⟩
  refine ⟨fun id => ?_, fun first other one two hfirst hother hsame => ?_,
    fun other more hmore => ?_⟩
  · by_cases hid : id = entry
    · subst hid
      rw [hlock, Function.update_self]
      exact ⟨fun _ => ⟨group, _, by rw [hjob, Function.update_self], rfl⟩, fun _ => rfl⟩
    · rw [hlock, Function.update_of_ne hid, h.lock id]
      constructor
      · rintro ⟨other, more, hmore, hmoreid⟩
        have hne : other ≠ group := fun heq => by
          rw [heq, hnone] at hmore
          cases hmore
        exact ⟨other, more, by rw [hjob, Function.update_of_ne hne, hmore], hmoreid⟩
      · rintro ⟨other, more, hmore, hmoreid⟩
        rcases hof hmore with ⟨-, rfl⟩ | ⟨-, -, hsame⟩
        · exact absurd hmoreid.symm hid
        · exact ⟨other, more, hsame, hmoreid⟩
  · rcases hof hfirst with ⟨rfl, rfl⟩ | ⟨-, hneFirst, hsFirst⟩
    · rcases hof hother with ⟨rfl, -⟩ | ⟨-, hneOther, -⟩
      · rfl
      · exact absurd hsame.symm hneOther
    · rcases hof hother with ⟨-, rfl⟩ | ⟨-, -, hsOther⟩
      · exact absurd hsame hneFirst
      · exact h.single first other one two hsFirst hsOther hsame
  · rcases hof hmore with ⟨-, rfl⟩ | ⟨-, -, hsame⟩
    · rfl
    · exact h.unsignalled other more hsame

theorem Kept.ends (h : Kept s) (hold : s.job group = some job)
    (hjob : t.job = Function.update s.job group none)
    (hlock : t.lock = Function.update s.lock job.entry false) : Kept t := by
  have hof : ∀ {other more}, t.job other = some more → other ≠ group ∧ s.job other = some more := by
    intro other more hmore
    rw [hjob] at hmore
    exact update_none.mp hmore
  refine ⟨fun id => ?_, fun first other one two hfirst hother hsame => ?_,
    fun other more hmore => h.unsignalled other more (hof hmore).2⟩
  · by_cases hid : id = job.entry
    · subst hid
      rw [hlock, Function.update_self]
      exact iff_of_false Bool.false_ne_true (h.alone hold hjob)
    · rw [hlock, Function.update_of_ne hid, h.lock id]
      constructor
      · rintro ⟨other, more, hmore, hmoreid⟩
        have hne : other ≠ group := fun heq => by
          rw [heq, hold] at hmore
          cases hmore
          exact hid hmoreid.symm
        exact ⟨other, more, by rw [hjob, Function.update_of_ne hne, hmore], hmoreid⟩
      · rintro ⟨other, more, hmore, hmoreid⟩
        exact ⟨other, more, (hof hmore).2, hmoreid⟩
  · exact h.single first other one two (hof hfirst).2 (hof hother).2 hsame

theorem sound_step (h : Sound s) (hstep : Step s e t) : Sound t := by
  have hcall : ∀ {call : Call Id}, (∀ entry group, call ≠ .shell entry group) →
      ∀ entry group, call = .shell entry group → s.call = .shell entry group :=
    fun hne entry group hentry => absurd hentry (hne entry group)
  cases hstep with
  | @called entry group hidle hfree =>
    refine ⟨fun other job hjob => ?_, fun _ other hother => ?_⟩
    · have hbusy := (h.job other job hjob).1
      have hne : other ≠ group := fun heq => by
        rw [heq, hfree] at hbusy
        cases hbusy
      refine ⟨(Function.update_of_ne hne ..).trans hbusy, fun _ hother => ?_⟩
      cases hother
      exact hne rfl
    · cases hother
      exact Function.update_self ..
  | @locked entry group hshell _ =>
    refine ⟨fun other job hjob => ⟨?_, fun _ hother => by cases hother⟩,
      fun _ _ hother => by cases hother⟩
    rcases update_some.mp hjob with ⟨rfl, -⟩ | ⟨-, hold⟩
    · exact h.shell (some entry) other hshell
    · exact (h.job other job hold).1
  | refused _ _ | shellEnded _ | reaped _ | absent _ _ | present _ _ | gone _ _ | left _ _
  | waited _ =>
    exact h.of (fun _ job hjob => ⟨job, hjob⟩) rfl (hcall (by simp))
  | @termed group _ =>
    exact h.of (fun _ _ hjob => receive_job hjob) (receive_rest ..).1 (hcall (by simp))
  | killed _ => exact h.of (fun _ job hjob => ⟨job, (update_none.mp hjob).2⟩) rfl (hcall (by simp))
  | @trapSet group job hjob _ | @appEnded group job hjob _ | @trapRan group job hjob _ _ =>
    refine h.of (fun other more hmore => ?_) rfl fun _ _ hentry => hentry
    rcases update_some.mp hmore with ⟨rfl, -⟩ | ⟨-, hold⟩
    · exact ⟨job, hjob⟩
    · exact ⟨more, hold⟩
  | @sent group job hjob =>
    refine h.of (fun _ _ hmore => receive_job hmore) (receive_rest ..).1 fun _ _ hentry => ?_
    rwa [(receive_rest ..).2.2] at hentry
  | exited _ _ _ =>
    exact h.of (fun _ job hjob => ⟨job, (update_none.mp hjob).2⟩) rfl fun _ _ hentry => hentry
  | @emptied group hnone hcall _ =>
    refine ⟨fun other job hjob => ⟨?_, (h.job other job hjob).2⟩, fun entry other hother => ?_⟩
    · have hne : other ≠ group := fun heq => by
        rw [heq, hnone] at hjob
        cases hjob
      exact (Function.update_of_ne hne ..).trans (h.job other job hjob).1
    · have hne : other ≠ group := fun heq => hcall entry (heq ▸ hother)
      exact (Function.update_of_ne hne ..).trans (h.shell entry other hother)

/-- The step lemma: an event keeps the locks exactly if it meets its condition. -/
theorem kept_step (hs : Sound s) (h : Kept s) (hstep : Step s e t) : Kept t ↔ Careful s e := by
  cases hstep with
  | called _ _ | refused _ _ | shellEnded _ | reaped _ | absent _ _ | present _ _ | gone _ _
  | left _ _ | waited _ | emptied _ _ _ => exact iff_of_true (h.same rfl rfl) trivial
  | @locked entry group hshell hfree =>
    have hnone : s.job group = none := by
      cases hold : s.job group with
      | none => rfl
      | some job => exact absurd hshell ((hs.job group job hold).2 (some entry))
    exact iff_of_true (h.starts hfree hnone rfl rfl) trivial
  | termed _ => exact h.term rfl (receive_rest ..).2.1
  | killed _ => exact h.kill rfl rfl
  | @trapSet group job hold _ | @appEnded group job hold _ =>
    refine iff_of_true (h.goesOn hold ?_ ?_ rfl rfl) trivial
    · rfl
    · rfl
  | sent _ => exact h.receive rfl (receive_rest ..).2.1
  | @trapRan group job hold _ _ =>
    refine iff_of_false (fun hkept => ?_) id
    have hruns := (hkept.lock job.entry).mpr ⟨group, _, Function.update_self .., rfl⟩
    exact Bool.false_ne_true ((Function.update_self ..).symm.trans hruns)
  | exited hold _ _ => exact iff_of_true (h.ends hold rfl rfl) trivial

theorem told_of_kept (h : Kept s) (hstep : Step s e t) : Told s e := by
  cases hstep with
  | @locked entry _ _ hfree =>
    intro hruns
    rw [← h.lock entry, hfree] at hruns
    cases hruns
  | @refused entry _ _ hlock => exact (h.lock entry).mp hlock
  | _ => trivial

end Invariants

section Runs

variable [DecidableEq Id] {s : State Id}

/-- In every run the lock of an app in the background is there exactly while its one instance runs,
which the frontend sends no signal, and a start is told that an instance runs exactly if one does:
this holds exactly if each clean-up finds that the job has ended by itself, no signal reaches a job
that has not set its trap, and none has its trap run before its end. -/
theorem background_iff (hs : Initial s) (events : List (Event Id)) :
    ((∀ es rest u, events = es ++ rest → Run Step s es u → Kept u) ∧
      ∀ es e rest u v, events = es ++ e :: rest → Run Step s es u → Step u e v → Told u e) ↔
      ∀ es e rest u v, events = es ++ e :: rest → Run Step s es u → Step u e v →
        Careful u e := by
  have hkept : (∀ es rest u, events = es ++ rest → Run Step s es u → Kept u) ↔
      ∀ es e rest u v, events = es ++ e :: rest → Run Step s es u → Step u e v →
        Careful u e := by
    apply Run.all_iff (sound_initial hs) (kept_initial hs)
    · intro t e u hsound hstep
      exact sound_step hsound hstep
    · intro t e u hsound hkept hstep
      exact kept_step hsound hkept hstep
  rw [← hkept, and_iff_left_iff_imp]
  intro hall es e rest u v hevents hrun hstep
  exact told_of_kept (hall es (e :: rest) u hevents hrun) hstep

end Runs

/-- Nothing has been started. -/
def fresh : State ℕ where
  job := fun _ => none
  busy := fun _ => false
  lock := fun _ => false
  call := .idle

theorem initial_fresh : Initial fresh := ⟨fun _ => rfl, fun _ => rfl, rfl⟩

/-- The app 0 has been started in the group 7, and the shell is about to end. -/
def started : State ℕ :=
  let called : State ℕ :=
    { fresh with busy := Function.update fresh.busy 7 true, call := .shell (some 0) 7 }
  { (called.setLock 0 true).setJob 7 (some ⟨0, .forked, false, false⟩) with call := .ended 7 }

theorem started_run : Run Step fresh [.called (some 0) 7, .locked 0 7] started :=
  (Run.single (Step.called rfl rfl)).concat (Step.locked rfl rfl)

theorem background_sample : ∃ t, Run Step fresh
    [.called (some 0) 7, .locked 0 7, .trapSet 7, .appEnded 7, .exited 7, .reaped, .emptied 7,
      .returned] t ∧ t.lock 0 = false ∧ Kept t := by
  have hwaiting := started_run.concat
    (@Step.trapSet _ _ _ 7 ⟨0, .forked, false, false⟩ rfl rfl)
  have hended := hwaiting.concat (@Step.appEnded _ _ _ 7 ⟨0, .waiting, false, false⟩ rfl rfl)
  have hleft := hended.concat (@Step.exited _ _ _ 7 ⟨0, .leaving, false, false⟩ rfl rfl rfl)
  have hreaped := hleft.concat (@Step.reaped _ _ _ 7 rfl)
  have hempty := hreaped.concat (@Step.emptied _ _ _ 7 rfl (by simp) (by simp))
  have hback := hempty.concat (@Step.absent _ _ _ 7 rfl rfl)
  refine ⟨_, hback, rfl, ((background_iff initial_fresh _).mpr ?_).1 _ [] _ rfl hback⟩
  intro es e rest u v hevents _ _
  have hmem : e ∈ es ++ e :: rest := by simp
  rw [← hevents] at hmem
  simp only [List.cons_append, List.nil_append, List.mem_cons, List.not_mem_nil, or_false] at hmem
  rcases hmem with rfl | rfl | rfl | rfl | rfl | rfl | rfl | rfl <;> trivial

/-- An app that still runs when the shell is reaped is sent TERM, and is killed half a second
later; its lock is left behind, and the next start is told that it still runs. -/
theorem killed_at_start : ∃ s : State ℕ, Initial s ∧ ∃ es t, Run Step s es t ∧
    .termed 7 ∈ es ∧ .killed 7 ∈ es ∧ .appEnded 7 ∉ es ∧ (∀ group, .sent group ∉ es) ∧
      ¬Runs t 0 ∧ ∃ u, Step t (.refused 0) u := by
  have hwaiting := started_run.concat
    (@Step.trapSet _ _ _ 7 ⟨0, .forked, false, false⟩ rfl rfl)
  have hterm := ((hwaiting.concat (@Step.reaped _ _ _ 7 rfl)).concat
    (@Step.present _ _ _ 7 rfl rfl)).concat (@Step.termed _ _ _ 7 rfl)
  have hleft : ∀ n (u : State ℕ), u.call = .wait 7 n → u.busy 7 = true →
      Run Step u (List.replicate n .probed) { u with call := .wait 7 0 } := by
    intro n
    induction n with
    | zero => exact fun u hcall _ => by rw [← hcall]; exact .nil
    | succ n ih =>
      intro u hcall hbusy
      exact (Run.single (Step.left hcall hbusy)).append (ih _ rfl hbusy)
  have hwait := hterm.append (hleft 10 _ rfl rfl)
  have hkill := (hwait.concat (@Step.waited _ _ _ 7 rfl)).concat (@Step.killed _ _ _ 7 rfl)
  have hagain := hkill.concat (@Step.called _ _ _ (some 0) 8 rfl rfl)
  refine ⟨fresh, initial_fresh, _, _, hagain, by simp, by simp, by simp, by simp, ?_, _,
    @Step.refused _ _ _ 0 8 rfl rfl⟩
  rintro ⟨group, job, hjob, -⟩
  obtain ⟨hne, hsent⟩ := update_none.mp hjob
  have hother : ∀ {f : ℕ → Option (Job ℕ)} {new job : Job ℕ},
      Function.update f 7 (some new) group = some job → f group = some job := by
    intro f new job hjob
    rcases update_some.mp hjob with ⟨hgroup, -⟩ | ⟨-, hold⟩
    · exact absurd hgroup hne
    · exact hold
  cases hother (hother (hother hsent))

end PlumosBubble.Foreground.Background
