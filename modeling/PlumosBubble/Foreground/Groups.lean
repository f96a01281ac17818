import Mathlib.Data.List.Basic
import PlumosBubble.Transition.Run

/-! The foreground process group of the frontend, the marker file that names it and the runs
of `plumos-runtime-quiesce` that read the marker. A launch is the process that
`run_foreground_shell_command` forks, with the group it leads; the kernel may give a free id to
any new process. A signal is a step of its sender only. What a process does about it, down to
its death by `SIGKILL`, is a later step of that process. -/

namespace PlumosBubble.Foreground

/-- A process. `ours` is a ghost: its group was made by a launch and has had a member ever
since. -/
structure Proc where
  pid : ℕ
  pgid : ℕ
  ours : Bool
  zombie : Bool
  deriving DecidableEq

/-- The places of `terminate_foreground_process_group`. -/
inductive Terminate
  | probe
  | term
  | wait (left : ℕ)
  | kill

/-- What the call to `terminate_foreground_process_group` is followed by. -/
inductive After
  | clear
  | reap
  deriving DecidableEq

/-- The places of `run_foreground_shell_command`, with the child's id. -/
inductive Frontend
  | idle
  | forked (p : ℕ)
  | abandoning (p : ℕ)
  | publishing (p : ℕ)
  | running (p : ℕ)
  | terminating (p : ℕ) (place : Terminate) (after : After)
  | reaping (p : ℕ)
  | clearing (p : ℕ)
  | unlinking (p : ℕ)

/-- The place where `terminate_foreground_process_group` returns to. -/
def After.next (p : ℕ) : After → Frontend
  | .clear => .clearing p
  | .reap => .reaping p

/-- The group that the frontend may still publish or signal. -/
def Frontend.group : Frontend → Option ℕ
  | .forked p | .publishing p | .running p | .terminating p _ _ => some p
  | _ => none

/-- The child that only the frontend can reap. -/
def Frontend.child : Frontend → Option ℕ
  | .forked p | .abandoning p | .publishing p | .running p | .reaping p => some p
  | .terminating p _ .reap => some p
  | _ => none

/-- Where in `terminate_group` a scan of `group_is_live` stands: at the first test, in one of
the two waiting loops with the attempts left after this one, or at the tests between and after
them. -/
inductive Test
  | first
  | termWait (left : ℕ)
  | check
  | killWait (left : ℕ)
  | last

/-- The places of a terminate run. -/
inductive Quiesce
  | start
  | listing (g : ℕ) (test : Test)
  | scan (g : ℕ) (test : Test) (left : List ℕ)
  | term (g : ℕ)
  | cont (g : ℕ)
  | kill (g : ℕ)
  | remove (g : ℕ)
  | pids (ok : Bool)

/-- The group that the run may still signal. -/
def Quiesce.group : Quiesce → Option ℕ
  | .listing g _ | .scan g _ _ | .term g | .cont g | .kill g => some g
  | _ => none

/-- What follows a scan that has found a live process of the group. -/
def Test.live (g : ℕ) : Test → Quiesce
  | .first => .term g
  | .termWait 0 => .listing g .check
  | .termWait (n + 1) => .listing g (.termWait n)
  | .check => .kill g
  | .killWait 0 => .listing g .last
  | .killWait (n + 1) => .listing g (.killWait n)
  | .last => .pids false

/-- What follows a scan that has found none. -/
def Test.gone (g : ℕ) : Test → Quiesce
  | .first | .last => .remove g
  | .termWait _ => .listing g .check
  | .check | .killWait _ => .listing g .last

structure State where
  procs : List Proc
  marker : Option ℕ
  frontend : Frontend
  /-- `g_terminate_requested`. -/
  requested : Bool
  runs : List Quiesce

/-- What a step shows. -/
inductive Event
  | launched (p : ℕ)
  | created (g : ℕ)
  | forked (q g : ℕ)
  | joined (q g : ℕ)
  | looked
  | signalled (g : ℕ)
  | returned (ok : Bool)
  | moved

/-- An id the kernel may give out: no process has it, and none has it as its group. -/
def Fresh (s : State) (q : ℕ) : Prop := 1 < q ∧ ∀ m ∈ s.procs, m.pid ≠ q ∧ m.pgid ≠ q

/-- `kill(-g, 0)` does not fail with `ESRCH`. -/
def Present (s : State) (g : ℕ) : Prop := ∃ m ∈ s.procs, m.pgid = g

/-- A step of a run, and the marker it leaves. `kill` is sent only to a group that is there. -/
inductive Quiesce.Step (s : State) : Quiesce → Event → Option ℕ → Quiesce → Prop
  | no_marker (hm : s.marker = none) : Step s .start .looked s.marker (.pids true)
  | marker {g : ℕ} (hm : s.marker = some g) :
      Step s .start .looked s.marker (.listing g .first)
  /-- The glob `/proc/[0-9]*/stat`: every process of now is in it. -/
  | listed {g : ℕ} {test : Test} {left : List ℕ} (hleft : ∀ m ∈ s.procs, m.pid ∈ left) :
      Step s (.listing g test) .moved s.marker (.scan g test left)
  | found {g : ℕ} {test : Test} {left : List ℕ} {m : Proc} (hm : m ∈ s.procs)
      (hg : m.pgid = g) (hz : m.zombie = false) :
      Step s (.scan g test (m.pid :: left)) .moved s.marker (test.live g)
  | passed {g : ℕ} {test : Test} {left : List ℕ} {q : ℕ}
      (hq : ∀ m ∈ s.procs, m.pid = q → m.pgid = g → m.zombie = true) :
      Step s (.scan g test (q :: left)) .moved s.marker (.scan g test left)
  | scanned {g : ℕ} {test : Test} : Step s (.scan g test []) .moved s.marker (test.gone g)
  | term {g : ℕ} (hg : Present s g) : Step s (.term g) (.signalled g) s.marker (.cont g)
  | term_absent {g : ℕ} (hg : ¬ Present s g) : Step s (.term g) .moved s.marker (.cont g)
  | cont {g : ℕ} (hg : Present s g) :
      Step s (.cont g) (.signalled g) s.marker (.listing g (.termWait 29))
  | cont_absent {g : ℕ} (hg : ¬ Present s g) :
      Step s (.cont g) .moved s.marker (.listing g (.termWait 29))
  | kill {g : ℕ} (hg : Present s g) :
      Step s (.kill g) (.signalled g) s.marker (.listing g (.killWait 9))
  | kill_absent {g : ℕ} (hg : ¬ Present s g) :
      Step s (.kill g) .moved s.marker (.listing g (.killWait 9))
  /-- `rm -f` takes the file away whatever it names by now. -/
  | remove {g : ℕ} : Step s (.remove g) .moved none (.pids true)

/-- A step of the frontend, of a terminate run or of any other program. -/
inductive Step (s : State) : Event → State → Prop
  /-- `vfork`: when it returns the child leads its own group. -/
  | launch {p : ℕ} (hf : s.frontend = .idle) (hp : Fresh s p) :
      Step s (.launched p) { s with
        procs := s.procs ++ [⟨p, p, true, false⟩], frontend := .forked p }
  | grouped {p : ℕ} (hf : s.frontend = .forked p) :
      Step s .moved { s with frontend := .publishing p }
  /-- `setpgid` fails otherwise than with `EACCES` or `ESRCH`. -/
  | refused {p : ℕ} (hf : s.frontend = .forked p) :
      Step s .moved { s with frontend := .abandoning p }
  | abandoned {p : ℕ} {l r : List Proc} {m : Proc} (hf : s.frontend = .abandoning p)
      (hs : s.procs = l ++ m :: r) (hm : m.pid = p) (hz : m.zombie = true) :
      Step s .moved { s with procs := l ++ r, frontend := .idle }
  | publish {p : ℕ} (hf : s.frontend = .publishing p) :
      Step s .moved { s with marker := some p, frontend := .running p }
  | unpublished {p : ℕ} (hf : s.frontend = .publishing p) :
      Step s .moved { s with frontend := .running p }
  /-- `waitpid` has reaped the child. -/
  | waited {p : ℕ} {l r : List Proc} {m : Proc} (hf : s.frontend = .running p)
      (hs : s.procs = l ++ m :: r) (hm : m.pid = p) (hz : m.zombie = true) :
      Step s .moved { s with
        procs := l ++ r, frontend := .terminating p .probe .clear }
  | no_child {p : ℕ} (hf : s.frontend = .running p) (hm : ∀ m ∈ s.procs, m.pid ≠ p) :
      Step s .moved { s with frontend := .terminating p .probe .clear }
  | asked {p : ℕ} (hf : s.frontend = .running p) (hr : s.requested = true) :
      Step s .moved { s with frontend := .terminating p .probe .reap }
  | probe_absent {p : ℕ} {after : After} (hf : s.frontend = .terminating p .probe after)
      (hg : ¬ Present s p) : Step s .moved { s with frontend := after.next p }
  | probe {p : ℕ} {after : After} (hf : s.frontend = .terminating p .probe after)
      (hg : Present s p) : Step s .moved { s with frontend := .terminating p .term after }
  | term {p : ℕ} {after : After} (hf : s.frontend = .terminating p .term after)
      (hg : Present s p) :
      Step s (.signalled p) { s with frontend := .terminating p (.wait 10) after }
  | term_absent {p : ℕ} {after : After} (hf : s.frontend = .terminating p .term after)
      (hg : ¬ Present s p) :
      Step s .moved { s with frontend := .terminating p (.wait 10) after }
  | wait_absent {p left : ℕ} {after : After}
      (hf : s.frontend = .terminating p (.wait (left + 1)) after) (hg : ¬ Present s p) :
      Step s .moved { s with frontend := after.next p }
  | wait {p left : ℕ} {after : After}
      (hf : s.frontend = .terminating p (.wait (left + 1)) after) (hg : Present s p) :
      Step s .moved { s with frontend := .terminating p (.wait left) after }
  | waited_out {p : ℕ} {after : After}
      (hf : s.frontend = .terminating p (.wait 0) after) :
      Step s .moved { s with frontend := .terminating p .kill after }
  | kill {p : ℕ} {after : After} (hf : s.frontend = .terminating p .kill after)
      (hg : Present s p) : Step s (.signalled p) { s with frontend := after.next p }
  | kill_absent {p : ℕ} {after : After} (hf : s.frontend = .terminating p .kill after)
      (hg : ¬ Present s p) : Step s .moved { s with frontend := after.next p }
  | reap {p : ℕ} {l r : List Proc} {m : Proc} (hf : s.frontend = .reaping p)
      (hs : s.procs = l ++ m :: r) (hm : m.pid = p) (hz : m.zombie = true) :
      Step s .moved { s with procs := l ++ r, frontend := .clearing p }
  | reap_none {p : ℕ} (hf : s.frontend = .reaping p) (hm : ∀ m ∈ s.procs, m.pid ≠ p) :
      Step s .moved { s with frontend := .clearing p }
  | clear {p : ℕ} (hf : s.frontend = .clearing p) (hm : s.marker = some p) :
      Step s .moved { s with frontend := .unlinking p }
  /-- The marker is gone, cannot be read or names another group. -/
  | clear_other {p : ℕ} (hf : s.frontend = .clearing p) :
      Step s .moved { s with frontend := .idle }
  | unlink {p : ℕ} (hf : s.frontend = .unlinking p) :
      Step s .moved { s with marker := none, frontend := .idle }
  | request : Step s .moved { s with requested := true }
  /-- The frontend is killed and started again. -/
  | restart : Step s .moved { s with frontend := .idle, requested := false }
  | enter : Step s .moved { s with runs := s.runs ++ [.start] }
  | quiesce {l r : List Quiesce} {q q' : Quiesce} {e : Event} {marker : Option ℕ}
      (hs : s.runs = l ++ q :: r) (hq : q.Step s e marker q') :
      Step s e { s with marker := marker, runs := l ++ q' :: r }
  /-- `terminate_pid_list` signals single processes; its result may be either. -/
  | quit {l r : List Quiesce} {ok : Bool} (listed : Bool) (hs : s.runs = l ++ .pids ok :: r) :
      Step s (.returned (ok && listed)) { s with runs := l ++ r }
  | fork {m : Proc} {q : ℕ} (hm : m ∈ s.procs) (hz : m.zombie = false) (hq : Fresh s q) :
      Step s (.forked q m.pgid) { s with procs := s.procs ++ [⟨q, m.pgid, m.ours, false⟩] }
  /-- `setpgid` into a group that is there. -/
  | join {l r : List Proc} {m n : Proc} (hs : s.procs = l ++ m :: r) (hz : m.zombie = false)
      (hn : n ∈ s.procs) :
      Step s (.joined m.pid n.pgid) { s with
        procs := l ++ { m with pgid := n.pgid, ours := n.ours } :: r }
  /-- `setsid`, or `setpgid` into a group of its own. -/
  | create {l r : List Proc} {m : Proc} (hs : s.procs = l ++ m :: r) (hz : m.zombie = false)
      (hg : ¬ Present s m.pid) :
      Step s (.created m.pid) { s with
        procs := l ++ { m with pgid := m.pid, ours := false } :: r }
  | exit {l r : List Proc} {m : Proc} (hs : s.procs = l ++ m :: r) :
      Step s .moved { s with procs := l ++ { m with zombie := true } :: r }
  /-- A parent other than the frontend waits for its child. -/
  | gather {l r : List Proc} {m : Proc} (hs : s.procs = l ++ m :: r) (hz : m.zombie = true)
      (hc : s.frontend.child ≠ some m.pid) : Step s .moved { s with procs := l ++ r }

/-- Nothing has been launched: no group is a launch's, no marker is there, no run is under
way. -/
def Initial (s : State) : Prop :=
  (∀ m ∈ s.procs, m.ours = false) ∧ s.marker = none ∧ s.frontend = .idle ∧ s.runs = []

end PlumosBubble.Foreground
