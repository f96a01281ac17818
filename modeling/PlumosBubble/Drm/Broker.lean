import Mathlib.Data.List.Infix
import PlumosBubble.Transition.Run
import PlumosBubble.Update.Text

/-! `plumos_drm_broker_run`: the open descriptions of the card that the shim has sent to the
broker, and the requests by which the power overlay takes DRM master from one of them and gives it
back. A step is one datagram, one `ioctl` or one answer. -/

namespace PlumosBubble.Drm

open Transition
open Update (Text)

/-- `struct shared_drm_fd`, by the description that `fd` refers to. -/
structure Entry (D : Type) where
  fd : D
  dropped : Bool
  deriving DecidableEq

inductive Answer where
  | ok
  | error (errno : ℕ)
  | errorCommand
  deriving DecidableEq

/-- How far `operate_on_shared_fds` has come, with its `set_master`, `success` and
`error_value`. -/
structure Operation where
  setMaster : Bool
  index : ℕ
  success : Bool
  errorValue : ℕ
  deriving DecidableEq

/-- The kernel's master; the datagrams on their way; the broker's `shared_fds` and the request it
serves. -/
structure State (D : Type) where
  master : Option D
  channel : List D
  sharedFds : List (Entry D)
  operation : Option Operation
  deriving DecidableEq

inductive Event (D : Type) where
  | sent (d : D)
  | elsewhere
  | others
  | received
  | requested (request : Text)
  | skipped
  | took (d : D)
  | restored (d : D)
  | failed (errno : ℕ)
  | answered (answer : Answer)

/-- `MAX_SHARED_FDS`. -/
def maxSharedFds : ℕ := 8

def enodev : ℕ := 19

variable {D : Type} [DecidableEq D]

/-- `DRM_IOCTL_SET_MASTER`. -/
def setMaster (master : Option D) (d : D) : Option (Option D) :=
  if master = none ∨ master = some d then some (some d) else none

/-- `DRM_IOCTL_DROP_MASTER`. -/
def dropMaster (master : Option D) (d : D) : Option (Option D) :=
  if master = some d then some none else none

/-- What a request asks for: `set_master`. -/
def requestOf (request : Text) : Option Bool :=
  if "drop".toList <+: request then some false
  else if "set".toList <+: request then some true
  else none

omit [DecidableEq D] in
/-- A description that the broker has received; the ninth one is closed. -/
def register (fds : List (Entry D)) (d : D) : List (Entry D) :=
  if fds.length < maxSharedFds then fds ++ [⟨d, false⟩] else fds

/-- The loop of `operate_on_shared_fds` goes on. -/
def Operation.next (op : Operation) : Operation := { op with index := op.index + 1 }

def Operation.succeed (op : Operation) : Operation := { op.next with success := true }

def Operation.fail (op : Operation) (errno : ℕ) : Operation := { op.next with errorValue := errno }

def Operation.answer (op : Operation) : Answer :=
  if op.success then .ok else .error op.errorValue

/-- One step: the shim sends a description, at any time; mastership goes from one description to
another that the broker does not have, at any time, or to any other between two requests; the
broker receives, or goes on with a request. -/
inductive Step : State D → Event D → State D → Prop
  | sent {s : State D} (d : D) : Step s (.sent d) { s with channel := s.channel ++ [d] }
  | elsewhere {s : State D} {master : Option D} : (∀ e ∈ s.sharedFds, s.master ≠ some e.fd) →
      (∀ e ∈ s.sharedFds, master ≠ some e.fd) → Step s .elsewhere { s with master := master }
  | others {s : State D} (master : Option D) : s.operation = none →
      Step s .others { s with master := master }
  | received {s : State D} {d : D} {rest : List D} : s.operation = none →
      s.channel = d :: rest →
      Step s .received { s with channel := rest, sharedFds := register s.sharedFds d }
  | requested {s : State D} {request : Text} {set : Bool} : s.operation = none →
      requestOf request = some set →
      Step s (.requested request) { s with operation := some ⟨set, 0, false, enodev⟩ }
  | skipped {s : State D} {op : Operation} {e : Entry D} : s.operation = some op →
      s.sharedFds[op.index]? = some e → op.setMaster = true → e.dropped = false →
      Step s .skipped { s with operation := some op.next }
  | took {s : State D} {op : Operation} {e : Entry D} {master : Option D} :
      s.operation = some op → s.sharedFds[op.index]? = some e → op.setMaster = false →
      dropMaster s.master e.fd = some master →
      Step s (.took e.fd) { s with
        master := master
        sharedFds := s.sharedFds.set op.index ⟨e.fd, true⟩
        operation := some op.succeed }
  | restored {s : State D} {op : Operation} {e : Entry D} {master : Option D} :
      s.operation = some op → s.sharedFds[op.index]? = some e → op.setMaster = true →
      e.dropped = true → setMaster s.master e.fd = some master →
      Step s (.restored e.fd) { s with
        master := master
        sharedFds := s.sharedFds.set op.index ⟨e.fd, false⟩
        operation := some op.succeed }
  | failed {s : State D} {op : Operation} {e : Entry D} (errno : ℕ) :
      s.operation = some op → s.sharedFds[op.index]? = some e →
      (if op.setMaster then e.dropped = true ∧ setMaster s.master e.fd = none
        else dropMaster s.master e.fd = none) →
      Step s (.failed errno) { s with operation := some (op.fail errno) }
  | answered {s : State D} {op : Operation} : s.operation = some op →
      op.index = s.sharedFds.length →
      Step s (.answered op.answer) { s with operation := none }

/-- A request that is accepted in `s`, and the state `t` in which it has its answer, with what
happened in between. -/
inductive Served (s : State D) (request : Text) : List (Event D) → Answer → State D → Prop
  | operated {set : Bool} {fs : List (Event D)} {answer : Answer} {u v t : State D} :
      requestOf request = some set → Step s (.requested request) u → Run Step u fs v →
      (∀ a, Event.answered a ∉ fs) → Step v (.answered answer) t →
      Served s request fs answer t
  | rejected : requestOf request = none → Served s request [] .errorCommand s

omit [DecidableEq D] in
/-- The broker before the first datagram. -/
def State.start (master : Option D) : State D := ⟨master, [], [], none⟩

end PlumosBubble.Drm
