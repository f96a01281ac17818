import Mathlib.Logic.Function.Basic
import PlumosBubble.Script.Threads

/-! `plumos-portmaster-frontend-control`: PortMaster keeps the frontend away by a file in the
place of the validation hold, and knows by a second file that this hold is its own. Another
tool sets and removes holds in the same place. -/

namespace PlumosBubble.FrontendControl

open Scripts

/-- Who wrote the validation hold. -/
inductive Owner where
  | portmaster
  | foreign
  deriving DecidableEq

/-- `VALIDATION_HOLD` and whether `OWNED_HOLD` is there. -/
structure Files where
  hold : Option Owner
  mark : Bool
  deriving DecidableEq

/-- How far an acquire has come: it holds back the others from its check until it has written
the hold, and again while it removes it. -/
inductive Phase where
  | out
  | writing
  | waiting
  deriving DecidableEq

/-- The files with their `.next` files. Nothing reads the rest: the phase of each acquire and what
it left when it failed; whether a release is removing the files and how many acquires had
succeeded when it began; the acquires that have succeeded, and those that a release came after;
how many commands of acquires and removals have failed. -/
structure State where
  files : Files
  markNext : Bool
  holdNext : Bool
  phase : ℕ → Phase
  left : ℕ → Option Files
  removing : ℕ → Bool
  seen : ℕ → ℕ
  acquired : ℕ
  matched : ℕ
  failures : ℕ

/-- A script that ends early by its exit status. -/
abbrev Sh := Script State ℕ

namespace State

variable (s : State) (i : ℕ)

def setHold (hold : Option Owner) : State := { s with files := { s.files with hold := hold } }

def setMark (mark : Bool) : State := { s with files := { s.files with mark := mark } }

def enter (phase : Phase) : State := { s with phase := Function.update s.phase i phase }

/-- An acquire ends with a failure. -/
def refuse : State :=
  { s.enter i .out with left := Function.update s.left i (some s.files) }

def failed : State := { s with failures := s.failures + 1 }

def succeed : State := { s.enter i .out with acquired := s.acquired + 1 }

/-- A release begins, and will remove the files. -/
def begin : State :=
  { s with
    removing := Function.update s.removing i true
    seen := Function.update s.seen i s.acquired }

/-- A release finds no mark. -/
def pass : State :=
  { s with
    seen := Function.update s.seen i s.acquired
    matched := max s.matched s.acquired }

/-- A release has removed what it could. -/
def matchedBy : State :=
  { s with
    removing := Function.update s.removing i false
    matched := max s.matched (s.seen i) }

end State

section Acquire

variable (i : ℕ)

/-- A command of an acquire under `set -e`. -/
def command (outcomes : State → List (Bool × State)) : Sh Unit := do
  let ok ← Script.run outcomes
  if ok then pure () else Script.raise 1

/-- A command that can fail and then has no effect. -/
def attempt (f : State → State) : Sh Unit :=
  command fun s => [(true, f s), (false, s.failed.refuse i)]

/-- `printf … > "$file"`, which can fail before or after it has created the file. -/
def write (f : State → State) : Sh Unit :=
  command fun s => [(true, f s), (false, s.failed.refuse i), (false, (f s).failed.refuse i)]

/-- `mv -f "$file.next" "$file"`. -/
def move (next : State → Bool) (f : State → State) : Sh Unit :=
  command fun s =>
    if next s then [(true, f s), (false, s.failed.refuse i)] else [(false, s.failed.refuse i)]

/-- Refuse a foreign hold: `[ -e "$VALIDATION_HOLD" ] && [ ! -f "$OWNED_HOLD" ]`. -/
def checkHold : Sh Unit := do
  let held ← Script.run fun s =>
    [(s.files.hold.isSome, if s.files.hold.isSome then s else s.enter i .writing)]
  if held then do
    let owned ← Script.run fun s =>
      [(s.files.mark, if s.files.mark then s.enter i .writing else s.refuse i)]
    if owned then pure () else Script.raise 75
  else pure ()

/-- Whether `frontend_pids` prints nothing. -/
def frontendGone : Sh Bool := Script.run fun s => [(true, s), (false, s)]

/-- The loop that waits for the frontend. -/
def awaitFrontend : ℕ → Sh Unit
  | 0 => pure ()
  | n + 1 => do
    let gone ← frontendGone
    if gone then pure ()
    else do
      attempt i id
      awaitFrontend n

/-- `rm -f "$VALIDATION_HOLD" "$OWNED_HOLD"` where the frontend did not stop. -/
def giveUp : Sh Unit := do
  Script.run fun s => [((), s.setHold none), ((), s.failed)]
  Script.run fun s => [((), (s.setMark false).refuse i), ((), s.failed.refuse i)]
  Script.raise 1

def acquire : Sh Unit := do
  attempt i id
  checkHold i
  write i fun s => { s with markNext := true }
  move i State.markNext fun s => { s.setMark true with markNext := false }
  write i fun s => { s with holdNext := true }
  move i State.holdNext fun s =>
    { (s.setHold (some .portmaster)).enter i .waiting with holdNext := false }
  let _ ← frontendGone
  awaitFrontend i 10
  let _ ← frontendGone
  let gone ← Script.run fun s => [(true, s.succeed i), (false, s.enter i .writing)]
  if gone then pure () else giveUp i

end Acquire

section Release

variable (i : ℕ)

/-- The loop that leaves the start of a frontend to its launcher. -/
def awaitLauncher : ℕ → Sh Bool
  | 0 => pure true
  | n + 1 => do
    let gone ← frontendGone
    if gone then do
      let recovery ← Script.run fun s => [(true, s), (false, s)]
      if recovery then pure true
      else do
        let slept ← Script.run fun s => [(true, s), (false, s)]
        if slept then awaitLauncher n else Script.raise 1
    else pure false

/-- What a release does once the files are gone: perhaps it starts a frontend. -/
def restartFrontend : Sh Unit := do
  let longGone ← awaitLauncher 5
  if longGone then do
    let started ← Script.run fun s => [(true, s), (false, s)]
    if started then pure () else Script.raise 1
  else pure ()

/-- `rm -f "$VALIDATION_HOLD" "$OWNED_HOLD"` under `set -e`. -/
def removeFiles : Sh Unit := do
  let holdGone ← Script.run fun s => [(true, s.setHold none), (false, s.failed)]
  let markGone ← Script.run fun s =>
    [(true, (s.setMark false).matchedBy i), (false, s.failed.matchedBy i)]
  if holdGone && markGone then pure () else Script.raise 1

def release : Sh Unit := do
  let owned ← Script.run fun s => [(s.files.mark, if s.files.mark then s.begin i else s.pass i)]
  if owned then do
    removeFiles i
    restartFrontend
  else pure ()

end Release

/-- What the other tool does. -/
inductive Deed where
  | create
  | remove

/-- The other tool; it removes only a hold that it has written. -/
def otherTool : List Deed → Sh Unit
  | [] => pure ()
  | .create :: deeds => do
    Script.run fun s => [((), s.setHold (some .foreign))]
    otherTool deeds
  | .remove :: deeds => do
    Script.run fun s => [((), if s.files.hold = some .foreign then s.setHold none else s)]
    otherTool deeds

inductive Process where
  | acquire (i : ℕ)
  | release (i : ℕ)
  | other
  deriving DecidableEq

/-- `m` acquires and `n` releases beside the other tool. -/
def programs (deeds : List Deed) (m n : ℕ) : Process → Sh Unit
  | .acquire i => if i < m then acquire i else pure ()
  | .release i => if i < n then release i else pure ()
  | .other => otherTool deeds

/-- Before anything has run: PortMaster has none of the two files. -/
def State.start (foreign markNext holdNext : Bool) : State where
  files := ⟨if foreign then some .foreign else none, false⟩
  markNext := markNext
  holdNext := holdNext
  phase _ := .out
  left _ := none
  removing _ := false
  seen _ := 0
  acquired := 0
  matched := 0
  failures := 0

abbrev Session := Pool Process State ℕ Unit

end PlumosBubble.FrontendControl
