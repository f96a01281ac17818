import PlumosBubble.FileSystem.Commands

/-! `plumos-factory-reset`: the files of the factory trees are copied over the live configuration,
each behind a backup of the file that it replaces. The walk over a tree is the end of a pipeline,
so that a shell of its own runs it. -/

namespace PlumosBubble.Reset

open FileSystem
open FileSystem.Tree (makeDirs copyFile moveFile)

variable {C : Type*}

abbrev Files (C : Type*) := FileSystem.Tree C

def names (ss : List String) : Path := ss.map String.toList

inductive Target where
  | ra
  | pico
  | sa
  deriving DecidableEq

/-- `PLUMOS_ROOT`, `FACTORY_ROOT` and `BACKUP_ROOT`. -/
structure Layout where
  root : Path
  factory : Path
  backups : Path
  root_clean : Clean root
  factory_clean : Clean factory
  backups_clean : Clean backups

/-- The command of `restore_file` that fails by itself, with what it has come to. -/
inductive Fault (C : Type*) where
  | mkdirBackup (made : ℕ)
  | copyBackup (left : Option C)
  | mkdirDestination (made : ℕ)
  | copyNext (left : Option C)
  | move

/-- A call of the script, with what fails in it. -/
structure Call (C : Type*) where
  argument : Name
  dryRun : Bool
  /-- What `date` prints. -/
  stamp : Option Name
  stamp_clean : ∀ name ∈ stamp, name ≠ ['.', '.']
  pid : ℕ
  baseFault : Option ℕ
  fault : Path → Option (Fault C)
  /-- What `find -type f` prints below a directory, in the order that it has there. -/
  listing : Path → List Path

namespace Fault

def inMkdirBackup : Option (Fault C) → Option ℕ
  | some (.mkdirBackup made) => some made
  | _ => none

def inCopyBackup : Option (Fault C) → Option (Option C)
  | some (.copyBackup left) => some left
  | _ => none

def inMkdirDestination : Option (Fault C) → Option ℕ
  | some (.mkdirDestination made) => some made
  | _ => none

def inCopyNext : Option (Fault C) → Option (Option C)
  | some (.copyNext left) => some left
  | _ => none

def inMove : Option (Fault C) → Bool
  | some .move => true
  | _ => false

end Fault

/-- A file that is restored: its source, and its destination below `PLUMOS_ROOT`. -/
structure Item where
  source : Path
  relative : Path
  inTree : Bool
  deriving DecidableEq

section Places

variable (L : Layout) (x : Call C) (i : Item)

/-- `backup_base`. -/
def backupBase : Path := L.backups ++ [x.stamp.getD "unknown".toList]

/-- `destination`. -/
def live : Path := L.root ++ i.relative

/-- `backup`. -/
def backup : Path := backupBase L x ++ i.relative

/-- `$destination.factory-reset.$$`. -/
def next : Path :=
  (live L i).dropLast ++
    [(live L i).getLastD [] ++ ".factory-reset.".toList ++ (Nat.repr x.pid).toList]

end Places

/-- The variables of the script, with the lines that it has printed. -/
structure World (C : Type*) where
  tree : Files C
  restored : List Path
  status : ℕ

section Restore

variable (L : Layout) (x : Call C)

/-- The backup of `restore_file`. -/
def backUp (i : Item) : Command C := fun t =>
  if t.isFile (live L i) = true then
    (makeDirs (Fault.inMkdirBackup (x.fault i.source)) (backup L x i).dropLast).and
      (copyFile (Fault.inCopyBackup (x.fault i.source)) (live L i) (backup L x i)) t
  else (true, t)

/-- `restore_file` behind its backup. -/
def place (i : Item) : Command C :=
  (makeDirs (Fault.inMkdirDestination (x.fault i.source)) (live L i).dropLast).and
    ((copyFile (Fault.inCopyNext (x.fault i.source)) i.source (next L x i)).and
      (moveFile (Fault.inMove (x.fault i.source)) (next L x i) (live L i)))

/-- `restore_file`. -/
def restoreFile (i : Item) : Command C := fun t =>
  if t.isFile i.source = false then (false, t)
  else if x.dryRun = true then (true, t)
  else ((backUp L x i).and (place L x i)) t

/-- `restore_file ... || status=1`. -/
def attempt (w : World C) (i : Item) : World C where
  tree := (restoreFile L x i w.tree).2
  restored := if (restoreFile L x i w.tree).1 = true ∧ x.dryRun = false then
    w.restored ++ [i.relative] else w.restored
  status := if (restoreFile L x i w.tree).1 = true then w.status else 1

/-- What the walk over a tree comes to. -/
def treeItems (sourceRoot destination : Path) : List Item :=
  (x.listing sourceRoot).map fun r =>
    ⟨sourceRoot ++ r, destination ++ if r = [] then sourceRoot else r, true⟩

/-- `restore_tree`: the shell at the end of the pipeline sets its own `status`. -/
def restoreTree (sourceRoot destination : Path) (w : World C) : Bool × World C :=
  let status := 0
  let piped := (treeItems x sourceRoot destination).foldl (attempt L x) { w with status := status }
  (status = 0, { piped with status := status })

/-- The tree of a target, and where it goes below `PLUMOS_ROOT`. -/
def treeOf : Target → Path × Path
  | .ra => (L.factory ++ names ["retroarch"], names ["config", "retroarch"])
  | .pico => (L.factory ++ names ["picoarch"], [])
  | .sa => (L.factory ++ names ["standalone", "ppsspp", "PSP", "SYSTEM"],
      names ["config", "standalone", "ppsspp", "ppsspp", "PSP", "SYSTEM"])

/-- The files of a target that are restored one by one. -/
def singlesOf : Target → List Item
  | .sa => [⟨L.factory ++ names ["standalone", "yabasanshiro", "keymapv2.json"],
      names ["config", "standalone", "yabasanshiro", "home", ".yabasanshiro", "keymapv2.json"],
      false⟩,
    ⟨L.factory ++ names ["standalone", "pcsx_rearmed", "pcsx.cfg"],
      names ["config", "standalone", "pcsx_rearmed", "home", ".pcsx", "pcsx.cfg"], false⟩]
  | _ => []

def restoreRa : World C → Bool × World C := restoreTree L x (treeOf L .ra).1 (treeOf L .ra).2

def restorePico : World C → Bool × World C := restoreTree L x (treeOf L .pico).1 (treeOf L .pico).2

def restoreSa (w : World C) : Bool × World C :=
  let tree := restoreTree L x (treeOf L .sa).1 (treeOf L .sa).2 { w with status := 0 }
  let w := if tree.1 = true then tree.2 else { tree.2 with status := 1 }
  let w := (singlesOf L .sa).foldl (attempt L x) w
  (w.status = 0, w)

/-- `"restore_$candidate"`. -/
def restoreTarget : Target → World C → Bool × World C
  | .ra => restoreRa L x
  | .pico => restorePico L x
  | .sa => restoreSa L x

/-- `"restore_$candidate" || status=1`. -/
def restoreOr (w : World C) (target : Target) : World C :=
  if (restoreTarget L x target w).1 = true then (restoreTarget L x target w).2
  else { (restoreTarget L x target w).2 with status := 1 }

end Restore

section Script

variable (L : Layout) (x : Call C) (t : Files C)

def available : Target → Bool
  | .ra => t.isDir (L.factory ++ names ["retroarch"])
  | .pico => t.isDir (L.factory ++ names ["picoarch"])
  | .sa => t.isDir (L.factory ++ names ["standalone"])

/-- `targets`. -/
def targets : Option (List Target) :=
  if x.argument = "ra".toList ∨ x.argument = "retroarch".toList then some [.ra]
  else if x.argument = "pico".toList ∨ x.argument = "picoarch".toList then some [.pico]
  else if x.argument = "sa".toList ∨ x.argument = "standalone".toList then some [.sa]
  else if x.argument = "all".toList ∨ x.argument = "emulators".toList then
    some ([.ra, .pico, .sa].filter (available L t))
  else none

/-- How the script has ended; `started` when it has come to the restores. -/
structure Outcome (C : Type*) where
  exit : ℕ
  started : Bool
  tree : Files C
  restored : List Path

/-- `plumos-factory-reset`. -/
def reset : Outcome C :=
  match targets L x t with
  | none => ⟨2, false, t, []⟩
  | some [] => ⟨1, false, t, []⟩
  | some (first :: rest) =>
    if (first :: rest).all (available L t) = false then ⟨78, false, t, []⟩
    else
      let made := if x.dryRun = true then (true, t) else
        makeDirs x.baseFault (backupBase L x) t
      if made.1 = false then ⟨1, false, made.2, []⟩
      else
        let w := (first :: rest).foldl (restoreOr L x) ⟨made.2, [], 0⟩
        ⟨w.status, true, w.tree, w.restored⟩

/-- What a call is to restore. -/
def requested : List Item :=
  ((targets L x t).getD []).flatMap fun target =>
    treeItems x (treeOf L target).1 (treeOf L target).2 ++ singlesOf L target

/-- `find` prints the files below a directory; no name holds a newline. -/
def Call.Lists : Prop :=
  ∀ p, (x.listing p).Nodup ∧ ∀ r, r ∈ x.listing p ↔
    Clean r ∧ ∃ q c m, t.resolve false p = .ok q ∧ t.node (q ++ r) = some (.file c m)

/-- The files below a directory, in some order. -/
def find (p : Path) : List Path :=
  match t.resolve false p with
  | .ok q => ((t.support.filter fun s => q <+: s ∧ Clean (s.drop q.length) ∧
      (t.node s).any fun v => v matches .file _ _).map (·.drop q.length)).dedup
  | .error _ => []

theorem find_lists (h : x.listing = find t) : x.Lists t := by
  intro p
  rw [h, find]
  cases hp : t.resolve false p with
  | error e => simp
  | ok q =>
    refine ⟨List.nodup_dedup _, fun r => ?_⟩
    rw [List.mem_dedup, List.mem_map]
    constructor
    · rintro ⟨s, hs, rfl⟩
      obtain ⟨⟨r, rfl⟩, hclean, hfile⟩ := of_decide_eq_true (List.mem_filter.mp hs).2
      rw [List.drop_left] at hclean ⊢
      refine ⟨hclean, q, ?_⟩
      rcases hnode : t.node (q ++ r) with _ | ⟨c, m⟩ | target | _
      · simp [hnode] at hfile
      · exact ⟨c, m, rfl, rfl⟩
      · simp [hnode] at hfile
      · simp [hnode] at hfile
    · rintro ⟨hclean, q', c, m, hok, hnode⟩
      cases hok
      refine ⟨q ++ r, List.mem_filter.mpr ⟨t.mem_support _ (by simp [hnode]), ?_⟩, by simp⟩
      rw [decide_eq_true_iff, List.drop_left, hnode]
      exact ⟨List.prefix_append q r, hclean, rfl⟩

end Script

end PlumosBubble.Reset
