import Mathlib.Logic.Function.Basic
import PlumosBubble.Crash.Program
import PlumosBubble.RetroArch.ConfigLines

/-! `plumos-retroarch-config-merge`, command by command. The hashes of the files are given. The
temporary files carry the number of the process; what another run has left under such a name is
overwritten. -/

namespace PlumosBubble.RetroArch

open Crash
open Update (Text)

/-- The files that a temporary file is moved to: the config, and the backups. -/
inductive Slot where
  | config
  | preV90s
  | preFunction1
  | preCoreAspect
  deriving DecidableEq

/-- The files that a run changes; `next` are the temporary ones. -/
structure Files where
  file : Slot → Doc
  next : Slot → Doc
  marker : Option Doc
  markerNext : Doc

/-- The files that a run only reads, and the hash of each text. -/
structure Setup where
  factory : Doc
  legacyDefaults : Doc
  sha256 : Doc → Text

/-- The factories whose marker selects a migration. -/
inductive Generation where
  | function2Menu
  | preV90s
  | fixedAspect
  deriving DecidableEq

/-- `legacy_bubble_sha256`. -/
def legacyBubble : Text :=
  "9e0cee764c7840a904403ba8fcde7c1cc4729d1b759aabbe4563e43f4112627b".toList

/-- `pre_v90s_full_factory_sha256`. -/
def preV90sFullFactory : Text :=
  "0a10e596d378325e9449fa8374f3f62d9c198461b3db4a69f61634824ddc638a".toList

/-- `function2_menu_factory_sha256`. -/
def function2MenuFactory : Text :=
  "23878b2e84b5145f43925f15aae1a424be75748e84b5ba209fbe7b4231de9635".toList

/-- `fixed_aspect_factory_sha256`. -/
def fixedAspectFactory : Text :=
  "04bf95ccb13544c17fe03dabe70024be8ed17e8a40f2ae9e3f313a09f5b82348".toList

section Commands

/-- A temporary file is written. -/
def writeNext (slot : Slot) (d : Doc) : Prog Files Unit Unit :=
  Prog.step fun f => .ok { f with next := Function.update f.next slot d }

/-- `mv` of a temporary file. -/
def moveNext (slot : Slot) : Prog Files Unit Unit :=
  Prog.step fun f => .ok { f with
    file := Function.update f.file slot (f.next slot)
    next := Function.update f.next slot Doc.empty }

/-- `rm -f` of a temporary file. -/
def dropNext (slot : Slot) : Prog Files Unit Unit := writeNext slot Doc.empty

/-- `atomic_copy`. -/
def atomicCopy (source : Doc) (slot : Slot) : Prog Files Unit Unit := do
  writeNext slot source
  moveNext slot

/-- `[ -s backup ] || atomic_copy "$config" backup`. -/
def backUp (slot : Slot) : Prog Files Unit Unit := do
  let f ← Prog.read id
  if (f.file slot).hasSize then pure () else atomicCopy (f.file .config) slot

/-- The temporary file of the marker is written. -/
def writeMarkerNext (d : Doc) : Prog Files Unit Unit :=
  Prog.step fun f => .ok { f with markerNext := d }

/-- `mv "$marker.next" "$marker"`. -/
def moveMarkerNext : Prog Files Unit Unit :=
  Prog.step fun f => .ok { f with marker := some f.markerNext, markerNext := Doc.empty }

end Commands

namespace Setup

variable (x : Setup)

/-- What `merge_missing_keys` appends to a config. -/
def added (d : Doc) : List Text := missing d.records x.factory.records

/-- `merge_missing_keys`. -/
def mergeMissingKeys : Prog Files Unit Unit := do
  let f ← Prog.read id
  let config := f.file .config
  writeNext .config config
  writeNext .config config.newline
  writeNext .config (config.newline.printed (x.added config))
  if 0 < (x.added config).length then moveNext .config else dropNext .config

def replaceDefault (line : Text) : Text :=
  RetroArch.replaceDefault x.legacyDefaults.records x.factory.records line

/-- `migrate_pre_v90s_defaults`. -/
def migratePreV90sDefaults : Prog Files Unit Unit := do
  let f ← Prog.read id
  let lines := (f.file .config).records
  writeNext .config (Doc.empty.printed (lines.map x.replaceDefault))
  if 0 < lines.countP fun line => x.replaceDefault line ≠ line then do
    backUp .preV90s
    moveNext .config
  else dropNext .config

/-- The two migrations with `sed`, of the configs in which `grep` finds something. -/
def migrateLines (found : List Text → Bool) (replace : Text → Text) (slot : Slot) :
    Prog Files Unit Unit := do
  let f ← Prog.read id
  if found (f.file .config).records then do
    backUp slot
    writeNext .config ((f.file .config).map replace)
    moveNext .config
  else pure ()

/-- What the first `grep`s of `migrate_function1_menu_defaults` look for. -/
def foundMenu (lines : List Text) : Bool := lines.contains oldMenu && lines.contains oldScreenshot

/-- `migrate_function1_menu_defaults`. -/
def migrateFunction1MenuDefaults : Prog Files Unit Unit :=
  migrateLines foundMenu replaceMenu .preFunction1

def foundAspect (lines : List Text) : Bool := lines.contains oldAspect

/-- `migrate_fixed_aspect_default`. -/
def migrateFixedAspectDefault : Prog Files Unit Unit :=
  migrateLines foundAspect replaceAspect .preCoreAspect

/-- What `sed -n '1p'` prints of a marker that can be read. -/
def mark (marker : Option Doc) : Option Text := marker.map fun d => d.records.headD []

/-- The migration that a marker selects. -/
def generation (marker : Option Doc) : Option Generation :=
  if mark marker = some function2MenuFactory then some .function2Menu
  else if x.legacyDefaults.hasSize ∧ mark marker = some preV90sFullFactory then some .preV90s
  else if mark marker = some fixedAspectFactory then some .fixedAspect
  else none

/-- The part of a run that deals with the config. -/
def updateConfig (f : Files) : Prog Files Unit Unit :=
  if (f.file .config).hasSize = false ∨ x.sha256 (f.file .config) = legacyBubble then
    atomicCopy x.factory .config
  else
    match x.generation f.marker with
    | some .function2Menu => do
      migrateFunction1MenuDefaults
      x.mergeMissingKeys
    | some .preV90s => do
      x.migratePreV90sDefaults
      x.mergeMissingKeys
    | some .fixedAspect => do
      migrateFixedAspectDefault
      x.mergeMissingKeys
    | none =>
      if mark f.marker = some (x.sha256 x.factory) then pure () else x.mergeMissingKeys

/-- The marker that a run leaves. -/
def newMarker : Doc := ⟨[x.sha256 x.factory], []⟩

/-- One run. -/
def run : Prog Files Unit Unit := do
  let f ← Prog.read id
  if x.factory.hasSize = false then Prog.raise ()
  else do
    x.updateConfig f
    writeMarkerNext x.newMarker
    moveMarkerNext

/-- The files behind a run. -/
def after (f : Files) : Files := x.run.stateAfter f

end Setup

section Results

variable (x : Setup)

/-- What a migration replaces in a line. -/
def Setup.replace : Generation → Text → Text
  | .function2Menu => replaceMenu
  | .preV90s => x.replaceDefault
  | .fixedAspect => replaceAspect

/-- What a migration looks for is in a config. -/
def Setup.pending (g : Generation) (lines : List Text) : Bool :=
  match g with
  | .function2Menu => Setup.foundMenu lines
  | .preV90s => lines.any fun line => x.replaceDefault line ≠ line
  | .fixedAspect => Setup.foundAspect lines

/-- The config behind the migration that a marker selects. -/
def Setup.migrated (marker : Option Doc) (d : Doc) : Doc :=
  match x.generation marker with
  | none => d
  | some g =>
    if x.pending g d.records = true then
      if g = .preV90s then Doc.empty.printed (d.records.map x.replaceDefault)
      else d.map (x.replace g)
    else d

/-- The config behind `merge_missing_keys`. -/
def Setup.merged (d : Doc) : Doc := if x.added d = [] then d else d.newline.printed (x.added d)

/-- The config behind a run, from a config that is not empty. -/
def Setup.result (marker : Option Doc) (d : Doc) : Doc :=
  if x.sha256 d = legacyBubble then x.factory
  else if x.generation marker = none ∧ Setup.mark marker = some (x.sha256 x.factory) then d
  else x.merged (x.migrated marker d)

end Results

end PlumosBubble.RetroArch
