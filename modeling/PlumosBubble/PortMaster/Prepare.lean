import PlumosBubble.PortMaster.Runs

/-! `plumos-portmaster-runtime prepare`, which seeds the data root that the updater works in, over
any sequence of installs and earlier runs of it. The next run succeeds exactly where the data
root is missing or has an `upstream`. -/

namespace PlumosBubble.PortMaster

open Scripts Transition
open Update (Text)

/-- What comes with the runtime: the baseline payload with its record, and the adapter's files. -/
structure Adapter where
  baseline : Files
  installed : Option Item
  control : Text
  modPlumos : Text

/-- The data root and the seed of the present run. -/
structure Storage where
  root : AppRoot
  seed : Option (AList fun _ : Text => Item)

/-- A script that exits with 1 where it ends early. -/
abbrev Sh := Script Storage Unit

section Files

/-- `[ -f path ]`. -/
def Files.isFile (path : List Text) (files : Files) : Bool :=
  match files.lookup path with
  | some (.file _ _) => true
  | _ => false

/-- Every required file is there. -/
def Whole (files : Files) : Prop := ∀ name ∈ requiredFiles, files.isFile (memberPath name) = true

instance (files : Files) : Decidable (Whole files) :=
  inferInstanceAs (Decidable (∀ name ∈ requiredFiles, files.isFile (memberPath name) = true))

/-- `cp -f` onto a path, of a file with this name. -/
def Files.overwrite (path : List Text) (name text : Text) (files : Files) : Files :=
  match files.lookup path with
  | none => files.insert path (.file text false)
  | some (.file _ executable) => files.insert path (.file text executable)
  | some .dir => files.insert (path ++ [name]) (.file text false)

def inPortMaster (name : String) : List Text := [portMaster, name.toList]

/-- What `find … -name love.aarch64` looks for in `runtimes`. -/
def isLove : List Text → Bool
  | [a, b, _, d] => a = portMaster && b = "runtimes".toList && d = "love.aarch64".toList
  | _ => false

end Files

section Prepare

variable (faulty : Bool) (adapter : Adapter)

/-- A command, which can fail where commands are faulty. -/
def command (f : Storage → Option Storage) : Sh Unit := do
  let ok ← Script.run fun s =>
    match f s with
    | some t => if faulty then [(true, t), (false, s)] else [(true, t)]
    | none => [(false, s)]
  if ok then pure () else .raise ()

/-- A command on the payload. -/
def inUpstream (f : Files → Option Files) : Sh Unit :=
  command faulty fun s => (s.root.within upstream f).map fun root => { s with root := root }

/-- `[ -f "$PM_DIR/name" ]`. -/
def Storage.isFile (s : Storage) (name : String) : Bool :=
  s.root.present && match s.root.get upstream with
    | some (.dir files) => files.isFile (inPortMaster name)
    | _ => false

def setSeed (seed : Option (AList fun _ : Text => Item)) : Sh Unit :=
  command faulty fun s => some { s with seed := seed }

/-- A copy into the seed. -/
def copyToSeed (name : Text) (item : Item) : Sh Unit :=
  command faulty fun s => s.seed.map fun entry => { s with seed := some (entry.insert name item) }

/-- The seed becomes the data root. -/
def moveSeed : Sh Unit := command faulty fun s => s.seed.map fun entry =>
  { s with root := { s.root with present := true, entry := entry }, seed := none }

/-- A data root without a payload is refused. -/
def placeSeed : Sh Unit := do
  let there ← Script.read fun s => s.root.present
  if there then do
    setSeed faulty none
    .raise ()
  else do
    moveSeed faulty
    command faulty some

/-- `cp -p` of the record, if there is one. -/
def copyRecord : Sh Unit :=
  match adapter.installed with
  | none => pure ()
  | some item => copyToSeed faulty installedJson item

/-- The part of `prepare` for a missing payload. -/
def seedDataRoot : Sh Unit :=
  if adapter.baseline.isFile (inPortMaster "pugwash") then do
    setSeed faulty none
    setSeed faulty (some ∅)
    copyToSeed faulty upstream (.dir adapter.baseline)
    copyRecord faulty adapter
    command faulty some
    command faulty some
    placeSeed faulty
  else .raise ()

/-- `[ -f "$PM_DIR/name" ] || m`. -/
def orElse (name : String) (m : Sh Unit) : Sh Unit := do
  let there ← Script.read fun s => s.isFile name
  if there then pure () else m

def enableHelper (name : String) : Sh Unit := do
  orElse name (.raise ())
  inUpstream faulty (Files.enable (inPortMaster name))

def enableLove : Sh Unit := do
  let paths ← Script.read fun s =>
    match s.root.get upstream with
    | some (.dir files) => files.keys.filter fun path => isLove path && files.isFile path
    | _ => []
  Script.forEach
    (fun path => inUpstream faulty fun files => some ((files.enable path).getD files)) paths

/-- `cp -f` of a file of the adapter: the file is emptied, then written. -/
def copyAdapter (name : String) (text : Text) : Sh Unit := do
  inUpstream faulty fun files => some (files.overwrite (inPortMaster name) name.toList [])
  inUpstream faulty fun files => some (files.overwrite (inPortMaster name) name.toList text)

/-- `prepare`; what it does outside of the data root is one command. -/
def prepare : Sh Unit := do
  orElse "pugwash" (seedDataRoot faulty adapter)
  orElse "pugwash" (.raise ())
  enableHelper faulty "gptokeyb"
  enableHelper faulty "gptokeyb2"
  enableLove faulty
  command faulty some
  copyAdapter faulty "control.txt" adapter.control
  copyAdapter faulty "mod_plumOS.txt" adapter.modPlumos
  inUpstream faulty (Files.enable (inPortMaster "control.txt"))
  inUpstream faulty (Files.enable (inPortMaster "mod_plumOS.txt"))

end Prepare

section Wholeness

variable {files : Files} {path : List Text}

theorem isFile_insert {text : Text} {executable : Bool} (q : List Text) :
    Files.isFile q (files.insert path (.file text executable)) =
      (decide (q = path) || files.isFile q) := by
  unfold Files.isFile
  by_cases hq : q = path
  · subst hq
    rw [AList.lookup_insert]
    simp
  · rw [AList.lookup_insert_ne hq]
    simp [hq]

theorem Whole.insert (h : Whole files) (path : List Text) (text : Text) (executable : Bool) :
    Whole (files.insert path (.file text executable)) := by
  intro name hname
  rw [isFile_insert, h name hname, Bool.or_true]

theorem Whole.overwrite (h : Whole files) (path : List Text) (name text : Text) :
    Whole (files.overwrite path name text) := by
  unfold Files.overwrite
  split
  · exact h.insert _ _ _
  · exact h.insert _ _ _
  · exact h.insert _ _ _

theorem Whole.enable {files' : Files} (h : Whole files)
    (henable : files.enable path = some files') : Whole files' := by
  unfold Files.enable at henable
  split at henable
  · cases henable
    exact h.insert _ _ _
  · cases henable
    exact h
  · cases henable

theorem Whole.enable_getD (h : Whole files) (path : List Text) :
    Whole ((files.enable path).getD files) := by
  cases henable : files.enable path with
  | none => exact h
  | some files' => exact h.enable henable

theorem Whole.isFile (h : Whole files) {name : String}
    (hname : inPortMaster name ∈ requiredFiles.map memberPath) :
    files.isFile (inPortMaster name) = true := by
  obtain ⟨full, hfull, hpath⟩ := List.mem_map.mp hname
  rw [← hpath]
  exact h full hfull

theorem enable_of_isFile (h : files.isFile path = true) :
    ∃ files', files.enable path = some files' := by
  unfold Files.isFile at h
  unfold Files.enable
  split at h
  · rename_i hlookup
    rw [hlookup]
    exact ⟨_, rfl⟩
  · cases h

end Wholeness

section Sound

variable {lib : Library} {baseUrl : Text} {c : Call} {release : Release} {s t : AppRoot}

/-- There is a whole payload under the name. -/
def WholeAt (s : AppRoot) (name : Text) : Prop :=
  ∃ files, s.get name = some (.dir files) ∧ Whole files

/-- Nothing but a whole payload is in `upstream`. -/
def SoundRoot (s : AppRoot) : Prop := s.get upstream = none ∨ WholeAt s upstream

theorem SoundRoot.of_eq (h : SoundRoot s) (hget : t.get upstream = s.get upstream) :
    SoundRoot t := by
  unfold SoundRoot WholeAt at *
  rwa [hget]

theorem SoundRoot.of_agrees {scratch : Text → Prop} (h : SoundRoot s) (hagrees : Agrees scratch s t)
    (hupstream : ¬ scratch upstream) : SoundRoot t :=
  h.of_eq (hagrees.1 _ hupstream)

theorem ignores_soundRoot {name : Text} (hname : upstream ≠ name) : Ignores SoundRoot name :=
  ⟨fun s item h => h.of_eq (AppRoot.get_set_ne s item hname),
    fun s h => h.of_eq (AppRoot.get_erase_ne s hname)⟩

theorem upstream_ne_scratch {name : Text} (hname : c.Scratch name) : upstream ≠ name :=
  fun h => upstream_not_scratch c (h ▸ hname)

/-- A payload is staged, and `upstream` is sound. -/
def Staged (c : Call) (files : Files) (s : AppRoot) : Prop :=
  SoundRoot s ∧ s.get c.stage = some (.dir files)

theorem keeps_dropPrevious (files : Files) :
    Keeps (Staged c files) (ifExists upstreamPrevious do
      rmtree upstreamPrevious
      syncDirectory) := by
  have hstage : c.stage ≠ upstreamPrevious := fun h =>
    previous_not_scratch c (h ▸ scratch_stage c)
  have hignores : Ignores (Staged c files) upstreamPrevious := by
    have hsound : Ignores SoundRoot upstreamPrevious := ignores_soundRoot (by decide)
    constructor
    · exact fun s item hs =>
        ⟨hsound.set s item hs.1, (AppRoot.get_set_ne s item hstage).trans hs.2⟩
    · exact fun s hs => ⟨hsound.erase s hs.1, (AppRoot.get_erase_ne s hstage).trans hs.2⟩
  exact keeps_ifExists (Keeps.bind (keeps_rmtree hignores) fun _ => keeps_syncDirectory _)

theorem keeps_setAside (files : Files) :
    Keeps (Staged c files) (ifExists upstream do
      change (·.rename upstream upstreamPrevious)
      syncDirectory) := by
  have hstage : c.stage ≠ upstreamPrevious := fun h =>
    previous_not_scratch c (h ▸ scratch_stage c)
  have hstage' : c.stage ≠ upstream := fun h => upstream_not_scratch c (h ▸ scratch_stage c)
  apply keeps_ifExists
  apply Keeps.bind _ fun _ => keeps_syncDirectory _
  apply keeps_change
  intro s t hs ht
  obtain ⟨item, -, rfl⟩ := AppRoot.rename_eq ht
  constructor
  · left
    rw [AppRoot.get_set_ne _ _ (by decide), AppRoot.get_erase_self]
  · rw [AppRoot.get_set_ne _ _ hstage, AppRoot.get_erase_ne _ hstage']
    exact hs.2

theorem wp_switchPayload_whole {files : Files} (ht : Staged c files t) (hwhole : Whole files) :
    wp SoundRoot (fun _ => SoundRoot) (fun _ => SoundRoot) (switchPayload c) t := by
  have hstop : ∀ {α : Type} {Q : α → AppRoot → Prop} stop u, SoundRoot u →
      wp SoundRoot Q (fun _ => SoundRoot) (if stop = Stop.osError then
        fail "staged switch failed; current payload was preserved" else .raise stop) u := by
    intro α Q stop u hu
    split <;> exact hu
  unfold switchPayload
  rw [wp_bind]
  apply wp_mono ((keeps_dropPrevious files).stays t ht) (fun _ h => h.1) _ (fun _ _ h => h.1)
  intro _ u hu
  rw [wp_bind]
  apply wp_mono ((keeps_setAside files).stays u hu) (fun _ h => h.1) _ (fun _ _ h => h.1)
  intro _ v hv
  rw [wp_handle, wp_bind]
  apply wp_change hv.1 (hstop _ v hv.1)
  intro w hw
  obtain ⟨item, hitem, rfl⟩ := AppRoot.rename_eq hw
  rw [hv.2] at hitem
  cases hitem
  have hplaced : SoundRoot ((v.erase c.stage).set upstream (.dir files)) :=
    Or.inr ⟨files, AppRoot.get_set_self _ _ _, hwhole⟩
  refine ⟨hplaced, ?_⟩
  apply wp_change hplaced (hstop _ _ hplaced)
  intro x hx
  cases hx
  exact ⟨hplaced, hplaced⟩

/-- The archive of the call holds the required files as files, if it passes the checks. -/
def Call.Wholesome (lib : Library) (c : Call) : Prop :=
  ∀ release files, c.payload lib release = some files → Whole files

theorem keeps_installRelease (hc : c.Wholesome lib) :
    Keeps SoundRoot (installRelease lib c release) := by
  constructor
  intro s hs
  have hscratch : ∀ u, Agrees c.Scratch s u → SoundRoot u :=
    fun u hu => hs.of_agrees hu (upstream_not_scratch c)
  unfold installRelease
  rw [wp_bind]
  apply wp_mono (wp_stageRelease (Agrees.refl c.Scratch s)) hscratch _ fun _ => hscratch
  rintro ⟨actualMd5, actualSha256⟩ u ⟨hu, -, files, hfiles, hstage, -⟩
  rw [wp_bind]
  apply wp_mono (wp_switchPayload_whole ⟨hscratch u hu, hstage⟩ (hc release files hfiles))
    (fun _ h => h) _ (fun _ _ h => h)
  intro _ v hv
  have hrecord : ∀ w, Agrees c.Record v w → SoundRoot w := by
    intro w hw
    apply hv.of_agrees hw
    rintro (h | h)
    · exact upstream_ne_scratch (c := c) (Or.inr rfl) h
    · revert h
      decide
  exact wp_mono wp_writeJsonDurable hrecord (fun _ w hw => hrecord w hw.1) fun _ => hrecord

theorem keeps_install (hc : c.Wholesome lib) : Keeps SoundRoot (install lib baseUrl c) := by
  have hstale : ∀ name, isStale name = true → Ignores SoundRoot name :=
    fun name hname => ignores_soundRoot (upstream_ne_scratch (c := c) (Or.inl hname))
  have htemp : Ignores SoundRoot c.temp :=
    ignores_soundRoot (upstream_ne_scratch (scratch_temp c))
  unfold install
  refine Keeps.ite ?_ (Keeps.raise _)
  apply Keeps.bind (keeps_cleanup hstale)
  intro _
  cases releaseRecord baseUrl c with
  | error stop => exact Keeps.raise stop
  | ok release =>
    apply Keeps.bind (keeps_look _)
    intro current
    refine Keeps.ite (Keeps.pure _) ?_
    apply Keeps.bind
    · apply keeps_change
      intro s t hs ht
      cases ht
      exact hs.of_eq rfl
    · intro _
      apply Keeps.bind
      · apply keeps_change
        intro s t hs ht
        rw [AppRoot.mkdir_eq ht]
        exact htemp.set s _ hs
      · intro _
        apply Keeps.bind (Keeps.andThen (keeps_installRelease hc) (keeps_rmtree htemp))
        exact fun _ => Keeps.pure _

end Sound

section Events

/-- A call of the updater, or a run of `prepare`. -/
inductive Event where
  | install (c : Call)
  | prepare

variable (lib : Library) (baseUrl : Text) (adapter : Adapter)

/-- What happens, stopped anywhere. -/
def Happens (s : Storage) : Event → Storage → Prop
  | .install c, t => InterruptedInstall lib baseUrl s.root c t.root ∧ t.seed = s.seed
  | .prepare, t => (prepare true adapter).Leaves s t

def Event.Wholesome : Event → Prop
  | .install c => c.Wholesome lib
  | .prepare => True

def WholesomeEvent (s : Storage) (e : Event) (t : Storage) : Prop :=
  Happens lib baseUrl adapter s e t ∧ e.Wholesome lib

/-- No data root, or one with a complete payload. -/
def StartsWell (s : Storage) : Prop :=
  s.root.present = false ∧ s.root.get upstream = none ∨
    s.root.present = true ∧ WholeAt s.root upstream

/-- The next run of `prepare`, all of whose commands succeed, exits 0 and leaves a complete
payload. -/
def Launchable (s : Storage) : Prop :=
  ∀ rest t, (prepare false adapter).Leads s rest t → rest.Ended →
    rest.result = some () ∧ WholeAt t.root upstream

end Events

section Prepares

variable {faulty : Bool} {adapter : Adapter} {s t : Storage}

theorem wp_command {I : Storage → Prop} {Q : Unit → Storage → Prop} {E : Unit → Storage → Prop}
    {f : Storage → Option Storage} (hf : f s = some t) (hs : I s) (ht : I t) (hQ : Q () t)
    (hE : faulty = true → E () s) : wp I Q E (command faulty f) s := by
  unfold command
  rw [wp_bind, wp_run, hf]
  cases faulty with
  | false =>
    refine ⟨by simp, fun o ho => ?_⟩
    rw [List.mem_singleton.mp ho]
    exact ⟨ht, hQ⟩
  | true =>
    refine ⟨by simp, fun o ho => ?_⟩
    simp only [if_true, List.mem_cons, List.not_mem_nil, or_false] at ho
    rcases ho with rfl | rfl
    · exact ⟨ht, hQ⟩
    · exact ⟨hs, hE rfl⟩

/-- The states on the way. -/
def SoundStorage (s : Storage) : Prop := SoundRoot s.root

/-- The payload in `upstream` is whole and has `P`. -/
def Has (P : Files → Prop) (s : Storage) : Prop :=
  s.root.present = true ∧ ∃ files, s.root.get upstream = some (.dir files) ∧ Whole files ∧ P files

/-- From `s` on the script leads to `Q`; it ends early only if it `stops`. -/
abbrev LeadsTo {α : Type} (stops : Prop) (m : Script Storage Unit α) (Q : α → Storage → Prop)
    (s : Storage) : Prop :=
  wp SoundStorage Q (fun _ t => SoundStorage t ∧ stops) m s

theorem Has.sound {P : Files → Prop} (hs : Has P s) : SoundStorage s := by
  obtain ⟨-, files, hget, hwhole, -⟩ := hs
  exact Or.inr ⟨files, hget, hwhole⟩

theorem Has.isFile {P : Files → Prop} (hs : Has P s) {name : String}
    (hname : inPortMaster name ∈ requiredFiles.map memberPath) : s.isFile name = true := by
  obtain ⟨hpresent, files, hget, hwhole, -⟩ := hs
  unfold Storage.isFile
  rw [hpresent, hget, Bool.true_and]
  exact hwhole.isFile hname

theorem isFile_missing (hmissing : s.root.present = false ∨ s.root.get upstream = none)
    (name : String) : s.isFile name = false := by
  unfold Storage.isFile
  rcases hmissing with h | h
  · rw [h, Bool.false_and]
  · rw [h, Bool.and_false]

abbrev Any : Files → Prop := fun _ => True

/-- What a run decides by: the root, and that the seed has the baseline in it. -/
def Seeded (adapter : Adapter) (root : AppRoot) (s : Storage) : Prop :=
  s.root = root ∧ ∃ entry, s.seed = some entry ∧
    entry.lookup upstream = some (.dir adapter.baseline)

/-- The data root is missing or has a payload in it. -/
def Usable (s : Storage) : Prop := s.root.present = false ∨ s.root.get upstream ≠ none

variable {stops : Prop} (hstops : faulty = true → stops)
include hstops

theorem leads_inUpstream {P Q : Files → Prop} {f : Files → Option Files} (hs : Has P s)
    (hf : ∀ files, Whole files → P files → ∃ files', f files = some files' ∧ Whole files' ∧
      Q files') :
    LeadsTo stops (inUpstream faulty f) (fun _ => Has Q) s := by
  obtain ⟨hpresent, files, hget, hwhole, hP⟩ := hs
  obtain ⟨files', hfiles', hwhole', hQ⟩ := hf files hwhole hP
  have hsound : SoundStorage s := Or.inr ⟨files, hget, hwhole⟩
  have hhas : Has Q { s with root := s.root.set upstream (.dir files') } :=
    ⟨hpresent, files', AppRoot.get_set_self _ _ _, hwhole', hQ⟩
  apply wp_command _ hsound hhas.sound hhas fun h => ⟨hsound, hstops h⟩
  simp [AppRoot.within, hget, hfiles']

theorem leads_enableHelper {name : String} (hs : Has Any s)
    (hname : inPortMaster name ∈ requiredFiles.map memberPath) :
    LeadsTo stops (enableHelper faulty name) (fun _ => Has Any) s := by
  unfold enableHelper orElse LeadsTo
  rw [wp_bind, wp_bind, wp_read]
  refine ⟨hs.sound, ?_⟩
  rw [hs.isFile hname, if_pos rfl, wp_pure]
  apply leads_inUpstream hstops hs
  intro files hwhole _
  obtain ⟨files', hfiles'⟩ := enable_of_isFile (hwhole.isFile hname)
  exact ⟨files', hfiles', hwhole.enable hfiles', trivial⟩

theorem leads_enableLove (hs : Has Any s) :
    LeadsTo stops (enableLove faulty) (fun _ => Has Any) s := by
  unfold enableLove LeadsTo
  rw [wp_bind, wp_read]
  refine ⟨hs.sound, ?_⟩
  apply wp_forEach fun _ => Has Any
  · intro path _ t ht
    apply leads_inUpstream hstops ht
    exact fun files hwhole _ => ⟨_, rfl, hwhole.enable_getD path, trivial⟩
  · exact fun _ ht => ht
  · exact hs

theorem leads_copyAdapter {P : Files → Prop} {name : String} {text : Text} (hs : Has P s) :
    LeadsTo stops (copyAdapter faulty name text)
      (fun _ => Has fun files => files.lookup (inPortMaster name) ≠ none) s := by
  unfold copyAdapter LeadsTo
  rw [wp_bind]
  apply wp_mono (leads_inUpstream hstops (Q := Any) hs
    fun files hwhole _ => ⟨_, rfl, hwhole.overwrite _ _ _, trivial⟩) (fun _ h => h) _ fun _ _ h => h
  intro _ t ht
  apply leads_inUpstream hstops ht
  refine fun files hwhole _ => ⟨_, rfl, hwhole.overwrite _ _ _, ?_⟩
  unfold Files.overwrite
  cases hlookup : files.lookup (inPortMaster name) with
  | none => simp [AList.lookup_insert]
  | some node =>
    cases node with
    | file old executable => simp [AList.lookup_insert]
    | dir =>
      have hne : inPortMaster name ≠ inPortMaster name ++ [name.toList] := by
        intro h
        have hlength := congrArg List.length h
        rw [List.length_append, List.length_singleton] at hlength
        omega
      dsimp only
      rw [AList.lookup_insert_ne hne, hlookup]
      exact fun h => by cases h

theorem leads_idle {Q : Storage → Prop} (hs : SoundStorage s) (hQ : Q s) :
    LeadsTo stops (command faulty some) (fun _ => Q) s :=
  wp_command rfl hs hs hQ fun h => ⟨hs, hstops h⟩

theorem leads_setSeed {Q : Storage → Prop} (seed : Option (AList fun _ : Text => Item))
    (hs : SoundStorage s) (hQ : Q { s with seed := seed }) :
    LeadsTo stops (setSeed faulty seed) (fun _ => Q) s :=
  wp_command (t := { s with seed := seed }) rfl hs hs hQ fun h => ⟨hs, hstops h⟩

theorem leads_copyToSeed {entry : AList fun _ : Text => Item} {name : Text} {item : Item}
    {Q : Storage → Prop} (hs : SoundStorage s) (hseed : s.seed = some entry)
    (hQ : Q { s with seed := some (entry.insert name item) }) :
    LeadsTo stops (copyToSeed faulty name item) (fun _ => Q) s :=
  wp_command (t := { s with seed := some (entry.insert name item) }) (by rw [hseed]; rfl) hs hs
    hQ fun h => ⟨hs, hstops h⟩

theorem leads_placeSeed {root : AppRoot} (hbaseline : Whole adapter.baseline)
    (hmissing : root.present = false) (hroot : SoundRoot root)
    (hs : Seeded adapter root s) :
    LeadsTo stops (placeSeed faulty) (fun _ => Has Any) s := by
  obtain ⟨hsame, entry, hseed, hentry⟩ := hs
  have hsound : SoundStorage s := by
    unfold SoundStorage
    rwa [hsame]
  unfold placeSeed moveSeed LeadsTo
  rw [wp_bind, wp_read]
  refine ⟨hsound, ?_⟩
  rw [hsame, hmissing, if_neg (by decide), wp_bind]
  have hplaced : Has Any
      { s with root := { s.root with present := true, entry := entry }, seed := none } :=
    ⟨rfl, adapter.baseline, hentry, hbaseline, trivial⟩
  apply wp_command (by rw [hseed]; rfl) hsound hplaced.sound _ fun h => ⟨hsound, hstops h⟩
  exact leads_idle hstops hplaced.sound hplaced

theorem leads_copyRecord {root : AppRoot} (hs : SoundStorage s) (hseeded : Seeded adapter root s) :
    LeadsTo stops (copyRecord faulty adapter)
      (fun _ t => SoundStorage t ∧ Seeded adapter root t) s := by
  unfold copyRecord
  cases adapter.installed with
  | none => exact ⟨hs, hseeded⟩
  | some item =>
    obtain ⟨hroot, entry, hseed, hentry⟩ := hseeded
    apply leads_copyToSeed hstops hs hseed
    refine ⟨hs, hroot, _, rfl, ?_⟩
    rw [AList.lookup_insert_ne (by decide), hentry]

theorem leads_seedDataRoot {Q : Storage → Prop} (hbaseline : Whole adapter.baseline)
    (hs : SoundStorage s)
    (hplace : ∀ t, Seeded adapter s.root t → LeadsTo stops (placeSeed faulty) (fun _ => Q) t) :
    LeadsTo stops (seedDataRoot faulty adapter) (fun _ => Q) s := by
  have hfile : adapter.baseline.isFile (inPortMaster "pugwash") = true :=
    hbaseline.isFile (by decide)
  unfold seedDataRoot LeadsTo
  rw [hfile, if_pos rfl, wp_bind]
  apply leads_setSeed hstops none hs
  rw [wp_bind]
  apply leads_setSeed hstops (s := { s with seed := none }) (some ∅) hs
  rw [wp_bind]
  apply leads_copyToSeed hstops (s := { s with seed := some ∅ }) hs rfl
  rw [wp_bind]
  have hseeded : Seeded adapter s.root
      { s with seed := some ((∅ : AList fun _ : Text => Item).insert upstream
        (.dir adapter.baseline)) } :=
    ⟨rfl, _, rfl, AList.lookup_insert _⟩
  have hcopied : SoundStorage
      { s with seed := some ((∅ : AList fun _ : Text => Item).insert upstream
        (.dir adapter.baseline)) } := hs
  apply wp_mono (leads_copyRecord hstops hcopied hseeded) (fun _ h => h) _ fun _ _ h => h
  rintro _ t ⟨ht, hseeded⟩
  rw [wp_bind]
  apply leads_idle hstops ht
  rw [wp_bind]
  exact leads_idle hstops ht (hplace t hseeded)

theorem leads_prepare (hbaseline : Whole adapter.baseline) (hs : SoundStorage s)
    (husable : Usable s) :
    LeadsTo stops (prepare faulty adapter) (fun _ => Has Any) s := by
  have hseeded : LeadsTo stops (orElse "pugwash" (seedDataRoot faulty adapter))
      (fun _ => Has Any) s := by
    unfold orElse LeadsTo
    rw [wp_bind, wp_read]
    refine ⟨hs, ?_⟩
    cases hpresent : s.root.present with
    | false =>
      rw [isFile_missing (Or.inl hpresent), if_neg (by decide)]
      exact leads_seedDataRoot hstops hbaseline hs fun t ht =>
        leads_placeSeed hstops hbaseline hpresent hs ht
    | true =>
      have hhas : Has Any s := by
        rcases hs with hnone | ⟨files, hget, hwhole⟩
        · rcases husable with h | h
          · rw [hpresent] at h
            cases h
          · exact absurd hnone h
        · exact ⟨hpresent, files, hget, hwhole, trivial⟩
      rw [hhas.isFile (by decide), if_pos rfl]
      exact hhas
  have hnext : ∀ {m : Sh Unit} {rest : Unit → Sh Unit} {P P' : Files → Prop} {t : Storage},
      LeadsTo stops m (fun _ => Has P) t →
      (∀ u, Has P u → LeadsTo stops (rest ()) (fun _ => Has P') u) →
      LeadsTo stops (m >>= rest) (fun _ => Has P') t := by
    intro m rest P P' t hm hrest
    unfold LeadsTo
    rw [wp_bind]
    exact wp_mono hm (fun _ h => h) (fun _ u hu => hrest u hu) fun _ _ h => h
  unfold prepare
  refine hnext hseeded fun t ht => ?_
  refine hnext (P := Any) ?_ fun t ht => ?_
  · unfold orElse LeadsTo
    rw [wp_bind, wp_read, ht.isFile (by decide), if_pos rfl]
    exact ⟨ht.sound, ht⟩
  refine hnext (leads_enableHelper hstops ht (by decide)) fun t ht => ?_
  refine hnext (leads_enableHelper hstops ht (by decide)) fun t ht => ?_
  refine hnext (leads_enableLove hstops ht) fun t ht => ?_
  refine hnext (leads_idle hstops ht.sound ht) fun t ht => ?_
  refine hnext (leads_copyAdapter hstops ht) fun t ht => ?_
  refine hnext (leads_copyAdapter hstops ht) fun t ht => ?_
  -- the copy of `mod_plumOS.txt` has to be there when its mode is changed at the end
  refine hnext (P := fun files => files.lookup (inPortMaster "mod_plumOS.txt") ≠ none) ?_
    fun t ht => ?_
  · apply leads_inUpstream hstops ht
    intro files hwhole hmod
    have hfile : files.isFile (inPortMaster "control.txt") = true := hwhole.isFile (by decide)
    obtain ⟨files', hfiles'⟩ := enable_of_isFile hfile
    refine ⟨files', hfiles', hwhole.enable hfiles', ?_⟩
    unfold Files.enable at hfiles'
    split at hfiles'
    · cases hfiles'
      rwa [AList.lookup_insert_ne (by decide)]
    · cases hfiles'
      exact hmod
    · cases hfiles'
  · apply leads_inUpstream hstops ht
    intro files hwhole hmod
    cases hlookup : files.lookup (inPortMaster "mod_plumOS.txt") with
    | none => exact absurd hlookup hmod
    | some node =>
      have henable : ∃ files', files.enable (inPortMaster "mod_plumOS.txt") = some files' := by
        unfold Files.enable
        rw [hlookup]
        cases node with
        | file text executable => exact ⟨_, rfl⟩
        | dir => exact ⟨_, rfl⟩
      obtain ⟨files', hfiles'⟩ := henable
      exact ⟨files', hfiles', hwhole.enable hfiles', trivial⟩

omit hstops in
theorem prepare_refuses (hbaseline : Whole adapter.baseline) (hs : SoundStorage s)
    (hpresent : s.root.present = true) (hnone : s.root.get upstream = none) :
    LeadsTo True (prepare faulty adapter) (fun _ _ => False) s := by
  unfold prepare LeadsTo
  rw [wp_bind]
  unfold orElse
  rw [wp_bind, wp_read, isFile_missing (Or.inr hnone), if_neg (by decide)]
  refine ⟨hs, ?_⟩
  apply wp_mono (leads_seedDataRoot (Q := fun _ => False) (fun _ => trivial) hbaseline hs ?_)
    (fun _ h => h) (fun _ _ h => h.elim) fun _ _ h => h
  intro t ht
  have hsound : SoundStorage t := by
    unfold SoundStorage
    rw [ht.1]
    exact hs
  unfold placeSeed LeadsTo
  rw [wp_bind, wp_read, ht.1, hpresent, if_pos rfl, wp_bind]
  exact ⟨hsound, leads_setSeed (fun _ => trivial) none hsound ⟨hsound, trivial⟩⟩

end Prepares

section Runs

variable {lib : Library} {baseUrl : Text} {adapter : Adapter} {start s t : Storage}
  {es : List Event}

/-- A run of `prepare` whose commands may fail keeps the root sound. -/
theorem prepare_sound (hbaseline : Whole adapter.baseline) (hs : SoundStorage s)
    (hleave : (prepare true adapter).Leaves s t) : SoundStorage t := by
  by_cases husable : Usable s
  · exact leaves_of_wp (leads_prepare (fun _ => trivial) hbaseline hs husable) hs hleave
  · obtain ⟨hpresent, hnone⟩ := not_or.mp husable
    rw [Bool.not_eq_false] at hpresent
    rw [ne_eq, not_not] at hnone
    exact leaves_of_wp (prepare_refuses hbaseline hs hpresent hnone) hs hleave

theorem Happens.sound {e : Event} (h : Happens lib baseUrl adapter s e t)
    (he : e.Wholesome lib) (hbaseline : Whole adapter.baseline) (hs : SoundStorage s) :
    SoundStorage t := by
  cases e with
  | install c =>
    have hroot : SoundRoot s.root := hs
    have hend : SoundRoot t.root :=
      leaves_of_wp ((keeps_install he).stays s.root hroot) hroot h.1
    exact hend
  | prepare => exact prepare_sound hbaseline hs h

theorem launchable_of_usable (hbaseline : Whole adapter.baseline) (hs : SoundStorage s)
    (husable : Usable s) : Launchable adapter s := by
  intro rest t hlead hend
  have hwp : LeadsTo False (prepare false adapter) (fun _ => Has Any) s :=
    leads_prepare (fun h => by cases h) hbaseline hs husable
  have hstop : wp SoundStorage (fun _ => Has Any) (fun _ _ => False) (prepare false adapter) s :=
    wp_mono hwp (fun _ h => h) (fun _ _ h => h) fun _ _ h => h.2
  obtain ⟨a, ha, -, files, hget, hwhole, -⟩ := result_of_wp hstop hs hlead hend
  exact ⟨ha, files, hget, hwhole⟩

theorem usable_of_launchable (hbaseline : Whole adapter.baseline) (hs : SoundStorage s)
    (hlaunch : Launchable adapter s) : Usable s := by
  by_contra husable
  obtain ⟨hpresent, hnone⟩ := not_or.mp husable
  rw [Bool.not_eq_false] at hpresent
  rw [ne_eq, not_not] at hnone
  have hwp : LeadsTo True (prepare false adapter) (fun _ _ => False) s :=
    prepare_refuses hbaseline hs hpresent hnone
  obtain ⟨rest, t, hlead, hend⟩ := ends_of_wp hwp
  obtain ⟨e, rfl, -⟩ := exit_of_wp hwp hs hlead hend
  cases (hlaunch _ t hlead hend).1

/-- After any installs and runs of `prepare`, each stopped anywhere, the next run of `prepare`
succeeds exactly where the data root is missing or has an `upstream`. -/
theorem adapter_launchable_iff (hbaseline : Whole adapter.baseline) (hstart : StartsWell start)
    (hrun : Run (WholesomeEvent lib baseUrl adapter) start es s) :
    Launchable adapter s ↔ Usable s := by
  have hsound : SoundStorage start := by
    rcases hstart with ⟨-, hnone⟩ | ⟨-, hwhole⟩
    · exact Or.inl hnone
    · exact Or.inr hwhole
  have hs : SoundStorage s :=
    hrun.keeps hsound fun hs hstep => hstep.1.sound hstep.2 hbaseline hs
  exact ⟨usable_of_launchable hbaseline hs, launchable_of_usable hbaseline hs⟩

end Runs

section Samples

/-- The required files only. -/
def sampleBaseline : Files :=
  (requiredFiles.map memberPath).foldl (fun files path => files.insert path (.file [] false)) ∅

def sampleAdapter : Adapter := ⟨sampleBaseline, none, [], []⟩

/-- No data root. -/
def missingRoot : Storage := ⟨⟨false, ∅, []⟩, none⟩

def interruptedPrepare : Storage := (Script.play (List.replicate 9 0) (prepare true sampleAdapter)
  missingRoot).2

theorem adapter_launchable_iff_sample : Launchable sampleAdapter interruptedPrepare ↔
    Usable interruptedPrepare := by
  have hstep : WholesomeEvent sampleLibrary [] sampleAdapter missingRoot .prepare
      interruptedPrepare :=
    ⟨Script.leaves_play _ _ _, trivial⟩
  exact adapter_launchable_iff (by decide +kernel) (Or.inl ⟨rfl, rfl⟩) (Run.single hstep)

/-- The call whose download fails. -/
def failedDownload : Call := { sampleCall with delivered := none }

/-- Where there was no data root, an install whose download fails leaves one that every later run
of `prepare` refuses. -/
theorem failed_install_blocks_prepare : ∃ s,
    Run (Happens sampleLibrary [] sampleAdapter) missingRoot [.install failedDownload] s ∧
    Whole sampleAdapter.baseline ∧ StartsWell missingRoot ∧ ¬ Launchable sampleAdapter s := by
  have hbaseline : Whole sampleAdapter.baseline := by decide +kernel
  let t : Storage := ⟨(Script.play (List.replicate 20 0)
    (install sampleLibrary [] failedDownload) missingRoot.root).2, none⟩
  have hinstall : Happens sampleLibrary [] sampleAdapter missingRoot (.install failedDownload) t :=
    ⟨Script.leaves_play _ _ _, rfl⟩
  have hpayload : failedDownload.Wholesome sampleLibrary := fun _ _ h => by cases h
  have ht : SoundStorage t := hinstall.sound hpayload hbaseline (Or.inl rfl)
  refine ⟨t, Run.single hinstall, hbaseline, Or.inl ⟨rfl, rfl⟩, fun hlaunch => ?_⟩
  have hunusable : ¬ (t.root.present = false ∨ (t.root.get upstream).isSome = true) := by
    decide +kernel
  apply hunusable
  rcases usable_of_launchable hbaseline ht hlaunch with h | h
  · exact Or.inl h
  · exact Or.inr (Option.isSome_iff_ne_none.mpr h)

end Samples

end PlumosBubble.PortMaster
