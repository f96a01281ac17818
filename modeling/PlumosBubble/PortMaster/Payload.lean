import PlumosBubble.PortMaster.Model

/-! The payloads of the PortMaster updater over any sequence of installs that stop anywhere.
What an install does before its switch touches only its own temporary names. -/

namespace PlumosBubble.PortMaster

open Scripts
open Update (Text strip)

variable {lib : Library} {baseUrl : Text} {c : Call} {release : Release} {s t : AppRoot}

section Rules

variable {β : Type} {I : AppRoot → Prop} {Q : Unit → AppRoot → Prop} {R : β → AppRoot → Prop}
  {E : Stop → AppRoot → Prop} {P : AppRoot → Prop}

theorem wp_os {f : AppRoot → Option (β × AppRoot)} (hs : I s) (herror : E .osError s)
    (hok : ∀ b t, f s = some (b, t) → I t ∧ R b t) : wp I R E (os f) s := by
  unfold os
  rw [wp_bind, wp_run]
  refine ⟨by split <;> simp, ?_⟩
  intro o ho
  cases hf : f s with
  | none =>
    rw [hf, List.mem_singleton] at ho
    rw [ho]
    exact ⟨hs, herror⟩
  | some r =>
    rw [hf] at ho
    rcases List.mem_cons.mp ho with rfl | ho
    · exact hok r.1 r.2 hf
    · rw [List.mem_singleton.mp ho]
      exact ⟨hs, herror⟩

theorem wp_change {f : AppRoot → Option AppRoot} (hs : I s) (herror : E .osError s)
    (hok : ∀ t, f s = some t → I t ∧ Q () t) : wp I Q E (change f) s := by
  apply wp_os hs herror
  intro _ t hf
  obtain ⟨u, hu, hut⟩ := Option.map_eq_some_iff.mp hf
  cases hut
  exact hok t hu

theorem wp_look {f : AppRoot → Option β} (hs : I s) (herror : E .osError s)
    (hok : ∀ b, f s = some b → R b s) : wp I R E (look f) s := by
  apply wp_os hs herror
  intro b t hf
  obtain ⟨b', hb, hbt⟩ := Option.map_eq_some_iff.mp hf
  cases hbt
  exact ⟨hs, hok b hb⟩

theorem keeps_change {f : AppRoot → Option AppRoot} (h : ∀ s t, P s → f s = some t → P t) :
    Keeps P (change f) :=
  ⟨fun s hs => wp_change hs hs fun t hf => ⟨h s t hs hf, h s t hs hf⟩⟩

theorem keeps_look (f : AppRoot → Option β) : Keeps P (look f) :=
  ⟨fun _ hs => wp_look hs hs fun _ _ => hs⟩

end Rules

section Frame

theorem AppRoot.get_set_self (s : AppRoot) (name : Text) (item : Item) :
    (s.set name item).get name = some item :=
  AList.lookup_insert s.entry

theorem AppRoot.get_set_ne (s : AppRoot) {name n : Text} (item : Item) (h : n ≠ name) :
    (s.set name item).get n = s.get n :=
  AList.lookup_insert_ne h

theorem AppRoot.get_erase_self (s : AppRoot) (name : Text) : (s.erase name).get name = none :=
  AList.lookup_erase name s.entry

theorem AppRoot.get_erase_ne (s : AppRoot) {name n : Text} (h : n ≠ name) :
    (s.erase name).get n = s.get n :=
  AList.lookup_erase_ne h

/-- Outside the names in `scratch` the entries are those of `s`, and no record of a validated
payload is lost. -/
def Agrees (scratch : Text → Prop) (s t : AppRoot) : Prop :=
  (∀ name, ¬ scratch name → t.get name = s.get name) ∧ s.validated ⊆ t.validated

variable {scratch : Text → Prop} {name : Text}

theorem Agrees.refl (scratch : Text → Prop) (s : AppRoot) : Agrees scratch s s :=
  ⟨fun _ _ => rfl, List.Subset.refl _⟩

theorem Agrees.set (h : Agrees scratch s t) (hname : scratch name) (item : Item) :
    Agrees scratch s (t.set name item) := by
  refine ⟨fun n hn => ?_, h.2⟩
  rw [AppRoot.get_set_ne _ _ (by rintro rfl; exact hn hname)]
  exact h.1 n hn

theorem Agrees.erase (h : Agrees scratch s t) (hname : scratch name) :
    Agrees scratch s (t.erase name) := by
  refine ⟨fun n hn => ?_, h.2⟩
  rw [AppRoot.get_erase_ne _ (by rintro rfl; exact hn hname)]
  exact h.1 n hn

theorem AppRoot.mkdir_eq (h : s.mkdir name = some t) : t = s.set name (.dir ∅) := by
  unfold AppRoot.mkdir at h
  split at h
  · exact (Option.some.inj h).symm
  · cases h

theorem AppRoot.unlink_eq (h : s.unlink name = some t) : t = s.erase name := by
  unfold AppRoot.unlink at h
  split at h
  · exact (Option.some.inj h).symm
  · exact (Option.some.inj h).symm
  · cases h

theorem AppRoot.rmdir_eq (h : s.rmdir name = some t) : t = s.erase name := by
  unfold AppRoot.rmdir at h
  split at h
  · split at h
    · exact (Option.some.inj h).symm
    · cases h
  · cases h

theorem AppRoot.within_eq {f : Files → Option Files} (h : s.within name f = some t) :
    ∃ files files', s.get name = some (.dir files) ∧ f files = some files' ∧
      t = s.set name (.dir files') := by
  unfold AppRoot.within at h
  split at h
  · rename_i files hfiles
    obtain ⟨files', hf, ht⟩ := Option.map_eq_some_iff.mp h
    exact ⟨files, files', hfiles, hf, ht.symm⟩
  · cases h

theorem AppRoot.writeFile_eq {item : Item} (h : s.writeFile name item = some t) :
    t = s.set name item := by
  unfold AppRoot.writeFile at h
  split at h
  all_goals first
    | exact (Option.some.inj h).symm
    | cases h

theorem AppRoot.rename_eq {src dst : Text} (h : s.rename src dst = some t) :
    ∃ item, s.get src = some item ∧ t = (s.erase src).set dst item := by
  unfold AppRoot.rename at h
  split at h
  · rename_i item hsrc _
    exact ⟨item, hsrc, (Option.some.inj h).symm⟩
  · rename_i files old hsrc _
    split at h
    · exact ⟨_, hsrc, (Option.some.inj h).symm⟩
    · cases h
  · cases h
  all_goals first
    | exact ⟨_, by assumption, (Option.some.inj h).symm⟩
    | cases h

/-- Changes of the entry `name` do not matter for `P`. -/
structure Ignores (P : AppRoot → Prop) (name : Text) : Prop where
  set : ∀ s item, P s → P (s.set name item)
  erase : ∀ s, P s → P (s.erase name)

theorem ignores_agrees (hname : scratch name) (s : AppRoot) : Ignores (Agrees scratch s) name :=
  ⟨fun _ item ht => ht.set hname item, fun _ ht => ht.erase hname⟩

theorem keeps_rmtree {P : AppRoot → Prop} (h : Ignores P name) : Keeps P (rmtree name) := by
  unfold rmtree
  apply Keeps.bind (keeps_look _)
  intro files
  apply Keeps.bind
  · apply Keeps.forEach
    intro path _
    apply keeps_change
    intro t u ht hu
    obtain ⟨_, _, _, _, rfl⟩ := AppRoot.within_eq hu
    exact h.set t _ ht
  · intro _
    apply keeps_change
    intro t u ht hu
    rw [AppRoot.rmdir_eq hu]
    exact h.erase t ht

theorem keeps_syncDirectory (P : AppRoot → Prop) : Keeps P syncDirectory := by
  apply keeps_change
  intro t u ht hu
  cases hu
  exact ht

end Frame

section Stage

/-- The names of the call's own temporary files and of those an earlier call left. -/
def Call.Scratch (c : Call) (name : Text) : Prop := isStale name = true ∨ name = c.metadataTemp

theorem isStale_append {pre : Text} (hpre : pre ∈ staleUpdatePrefixes) (rest : Text) :
    isStale (pre ++ rest) = true := by
  unfold isStale
  rw [List.any_eq_true]
  exact ⟨pre, hpre, List.isPrefixOf_iff_prefix.mpr (List.prefix_append pre rest)⟩

theorem scratch_stage (c : Call) : c.Scratch c.stage :=
  Or.inl (isStale_append (by simp [staleUpdatePrefixes]) _)

theorem scratch_temp (c : Call) : c.Scratch c.temp :=
  Or.inl (isStale_append (by simp [staleUpdatePrefixes]) _)

theorem metadataTemp_ne (c : Call) {name : Text} (h : ¬ installedJson <+: name ∨
    name.length ≤ installedJson.length) : name ≠ c.metadataTemp := by
  rintro rfl
  rcases h with h | h
  · apply h
    unfold Call.metadataTemp
    rw [List.append_assoc]
    exact List.prefix_append _ _
  · have hpos : 0 < ".tmp.".toList.length := by decide
    unfold Call.metadataTemp at h
    rw [List.length_append, List.length_append] at h
    omega

theorem not_scratch (c : Call) {name : Text}
    (h : name ∈ [upstream, upstreamPrevious, installedJson]) : ¬ c.Scratch name := by
  have hstale : ∀ n ∈ [upstream, upstreamPrevious, installedJson], isStale n = false := by
    decide
  have hdiffers : ∀ n ∈ [upstream, upstreamPrevious, installedJson], ¬ installedJson <+: n ∨
      n.length ≤ installedJson.length := by
    decide
  rintro (hs | hs)
  · rw [hstale name h] at hs
    cases hs
  · exact metadataTemp_ne c (hdiffers name h) hs

theorem keeps_cleanup {P : AppRoot → Prop} (h : ∀ name, isStale name = true → Ignores P name) :
    Keeps P cleanupStaleUpdatePaths := by
  unfold cleanupStaleUpdatePaths
  apply Keeps.bind (keeps_look _)
  intro present
  refine Keeps.ite ?_ (Keeps.pure _)
  apply Keeps.bind (keeps_look _)
  intro names
  dsimp only
  apply Keeps.bind
  · apply Keeps.forEach
    intro name hname
    have hignores : Ignores P name := h name (List.mem_filter.mp hname).2
    apply Keeps.handle
    · apply Keeps.bind (keeps_look _)
      intro isDir
      refine Keeps.ite (keeps_rmtree hignores) ?_
      apply keeps_change
      intro t u ht hu
      rw [AppRoot.unlink_eq hu]
      exact hignores.erase t ht
    · intro stop
      exact Keeps.ite (Keeps.raise _) (Keeps.raise _)
  · intro _
    exact Keeps.ite (Keeps.pure _) (keeps_syncDirectory _)

theorem keeps_cleanup_agrees (s : AppRoot) :
    Keeps (fun t => Agrees c.Scratch s t ∧ t.validated = s.validated)
      cleanupStaleUpdatePaths := by
  apply keeps_cleanup
  intro name hname
  have hscratch : c.Scratch name := Or.inl hname
  exact ⟨fun t item ht => ⟨ht.1.set hscratch item, ht.2⟩,
    fun t ht => ⟨ht.1.erase hscratch, ht.2⟩⟩

theorem keeps_within (s : AppRoot) {name : Text} (hname : c.Scratch name)
    (f : Files → Option Files) :
    Keeps (Agrees c.Scratch s) (change fun t => t.within name f) := by
  apply keeps_change
  intro t u ht hu
  obtain ⟨_, _, _, _, rfl⟩ := AppRoot.within_eq hu
  exact ht.set hname _

theorem wp_inStage {calls : List (Files → Option Files)} {files : Files}
    (hs : Agrees c.Scratch s t) (hstage : t.get c.stage = some (.dir files)) :
    wp (Agrees c.Scratch s)
      (fun _ u => Agrees c.Scratch s u ∧ ∃ files', runCalls calls files = some files' ∧
        u.get c.stage = some (.dir files'))
      (fun _ => Agrees c.Scratch s) (inStage c calls) t := by
  apply wp_forEach (fun rest u => Agrees c.Scratch s u ∧ ∃ files',
    runCalls calls files = runCalls rest files' ∧ u.get c.stage = some (.dir files'))
  · rintro f rest u ⟨hu, files', hrun, hdir⟩
    apply wp_change hu hu
    intro v hv
    obtain ⟨old, new, hold, hf, rfl⟩ := AppRoot.within_eq hv
    rw [hdir] at hold
    cases hold
    have hset := hu.set (scratch_stage c) (.dir new)
    refine ⟨hset, hset, new, ?_, AppRoot.get_set_self _ _ _⟩
    rw [hrun]
    simp [runCalls, hf]
  · rintro u ⟨hu, files', hrun, hdir⟩
    exact ⟨hu, files', hrun, hdir⟩
  · exact ⟨hs, files, rfl, hstage⟩

/-- The payload that the call's archive holds, where it passes every check. -/
def Call.payload (lib : Library) (c : Call) (release : Release) : Option Files := do
  let bytes ← c.delivered
  let entries ← lib.unzip bytes
  let files ← runCalls (entries.flatMap memberCalls) ∅
  let enabled ← runCalls (enableCalls files) files
  if lib.md5 bytes = release.md5 ∧ (validateArchive entries).isOk = true ∧
      enabled.versionText = some release.version then some enabled else none

/-- The call gets as far as the switch, unless it is stopped: it does not find its release
installed, and its archive passes the checks. -/
def Call.switches (lib : Library) (baseUrl : Text) (c : Call) (s : AppRoot) : Bool :=
  match releaseRecord baseUrl c with
  | .error _ => false
  | .ok release => c.runtimeStopped && !(installedVersion s = release.version && !c.force) &&
      (c.payload lib release).isSome

theorem wp_download (hs : Agrees c.Scratch s t) :
    wp (Agrees c.Scratch s)
      (fun _ u => Agrees c.Scratch s u ∧ ∃ files bytes, u.get c.temp = some (.dir files) ∧
        c.delivered = some bytes ∧ files.lookup [archiveName] = some (.file bytes false))
      (fun _ => Agrees c.Scratch s) (download c) t := by
  have hwithin : ∀ f u, Agrees c.Scratch s u → wp (Agrees c.Scratch s)
      (fun _ => Agrees c.Scratch s) (fun _ => Agrees c.Scratch s)
      (change fun v => v.within c.temp f) u :=
    fun f u hu => (keeps_within s (scratch_temp c) f).stays u hu
  unfold download
  rw [wp_handle, wp_bind]
  -- whatever fails, the handler removes the file and fails itself
  have hhandler : ∀ {R : Unit → AppRoot → Prop} stop u, Agrees c.Scratch s u →
      wp (Agrees c.Scratch s) R (fun _ => Agrees c.Scratch s) (do
        change fun v => v.within c.temp fun files => some (files.erase [archiveName])
        if stop = Stop.osError then fail "release archive download failed" else .raise stop) u := by
    intro R stop u hu
    rw [wp_bind]
    apply wp_mono (hwithin _ u hu) (fun _ h => h) _ (fun _ _ h => h)
    intro _ v hv
    split <;> exact hv
  apply wp_mono (hwithin _ t hs) (fun _ h => h) _ hhandler
  intro _ u hu
  cases hdelivered : c.delivered with
  | none => exact hhandler _ u hu
  | some bytes =>
    apply wp_change hu (hhandler _ u hu)
    intro v hv
    obtain ⟨old, new, hold, hf, rfl⟩ := AppRoot.within_eq hv
    have hset := hu.set (scratch_temp c) (.dir new)
    refine ⟨hset, hset, new, bytes, AppRoot.get_set_self _ _ _, rfl, ?_⟩
    unfold Files.write at hf
    split at hf
    · cases hf
    · cases hf
    · cases hf
      exact AList.lookup_insert old

theorem keeps_ifExists {P : AppRoot → Prop} {name : Text} {m : Py Unit} (hm : Keeps P m) :
    Keeps P (ifExists name m) := by
  apply Keeps.bind (keeps_look _)
  intro there
  exact Keeps.ite hm (Keeps.pure _)

/-- The payload is on record for the release. -/
def AppRoot.HasRecord (s : AppRoot) (release : Release) (files : Files) : Prop :=
  ∃ h, ⟨files, release.version, release.md5, h⟩ ∈ s.validated

theorem wp_unpackRelease {entries : List ZipEntry} (hs : Agrees c.Scratch s t) :
    wp (Agrees c.Scratch s)
      (fun _ u => Agrees c.Scratch s u ∧ ∃ files enabled,
        runCalls (entries.flatMap memberCalls) ∅ = some files ∧
          runCalls (enableCalls files) files = some enabled ∧
            u.get c.stage = some (.dir enabled) ∧ u.HasRecord release enabled)
      (fun _ => Agrees c.Scratch s) (unpackRelease c release entries) t := by
  unfold unpackRelease
  rw [wp_bind]
  apply wp_mono ((keeps_ifExists (keeps_rmtree (ignores_agrees (scratch_stage c) s))).stays t hs) (fun _ h => h) _
    (fun _ _ h => h)
  intro _ u hu
  rw [wp_bind]
  apply wp_change hu hu
  intro v hv
  rw [AppRoot.mkdir_eq hv]
  have hempty := hu.set (scratch_stage c) (.dir ∅)
  refine ⟨hempty, ?_⟩
  rw [wp_bind]
  apply wp_mono (wp_inStage hempty (AppRoot.get_set_self _ _ _)) (fun _ h => h) _ (fun _ _ h => h)
  rintro _ w ⟨hw, files, hfiles, hstage⟩
  rw [wp_bind]
  unfold enableRuntimeExecutables
  rw [wp_bind]
  apply wp_look hw hw
  intro files' hfiles'
  simp only [hstage, Option.some.injEq] at hfiles'
  subst hfiles'
  rw [wp_handle]
  apply wp_mono (wp_inStage hw hstage) (fun _ h => h) _ _
  · rintro _ x ⟨hx, enabled, henabled, hstage⟩
    rw [wp_bind]
    unfold checkStagedVersion
    rw [wp_bind]
    apply wp_look hx hx
    intro version hversion
    simp only [hstage] at hversion
    by_cases heq : version = release.version
    · rw [if_pos heq, wp_pure]
      unfold syncStaged
      have hversion' : enabled.versionText = some release.version := heq ▸ hversion
      simp only [wp_run, hstage, hversion', dif_pos]
      refine ⟨by simp, fun o ho => ?_⟩
      rw [List.mem_singleton.mp ho]
      have hrecord : Agrees c.Scratch s { x with
          validated := x.validated ++ [⟨enabled, release.version, release.md5, hversion'⟩] } :=
        ⟨hx.1, fun p hp => List.mem_append_left _ (hx.2 hp)⟩
      exact ⟨hrecord, hrecord, files, enabled, hfiles, henabled, hstage, hversion', by simp⟩
    · rw [if_neg heq, wp_bind]
      apply wp_mono ((keeps_rmtree (ignores_agrees (scratch_stage c) s)).stays x hx) (fun _ h => h) _
        (fun _ _ h => h)
      exact fun _ y hy => hy
  · intro stop x hx
    split <;> exact hx

theorem wp_stageRelease (hs : Agrees c.Scratch s t) :
    wp (Agrees c.Scratch s)
      (fun r u => Agrees c.Scratch s u ∧ r.1 = release.md5 ∧ ∃ files,
        c.payload lib release = some files ∧ u.get c.stage = some (.dir files) ∧
          u.HasRecord release files)
      (fun _ => Agrees c.Scratch s) (stageRelease lib c release) t := by
  unfold stageRelease
  rw [wp_bind]
  apply wp_mono (wp_download hs) (fun _ h => h) _ (fun _ _ h => h)
  rintro _ u ⟨hu, archive, bytes, htemp, hdelivered, hbytes⟩
  have hstored : ∀ {R : Text → AppRoot → Prop} {E : Stop → AppRoot → Prop},
      E .osError u → R bytes u → wp (Agrees c.Scratch s) R E (storedArchive c) u := by
    intro R E hE hR
    apply wp_look hu hE
    intro b hb
    simp only [htemp, hbytes, Option.some.injEq] at hb
    rwa [← hb]
  rw [wp_bind]
  apply hstored hu
  dsimp only
  by_cases hmd5 : lib.md5 bytes = release.md5
  · rw [if_pos hmd5, wp_bind]
    apply hstored hu
    cases hentries : lib.unzip bytes with
    | none => exact hu
    | some entries =>
      dsimp only
      cases hvalid : validateArchive entries with
      | error stop => exact hu
      | ok _ =>
        dsimp only
        rw [wp_bind]
        apply wp_mono (wp_unpackRelease hu) (fun _ h => h) _ (fun _ _ h => h)
        rintro _ v ⟨hv, files, enabled, hfiles, henabled, hstage, hversion, hrecord⟩
        refine ⟨hv, hmd5, enabled, ?_, hstage, hversion, hrecord⟩
        unfold Call.payload
        simp [hdelivered, hentries, hfiles, henabled, hmd5, hvalid, hversion, Except.isOk,
          Except.toBool]
  · rw [if_neg hmd5]
    exact hu

end Stage

end PlumosBubble.PortMaster
