import PlumosBubble.Update.CrashSafety
import PlumosBubble.Update.Installation

/-! What a run of `apply_runtime` that returns has installed: at every declared path the
node the manifest describes, nothing at the deleted paths, and everything else as it was.
A payload in which one declared path lies below another is never installed, whatever its
links were staged as. -/

namespace PlumosBubble.Update

open Crash FileSystem

def Manifest.entries (manifest : Manifest) : List FileEntry := manifest.files.getD []

/-- The paths of the operations. -/
def Manifest.paths (manifest : Manifest) : List Text :=
  manifest.entries.map (·.path) ++ manifest.delete

/-- A link of the package leads to `r`. -/
def Manifest.Linked (manifest : Manifest) (r : Text) : Prop :=
  ∃ entry ∈ manifest.entries, entry.type = .symlink ∧ Nested entry.path r

/-- `u` is `t` with the package installed. -/
structure InstalledAs (env : Env) (manifest : Manifest) (t u : UpdateTree) : Prop where
  files : ∀ entry ∈ manifest.entries,
    ∃ v, u.lstat (env.target entry.path) = some v ∧ Declared env entry v
  deleted : ∀ r ∈ manifest.delete, ¬ manifest.Linked r →
    u.isFile (env.target r) = false ∧ u.isSymlink (env.target r) = false
  other : ∀ q, env.root <+: q → ¬ env.Excepted q → (∀ r ∈ manifest.paths, q ≠ env.target r) →
    u.node q = t.node q ∨ t.node q = none ∧ u.node q = some .dir ∧
      ((∃ entry ∈ manifest.entries, q <+: env.target entry.path) ∨ q <+: env.stagingRoot)

section Signed

variable {env : Env} {manifest : Manifest} {archiveNames : List Text} {files : List FileEntry}
  {packageSha256 : Text} {t pre s c u : UpdateTree} {tx : Transaction}

theorem wp_finishRuntime_live (hv : Comparable tx.version)
    (hstaging : tx.staging = env.staging tx.version) (h : OwnDirs env c) :
    wp (finishRuntime env tx)
      (fun _ u => ∀ q, ¬ env.stateRoot <+: q → ¬ env.staging tx.version <+: q → u.node q = c.node q)
      (fun _ _ => True) (fun _ => True) c := by
  rw [finishRuntime, wp_bind]
  refine wp_mono (wp_atomicJson h (by decide : Visible "runtime-transaction.json") _) ?_
    (fun _ _ _ => trivial) (fun _ _ => trivial)
  intro _ d hd
  rw [wp_bind]
  refine wp_mono (wp_atomicJson hd.dirs (by decide : Visible "runtime-pending.json") _) ?_
    (fun _ _ _ => trivial) (fun _ _ => trivial)
  intro _ e he
  rw [wp_bind]
  refine wp_mono (wp_unlinkState he.dirs (by decide : Visible "request.json")) ?_
    (fun _ _ _ => trivial) (fun _ _ => trivial)
  intro _ f hf
  have hlink : NoLinkAbove f (env.staging tx.version) := by
    apply OpenWay.noLinkAbove
    rw [staging_eq hv, List.dropLast_concat]
    exact hf.dirs.staging
  rw [hstaging, os, wp_mapError]
  refine wp_mono (wp_removePath env.order (clean_staging env.toSite hv) hlink (by simp [staging_eq hv]))
    ?_ (fun _ _ _ => trivial) (fun _ _ => trivial)
  intro _ u hu q h1 h2
  rw [hu, if_neg h2, hf.outside h1, he.outside h1, hd.outside h1]

theorem PlannedTransaction.ready
    (h : PlannedTransaction env.toSite manifest files packageSha256 t pre tx)
    (hm : Validated manifest archiveNames files) (hv : Comparable tx.version)
    (hx : Extracted env tx.version files t pre)
    (hlinks : ∀ op ∈ tx.operations, NoLinkAbove pre (env.target op.path))
    (hs : Wrote env.toSite "runtime-transaction.json" (.journal (tx.journal .applying)) pre s) :
    Ready env.toSite tx.staging tx.operations s := by
  have P := h.planned hm hlinks
  have hlive : ∀ op ∈ tx.operations, ∀ q, q <+: env.target op.path → s.node q = pre.node q :=
    fun op hop q hq => hs.outside fun hp =>
      Site.not_own_of_target (P.admitted op hop) List.prefix_rfl hq (Site.own_of_stateRoot hp)
  have hbackups : ∀ q, env.backupRoot <+: q → s.node q = pre.node q := by
    refine fun q hq => hs.outside fun hp => ?_
    cases List.prefix_or_prefix_of_prefix hp hq with
    | inl h => simp [Site.stateRoot, Site.backupRoot, Site.backups] at h
    | inr h => simp [Site.stateRoot, Site.backupRoot, Site.backups] at h
  have hstaging : ∀ q, env.staging tx.version <+: q → s.node q = pre.node q := fun q hq =>
    hs.outside fun hp => not_staging_private hv hq (Or.inl hp)
  refine ⟨⟨P.admitted, fun op hop => ?_, fun op hop => ?_, fun op hop q hq hne => ?_⟩, h.ordered hm,
    h.distinct_both hm, ⟨_, hv, h.staging⟩, ?_, ?_, ?_, fun q hq hne => ?_⟩
  · rw [hlive op hop _ List.prefix_rfl]
    exact P.existed op hop
  · rw [hlive op hop _ List.prefix_rfl]
    exact P.replaceable op hop
  · rw [hlive op hop q hq]
    exact P.linkFree op hop q hq hne
  · rw [h.staging, hstaging _ List.prefix_rfl]
    exact hx.dir
  · intro q target hq hl
    rw [h.staging] at hq
    rw [hstaging q hq] at hl
    exact hx.stay q target hq hl
  · rw [hbackups _ List.prefix_rfl]
    exact h.backupRoot
  · rw [hbackups q hq]
    exact h.noBackups q hq hne

theorem PlannedTransaction.operation
    (h : PlannedTransaction env.toSite manifest files packageSha256 t pre tx) {r : Text × Bool}
    (hr : r ∈ manifestOperations files manifest.delete) :
    ∃ op ∈ tx.operations, op.path = r.1 ∧ op.installRequested = r.2 := by
  obtain ⟨op, hop, hn⟩ := exists_of_mem_forall₂ h.operations.flip hr
  exact ⟨op, hop, hn.path, hn.installs⟩

/-- What the loop has installed, read off once `finish_runtime` is done. -/
theorem installedAs (hm : Validated manifest archiveNames files) (hv : Comparable tx.version)
    (h : PlannedTransaction env.toSite manifest files packageSha256 t pre tx)
    (hx : Extracted env tx.version files t pre)
    (hs : Wrote env.toSite "runtime-transaction.json" (.journal (tx.journal .applying)) pre s)
    (R : Ready env.toSite tx.staging tx.operations s)
    (hc : Installing env.toSite tx.staging tx.operations s tx.operations (installs tx.operations) c)
    (hu : ∀ q, ¬ env.stateRoot <+: q → ¬ env.staging tx.version <+: q → u.node q = c.node q) :
    InstalledAs env manifest t u := by
  have P := R.planned
  have hentries : manifest.entries = files := by rw [Manifest.entries, hm.files_eq, Option.getD_some]
  have hput : ∀ o ∈ installs tx.operations, o ∈ tx.operations ∧
      ∃ entry ∈ files, o.path = entry.path := by
    intro o ho
    obtain ⟨hoo, hi⟩ := List.mem_filter.mp ho
    obtain ⟨r, hr, hn⟩ := h.noted hoo
    refine ⟨hoo, ?_⟩
    cases mem_manifestOperations.mp hr with
    | inl hr =>
      obtain ⟨entry, he, hpath⟩ := List.mem_map.mp hr.2
      exact ⟨entry, he, hn.path.trans hpath.symm⟩
    | inr hr =>
      rw [hn.installs, hr.1] at hi
      cases hi
  have hinstall : ∀ entry ∈ files, ∃ o ∈ installs tx.operations, o.path = entry.path := by
    intro entry he
    obtain ⟨o, ho, hpath, hi⟩ := h.operation (r := (entry.path, true))
      (mem_manifestOperations.mpr (Or.inl ⟨rfl, List.mem_map.mpr ⟨entry, he, rfl⟩⟩))
    exact ⟨o, List.mem_filter.mpr ⟨ho, hi⟩, hpath⟩
  have hflat : Flat files := by
    intro entry he other ho hn
    obtain ⟨a, ha, hpa⟩ := hinstall entry he
    obtain ⟨b, hb, hpb⟩ := hinstall other ho
    exact hc.top a ha ⟨b, hb, by rwa [hpa, hpb]⟩
  have hlive : ∀ op ∈ tx.operations, ∀ q, q <+: env.target op.path → u.node q = c.node q := by
    intro op hop q hq
    have hout := R.outside hop hq
    refine hu q (fun hp => ?_) (h.staging ▸ hout.1)
    exact Site.not_own_of_target (P.admitted op hop) List.prefix_rfl hq (Site.own_of_stateRoot hp)
  -- every installed path has its declared node
  have hdeclared : ∀ entry ∈ files, ∃ v, c.node (env.target entry.path) = some v ∧
      Declared env entry v := by
    intro entry he
    obtain ⟨o, ho, hpath⟩ := hinstall entry he
    obtain ⟨v, hnode, hdv⟩ := hx.declared hflat entry he
    have hsnode : s.node (env.staging tx.version ++ components entry.path) = some v := by
      rw [← hnode]
      exact hs.outside fun hp => not_staging_private hv (List.prefix_append _ _) (Or.inl hp)
    have hhere := (hc.here o ho).2
    have hsafe := (hm.entries entry he).safe
    rw [hpath, h.staging, joinPath_relative hsafe.relative] at hhere
    refine ⟨v, ?_, hdv⟩
    rw [hhere]
    exact s.lstat_of_node ((clean_staging env.toSite hv).append hsafe.clean) hsnode
  have hnotdir : ∀ o ∈ installs tx.operations, c.node (env.target o.path) ≠ some .dir := by
    intro o ho hd
    obtain ⟨-, entry, he, hpath⟩ := hput o ho
    obtain ⟨v, hnode, hdv⟩ := hdeclared entry he
    rw [hpath, hnode] at hd
    cases hd
    exact hdv
  refine ⟨fun entry he => ?_, fun r hr hlinked => ?_, fun q hroot hq hpaths => ?_⟩
  · rw [hentries] at he
    obtain ⟨v, hnode, hdv⟩ := hdeclared entry he
    obtain ⟨o, ho, hpath⟩ := hinstall entry he
    refine ⟨v, u.lstat_of_node (Site.clean_target (hm.entries entry he).safe) ?_, hdv⟩
    rw [← hpath, hlive o (hput o ho).1 _ List.prefix_rfl, hpath, hnode]
  · obtain ⟨op, hop, rfl, hi⟩ := h.operation (r := (r, false))
      (mem_manifestOperations.mpr (Or.inr ⟨rfl, hr⟩))
    have hfiles : ∀ o ∈ installs tx.operations, Nested o.path op.path →
        c.node (env.target o.path) ≠ some .dir ∧
          ∀ target, c.node (env.target o.path) ≠ some (.symlink target) := by
      intro o ho hn
      refine ⟨hnotdir o ho, fun target hl => ?_⟩
      obtain ⟨-, entry, he, hpath⟩ := hput o ho
      obtain ⟨v, hnode, hdv⟩ := hdeclared entry he
      rw [hpath, hnode] at hl
      cases hl
      exact hlinked ⟨entry, hentries ▸ he, hdv.1, hpath ▸ hn⟩
    have hlink : NoLinkAbove u (env.target op.path) := by
      intro q hq hne target hl
      rw [hlive op hop q hq] at hl
      exact hc.noLinkAbove_of_files R hop hfiles q hq hne target hl
    have hgone : u.node (env.target op.path) = none ∨ u.node (env.target op.path) = some .dir := by
      rw [hlive op hop _ List.prefix_rfl]
      by_cases hunder : Under (installs tx.operations) op.path
      · obtain ⟨o, ho, hn⟩ := hunder
        obtain ⟨hp, hne⟩ := (@nested_iff env.toSite _ _ (P.admitted o (hput o ho).1).safe
          (P.admitted op hop).safe).mp hn
        exact Or.inl (c.eq_none_of_ancestor hp hne (hnotdir o ho))
      · refine hc.gone op hop (fun hm => ?_) hunder
        have := (List.mem_filter.mp hm).2
        rw [hi] at this
        cases this
    have hboth := (u.isFile_or_isSymlink (Site.clean_target (P.admitted op hop).safe) hlink).not.mpr
      fun hn => hgone.elim hn.1 hn.2
    simpa using hboth
  · have hstate : ¬ env.stateRoot <+: q := fun hp => hq (Or.inl hp)
    have hstaging : ¬ env.staging tx.version <+: q := fun hp => hq (Or.inr (Or.inl
      ((by rw [staging_eq hv]; exact List.prefix_append _ _ : env.stagingRoot <+: _).trans hp)))
    have hbackups : ¬ env.backupRoot <+: q := fun hp => hq (Or.inr (Or.inr
      ((List.prefix_append _ _).trans hp)))
    have hpath : ∀ o ∈ tx.operations, env.target o.path ≠ q := by
      intro o ho he
      obtain ⟨r, hr, hn⟩ := h.noted ho
      refine hpaths o.path ?_ he.symm
      rw [hn.path, Manifest.paths, hentries]
      cases mem_manifestOperations.mp hr with
      | inl hr => exact List.mem_append_left _ hr.2
      | inr hr => exact List.mem_append_right _ hr.2
    have hsq : s.node q = pre.node q := hs.outside hstate
    have hpre := hx.other q hq
    rw [hu q hstate hstaging]
    by_cases hbelow : ∃ o ∈ installs tx.operations, env.target o.path <+: q
    · obtain ⟨o, ho, hp⟩ := hbelow
      have hne := hpath o (hput o ho).1
      have hsnone : s.node q = none :=
        s.eq_none_of_ancestor hp hne (P.replaceable o (hput o ho).1)
      rw [c.eq_none_of_ancestor hp hne (hnotdir o ho)]
      rw [hsq] at hsnone
      cases hpre with
      | inl hp => exact Or.inl (by rw [← hp, hsnone])
      | inr hp => exact Or.inl hp.1.symm
    · have hframe := hc.frame q (h.staging ▸ hstaging) hbackups
        (fun o ho hp => hbelow ⟨o, ho, hp⟩) hpath
      rw [hsq] at hframe
      cases hframe with
      | inl hf =>
        rw [hf]
        exact hpre.imp id fun hp => ⟨hp.1, hp.2.1, Or.inr hp.2.2⟩
      | inr hf =>
        obtain ⟨hnone, hdir, o, ho, hp⟩ := hf
        obtain ⟨-, entry, he, hoe⟩ := hput o ho
        refine Or.inr ⟨?_, hdir, Or.inl ⟨entry, hentries ▸ he, hoe ▸ hp⟩⟩
        cases hpre with
        | inl hp => rw [← hp, hnone]
        | inr hp => exact hp.1

theorem wp_applyRuntime_installs {archive : Archive} (hm : Validated manifest archiveNames files)
    (hv : ∀ version, manifest.version = some version → Comparable version) (h : OwnDirs env t)
    (hpending : t.node env.runtimePending = none)
    (hlinks : ∀ r ∈ manifest.paths, NoLinkAbove t (env.target r)) :
    wp (applyRuntime env packageSha256 archive manifest) (fun _ u => InstalledAs env manifest t u)
      (fun _ _ => True) (fun _ => True) t := by
  have hplanned : wp (planRuntime env packageSha256 archive manifest)
      (fun tx pre => PlannedTransaction env manifest files packageSha256 t pre tx)
      (fun _ c => Prepared env t c) (Prepared env t) t := wp_planRuntime hm hv h hpending
  rw [applyRuntime, wp_bind]
  refine wp_mono (wp_and hplanned (wp_planRuntime_extracted hm hv h hpending)) ?_
    (fun _ _ _ => trivial) (fun _ _ => trivial)
  rintro tx pre ⟨hplan, hx⟩
  have hcomp := hv _ hplan.version
  have hprelinks : ∀ op ∈ tx.operations, NoLinkAbove pre (env.target op.path) := by
    intro op hop q hq hne target hl
    obtain ⟨r, hr, hn⟩ := hplan.noted hop
    have hmem : op.path ∈ manifest.paths := by
      rw [hn.path, Manifest.paths, Manifest.entries, hm.files_eq, Option.getD_some]
      cases mem_manifestOperations.mp hr with
      | inl hr => exact List.mem_append_left _ hr.2
      | inr hr => exact List.mem_append_right _ hr.2
    have ha : Admitted op.path := hm.admitted _ (by
      rwa [Manifest.paths, Manifest.entries, hm.files_eq, Option.getD_some] at hmem)
    rw [hplan.prepared.live (Site.not_own_of_target ha List.prefix_rfl hq)] at hl
    exact hlinks _ hmem q hq hne target hl
  rw [commitRuntime, wp_bind]
  refine wp_mono (wp_atomicJson hplan.prepared.dirs (by decide : Visible "runtime-transaction.json") _)
    ?_ (fun _ _ _ => trivial) (fun _ _ => trivial)
  intro _ s hs
  have R := hplan.ready hm hcomp hx hprelinks hs
  rw [wp_bind, applyOperations, wp_handle]
  refine wp_mono (wp_applyLoop_installing R) ?_ ?_ (fun _ _ => trivial)
  · intro _ c hc
    rw [wp_bind]
    refine wp_mono (wp_finishRuntime_live hcomp hplan.staging (hs.dirs.congr hc.quiet)) ?_
      (fun _ _ _ => trivial) (fun _ _ => trivial)
    intro _ u hu
    rw [wp_pure]
    exact installedAs hm hcomp hplan hx hs R hc hu
  · intro exc c _
    rw [wp_bind]
    exact wp_mono (wp_true _) (fun _ _ _ => (wp_raise _).mpr trivial) (fun _ _ _ => trivial)
      (fun _ _ => trivial)

theorem wp_applyRuntime_refused {archive : Archive} {version : Text} {error : PyError}
    (hm : Validated manifest archiveNames files)
    (hv : ∀ version, manifest.version = some version → Comparable version) (h : OwnDirs env t)
    (hversion : manifest.version = some version)
    (hraise : (extractPayload env archive files (env.staging version) t).result = .error error) :
    wp (applyRuntime env packageSha256 archive manifest) (fun _ _ => False)
      (fun _ c => Prepared env t c) (fun _ => True) t := by
  rw [applyRuntime, wp_bind]
  unfold planRuntime
  rw [wp_bind, hversion, item, wp_lift_ok, wp_bind, hm.files_eq, item, wp_lift_ok, wp_bind, wp_read,
    wp_bind, hm.bytes, item, wp_lift_ok]
  dsimp only
  split_ifs
  · exact (wp_raise _).mpr (.refl h)
  · rw [wp_bind]
    exact wp_mono (wp_of_error (wp_extractPayload (hv _ hversion) hm.entries hm.managed h) hraise)
      (fun _ _ h => h.elim) (fun _ _ h => h) (fun _ _ => trivial)

end Signed

/-- What is installed is what was signed. -/
theorem installs_what_was_signed {env : Env} {file : PackageFile} {archive : Archive}
    {manifest : Manifest} {t : UpdateTree}
    (hload : loadPackage (some file) = .ok (archive, manifest))
    (hv : ∀ version, manifest.version = some version → Comparable version) (hdirs : OwnDirs env t)
    (hpending : t.node env.runtimePending = none)
    (hlinks : ∀ r ∈ manifest.paths, NoLinkAbove t (env.target r)) :
    (∀ u, Returns (applyRuntime env file.sha256 archive manifest) t 0 u →
      InstalledAs env manifest t u) ∧
    ∀ version error, manifest.version = some version →
      (extractPayload env archive manifest.entries (env.staging version) t).result = .error error →
      ∃ raised, (applyRuntime env file.sha256 archive manifest t).result = .error raised ∧
        ∀ q, ¬ env.Own q → (applyRuntime env file.sha256 archive manifest t).state.node q = t.node q := by
  obtain ⟨files, hm⟩ := loadPackage_validated hload
  have hinstalls : wp (applyRuntime env file.sha256 archive manifest)
      (fun _ u => InstalledAs env manifest t u) (fun _ _ => True) (fun _ => True) t :=
    wp_applyRuntime_installs hm hv hdirs hpending hlinks
  refine ⟨fun u hu => ?_, fun version error hversion hraise => ?_⟩
  · have h := wp_returns hinstalls hu
    exact h
  · rw [Manifest.entries, hm.files_eq, Option.getD_some] at hraise
    have hrefused : wp (applyRuntime env file.sha256 archive manifest) (fun _ _ => False)
        (fun _ c => Prepared env t c) (fun _ => True) t :=
      wp_applyRuntime_refused hm hv hdirs hversion hraise
    obtain ⟨raised, hraised, hprep⟩ := error_of_wp hrefused
    exact ⟨raised, hraised, fun q hq => hprep.live hq⟩

/-! ### A package with a link -/

/-- `lib/a` links to `new`, `lib/new/x` is installed and `lib/a/x` deleted. -/
def linkedManifest : Manifest :=
  { sampleManifest with
    payloadUncompressedBytes := some 6
    files := some [sampleEntry "lib/new/x" "new",
      { sampleEntry "lib/a" "new" with type := .symlink, target := some "new".toList }]
    delete := ["lib/a/x".toList] }

def linkedArchive : Archive where
  members := [⟨"META/manifest.json".toList, .file []⟩, ⟨"META/manifest.sig".toList, .file []⟩,
    ⟨"payload/lib/new/x".toList, .file "new".toList⟩,
    ⟨"payload/lib/a".toList, .symlink "new".toList⟩]
  manifest := some linkedManifest
  signed := true

def linkedPackage : PackageFile := ⟨"7c".toList, some linkedArchive⟩

theorem linkedPackage_loads :
    loadPackage (some linkedPackage) = .ok (linkedArchive, linkedManifest) := by
  have hload : loadArchive linkedArchive = .ok linkedManifest := by decide +kernel
  simp [loadPackage, linkedPackage, hload, Except.map]

/-- What the run leaves. -/
def linkedInstalled : UpdateTree :=
  (applyRuntime sampleEnv linkedPackage.sha256 linkedArchive linkedManifest).stateAfter sampleTree

theorem installs_what_was_signed_sample :
    InstalledAs sampleEnv linkedManifest sampleTree linkedInstalled :=
  (installs_what_was_signed linkedPackage_loads
    (fun version hv => by cases hv; exact sampleVersion_comparable) sampleTree_dirs (by decide +kernel) (by decide +kernel)).1 _ (returns_stateAfter (by decide +kernel))

/-- `lib/new`, which the package does not name, is made, and the deleted path is a file
again: the new link leads to it. -/
theorem linked_package_changes_more :
    loadPackage (some linkedPackage) = .ok (linkedArchive, linkedManifest) ∧
      (∀ r ∈ linkedManifest.paths, NoLinkAbove sampleTree (sampleEnv.target r)) ∧
      Returns (applyRuntime sampleEnv linkedPackage.sha256 linkedArchive linkedManifest) sampleTree 0
        linkedInstalled ∧
      samplePath ["storage", "plumos", "lib", "new"] ∉
        linkedManifest.paths.map (Site.target sampleEnv) ∧
      sampleTree.node (samplePath ["storage", "plumos", "lib", "new"]) = none ∧
      linkedInstalled.node (samplePath ["storage", "plumos", "lib", "new"]) = some .dir ∧
      "lib/a/x".toList ∈ linkedManifest.delete ∧
      linkedInstalled.isFile (sampleEnv.target "lib/a/x".toList) = true :=
  ⟨linkedPackage_loads, by decide +kernel, returns_stateAfter (by decide +kernel),
    by decide +kernel, by decide +kernel, by decide +kernel, by decide +kernel, by decide +kernel⟩

end PlumosBubble.Update
