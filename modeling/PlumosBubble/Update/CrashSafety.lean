import PlumosBubble.Update.Transaction

/-! A transaction that a power cut stops after its journal is written. The next recovery
that runs to its end puts every path of the journal back, however often recovery itself
was cut before. -/

namespace PlumosBubble.Update

open Crash FileSystem

section Commit

variable {env : Env} {site : Site} {manifest : Manifest} {archiveNames : List Text}
  {files : List FileEntry} {packageSha256 : Text} {t pre s c : UpdateTree} {tx : Transaction}

theorem PlannedTransaction.start
    (h : PlannedTransaction site manifest files packageSha256 t pre tx)
    (P : Planned site pre tx.operations) : Undoable site pre tx.operations pre := by
  have hbackup : ∀ op ∈ tx.operations, ∀ q, q <+: site.backup op.path →
      pre.node q = some .dir ∨ pre.node q = none := by
    intro op hop q hq
    have hp : site.backupRoot <+: site.backup op.path :=
      Site.backupRoot_prefix_backup (P.admitted op hop).safe
    cases List.prefix_or_prefix_of_prefix hq hp with
    | inl hq => exact OpenWay.of_dir h.backupRoot q hq
    | inr hq =>
      by_cases he : q = site.backupRoot
      · exact Or.inl (he ▸ h.backupRoot)
      · exact Or.inr (h.noBackups q hq he)
  refine Recoverable.start P.layout ?_ ?_
  · intro s hs
    obtain ⟨op, hop, rfl⟩ := List.mem_map.mp hs
    refine h.noBackups _ (Site.backupRoot_prefix_backup (P.admitted op hop).safe) fun he => ?_
    have hlen := congrArg List.length he
    have hpos := List.length_pos_iff.mpr (P.admitted op hop).ne_nil
    simp [Site.slot, Site.backup_eq (P.admitted op hop).safe, Site.backupFiles] at hlen
  · intro s hs q hq
    obtain ⟨op, hop, rfl⟩ := List.mem_map.mp hs
    exact hbackup op hop q (hq.trans (List.dropLast_prefix _))

/-- The state in which the loop starts. -/
structure Begun (site : Site) (pre : UpdateTree) (tx : Transaction) (s : UpdateTree) : Prop where
  planned : Planned site pre tx.operations
  comparable : Comparable tx.version
  staging : tx.staging = site.staging tx.version
  journaled : Journaled site pre (tx.journal .applying) s
  applying : Applying site pre tx tx.operations s
  noPending : s.node site.runtimePending = none

theorem PlannedTransaction.begun
    (h : PlannedTransaction site manifest files packageSha256 t pre tx)
    (hm : Validated manifest archiveNames files)
    (hv : ∀ version, manifest.version = some version → Comparable version)
    (hpending : t.node site.runtimePending = none) (hl : LinkFree site pre tx)
    (hs : Wrote site "runtime-transaction.json" (.journal (tx.journal .applying)) pre s) :
    Begun site pre tx s := by
  have P := h.planned hm hl.live
  have hcomp := hv _ h.version
  have hundo := undoable_of_outside P (h.start P) fun q hq => hs.outside hq
  have hown : ∀ q, site.stateRoot <+: q → ¬ site.backupRoot <+: q := by
    intro q h1 h2
    cases List.prefix_or_prefix_of_prefix h1 h2 with
    | inl h3 => simp [Site.stateRoot, Site.backupRoot, Site.backups] at h3
    | inr h3 => simp [Site.stateRoot, Site.backupRoot, Site.backups] at h3
  have hout : ∀ q, ¬ site.stateRoot <+: q → s.node q = pre.node q := fun q hq => hs.outside hq
  refine ⟨P, hcomp, h.staging, ⟨hs.dirs, hundo, _, hs.holds⟩, ⟨hundo, ?_, ?_, fun _ h => h,
    h.distinct hm, ?_⟩, ?_⟩
  · rw [hout _ fun hp => hown _ hp List.prefix_rfl]
    exact h.backupRoot
  · intro op hop q hq hne target hl'
    rw [hout] at hl'
    · exact hl.staged op hop q hq hne target hl'
    · intro hp
      have hs' := hp.trans hq
      rw [h.staging, staged_eq hcomp (P.admitted op hop).safe] at hs'
      simp [Site.stateRoot] at hs'
  · intro op hop hex
    have hbr : site.backupRoot <+: site.backup op.path :=
      Site.backupRoot_prefix_backup (P.admitted op hop).safe
    refine Or.inl ⟨?_, ?_⟩
    · rw [Settled, hout]
      exact fun hp => Site.not_own_target (P.admitted op hop) (Site.own_of_stateRoot hp)
    · rw [hout _ fun hp => hown _ hp hbr]
      refine h.noBackups _ hbr fun he => ?_
      have hlen := congrArg List.length he
      simp [Site.backup_eq (P.admitted op hop).safe, Site.backupFiles] at hlen
  · have hne : site.runtimePending ≠ site.journalFile := stateFile_ne (by decide)
    have hvis : Visible "runtime-pending.json" := by decide
    have := hs.other _ hne hvis.not_scratch
    exact this.trans ((h.prepared.state (q := site.runtimePending) (List.prefix_append _ _)).trans hpending)

theorem wp_applyOperations (h : Begun env pre tx s) :
    wp (applyOperations env tx)
      (fun _ c => Applying env pre tx [] c ∧ Quiet env s c)
      (fun _ c => RolledBack env pre (tx.journal .applying) c ∧ c.node env.runtimePending = none ∧
        c.node env.requestFile = s.node env.requestFile)
      (fun c => Unconfirmed env pre (tx.journal .applying) c ∧
        c.node env.requestFile = s.node env.requestFile) s := by
  have hstopped : ∀ c, Stopped env pre tx s c → Journaled env pre (tx.journal .applying) c ∧
      c.node env.requestFile = s.node env.requestFile := fun c hc =>
    ⟨h.journaled.of_quiet hc.1 hc.2, hc.2 _ (Or.inl (List.prefix_append _ _))⟩
  rw [applyOperations, wp_handle]
  refine wp_mono (wp_applyLoop h.planned h.comparable h.staging h.applying) (fun _ _ h => h) ?_ ?_
  · intro exc c hc
    obtain ⟨hj, hreq⟩ := hstopped c hc
    rw [wp_bind]
    refine wp_mono (wp_rollbackRuntime h.planned hj _) ?_ (fun _ _ h => h.elim) ?_
    · rintro - d ⟨hd, hpd, hrd⟩
      exact (wp_raise _).mpr ⟨hd, hpd, hrd.trans hreq⟩
    · intro d hd
      refine ⟨?_, hd.2.trans hreq⟩
      cases hd.1 with
      | inl hd => exact Or.inl ⟨.applying, hd.1, Or.inl rfl⟩
      | inr hd => exact hd.unconfirmed
  · intro c hc
    obtain ⟨hj, hreq⟩ := hstopped c hc
    exact ⟨Or.inl ⟨.applying, hj, Or.inl rfl⟩, hreq⟩

/-- Runs of `recover_prior_runtime` on one installation. -/
def Recoveries (site : Site) (m : UpdateProg Unit) : Prop :=
  ∃ env : Env, env.toSite = site ∧ m = recoverPriorRuntime env

/-- Away from the updater's own directories the tree is `pre`, but for directories left
behind on the way to an operation's path. -/
def Restored (site : Site) (pre : UpdateTree) (operations : List Operation) (t : UpdateTree) :
    Prop :=
  (∀ op ∈ operations, t.node (site.target op.path) = pre.node (site.target op.path)) ∧
    ∀ q, ¬ site.Own q → t.node q = pre.node q ∨
      pre.node q = none ∧ t.node q = some .dir ∧ ∃ op ∈ operations, q <+: site.target op.path

theorem RolledBack.restored {journal : Journal} (P : Planned site pre journal.operations)
    (h : RolledBack site pre journal t) : Restored site pre journal.operations t := by
  refine ⟨h.settled, fun q hq => ?_⟩
  by_cases hlive : ∃ op ∈ journal.operations, site.target op.path <+: q
  · obtain ⟨op, hop, hp⟩ := hlive
    by_cases he : site.target op.path = q
    · exact Or.inl (he ▸ h.settled op hop)
    · left
      rw [P.none_below hop hp he]
      refine t.eq_none_of_ancestor hp he ?_
      rw [h.settled op hop]
      exact P.replaceable op hop
  · have hframe := h.undoable.frame q hq fun s hs hp => by
      obtain ⟨op, hop, rfl⟩ := List.mem_map.mp hs
      exact hlive ⟨op, hop, hp⟩
    refine hframe.imp id fun hf => ⟨hf.1, hf.2.1, ?_⟩
    obtain ⟨s, hs, hp⟩ := hf.2.2
    obtain ⟨op, hop, rfl⟩ := List.mem_map.mp hs
    exact ⟨op, hop, hp⟩

/-- Recovery after a power cut in the loop and after any number of cut recoveries. -/
theorem recovery_restores {env reader : Env} {archive : Archive} {d : UpdateTree}
    (hm : validateManifest manifest archive.names = .ok ())
    (hv : ∀ version, manifest.version = some version → Comparable version)
    (hdirs : OwnDirs env t) (hpending : t.node env.runtimePending = none)
    (hplan : Returns (planRuntime env packageSha256 archive manifest) t tx pre)
    (hlinks : LinkFree env pre tx)
    (hjournal : Returns (journalWrite env (tx.journal .applying)) pre () s)
    (hcut : Cut (applyOperations env tx) s c) (hattempts : Attempts (Recoveries env) c d)
    (hreader : reader.toSite = env.toSite) :
    ∃ e, Returns (recoverPriorRuntime reader) d () e ∧ Restored env pre tx.operations e := by
  obtain ⟨files, hfiles⟩ := validateManifest_eq_ok.mp hm
  have hplanned := wp_returns (wp_planRuntime hfiles hv hdirs hpending) hplan
  have hwrote := wp_returns (wp_atomicJson hplanned.prepared.dirs (by decide) _) hjournal
  have hbegun := hplanned.begun hfiles hv hpending hlinks hwrote
  have P := hbegun.planned
  have hstart : Unconfirmed env pre (tx.journal .applying) s :=
    Or.inl ⟨.applying, hbegun.journaled, Or.inl rfl⟩
  have hc : Unconfirmed env pre (tx.journal .applying) c :=
    (cut_of_wp (wp_applyOperations hbegun) ⟨hstart, rfl⟩ hcut).1
  have hd : Unconfirmed env pre (tx.journal .applying) d := by
    refine attempts_invariant (Q := fun _ _ => True) (E := fun _ _ => True) ?_ hc hattempts
    rintro m ⟨env', henv, rfl⟩ u hu
    rw [← henv] at P hu ⊢
    exact wp_mono (wp_recoverPriorRuntime P hu) (fun _ _ _ => trivial) (fun _ _ _ => trivial)
      (fun _ h => h.1)
  rw [← hreader] at P hd
  obtain ⟨⟨⟩, e, he, hrolled, -⟩ := returns_of_wp (wp_recoverPriorRuntime P hd)
  have hrestored := hrolled.restored P
  rw [hreader] at hrestored
  exact ⟨e, he, hrestored⟩

end Commit

/-! ### A sample installation -/

def samplePath (names : List String) : Path := names.map String.toList

def sampleSite : Site where
  root := samplePath ["storage", "plumos"]
  root_clean := by decide

/-- SHA-256 of the sample's files. -/
def sampleSha256 (t : Text) : Text :=
  if t = "new".toList then
    "11507a0e2f5e69d5dfa40a62a1bd7b6ee57e6bcd85c67c9b8431b36fff21c437".toList
  else if t = "1.2.0".toList then
    "9f77034b1eb57d24f21ac7deb65c9cc99f63b72775e311f1f280ab2b6c2e06a2".toList
  else "7fbd210ebec11f65a97190ef900795c4b8da3805af3f5a1b8d1d272556b292ca".toList

/-- `lib/x` is a file. -/
def sampleTree : UpdateTree :=
  match (do
    let t ← FileSystem.Tree.empty.mkdir (samplePath ["storage"])
    let t ← t.mkdir (samplePath ["storage", "plumos"])
    let t ← t.mkdir (samplePath ["storage", "plumos", "lib"])
    let t ← t.writeFile (samplePath ["storage", "plumos", "lib", "x"]) (.text "old".toList) 0o644
    t.writeFile (samplePath ["storage", "plumos", "VERSION"]) (.text "1.0.0".toList) 0o644
    : Except Errno UpdateTree) with
  | .ok t => t
  | .error _ => FileSystem.Tree.empty

def sampleEntry (path content : String) : FileEntry where
  path := path.toList
  type := .file
  target := none
  size := some (byteSize content.toList)
  mode := some 0o644
  sha256 := some (sampleSha256 content.toList)

/-- `lib/x` is deleted and `lib/x/y` installed. -/
def sampleManifest : Manifest where
  format := some 1
  packageType := some "runtime".toList
  deviceId := some deviceId
  architecture := some architecture
  vendorRuntime := some vendorRuntime
  version := some "1.1.0".toList
  sourceVersion := some ['*']
  systemAbiMin := some ['1']
  systemAbiMax := some ['1']
  payloadUncompressedBytes := some 8
  files := some [sampleEntry "lib/x/y" "new", sampleEntry "VERSION" "1.1.0"]
  delete := ["lib/x".toList]

def sampleArchive : Archive where
  members := [⟨"META/manifest.json".toList, .file []⟩, ⟨"META/manifest.sig".toList, .file []⟩,
    ⟨"payload/lib/x/y".toList, .file "new".toList⟩, ⟨"payload/VERSION".toList, .file "1.1.0".toList⟩]
  manifest := some sampleManifest
  signed := true

def samplePackage : PackageFile := ⟨"5a".toList, some sampleArchive⟩

def sampleName : Text := "/storage/user/updates/plumos-bubble-runtime-1.1.0.tar.gz".toList

def sampleEnv : Env where
  toSite := sampleSite
  pid := "7".toList
  order := .deepestFirst Content
  sha256 := sampleSha256
  dumps _ := "\x7b\x7d".toList
  free := 100000000
  package name := if name = sampleName then some samplePackage else none
  underInbox name := name = sampleName
  allowExternal := false
  systemAbi := "1".toList

def samplePlan : Outcome UpdateTree PyError Transaction :=
  planRuntime sampleEnv samplePackage.sha256 sampleArchive sampleManifest sampleTree

def sampleTransaction : Transaction :=
  match samplePlan.result with
  | .ok tx => tx
  | .error _ => ⟨[], [], [], []⟩

/-- The journal is written. -/
def sampleBegun : UpdateTree :=
  (journalWrite sampleEnv (sampleTransaction.journal .applying) samplePlan.state).state

/-- `lib/x` and `lib/x/y` are moved, `VERSION` is not. -/
def sampleCut : UpdateTree := (applyOperations sampleEnv sampleTransaction).cutAfter 3 sampleBegun

/-- A first recovery is cut as well. -/
def sampleRecoveryCut : UpdateTree := (recoverPriorRuntime sampleEnv).cutAfter 1 sampleCut

theorem sampleTree_dirs : OwnDirs sampleEnv sampleTree :=
  .fresh (by decide +kernel) (by decide +kernel) (by decide +kernel) (by decide +kernel)

theorem sampleVersion_comparable : Comparable "1.1.0".toList := ⟨(1, 1, 0, 1, []), rfl⟩

theorem recovery_restores_sample :
    ∃ e, Returns (recoverPriorRuntime sampleEnv) sampleRecoveryCut () e ∧
      Restored sampleEnv samplePlan.state sampleTransaction.operations e :=
  recovery_restores (by decide +kernel : validateManifest sampleManifest sampleArchive.names = .ok ())
    (fun version hv => by cases hv; exact sampleVersion_comparable) sampleTree_dirs
    (by decide +kernel) ⟨by decide +kernel, rfl⟩ ⟨by decide +kernel, by decide +kernel⟩
    ⟨by decide +kernel, rfl⟩ (cut_cutAfter _ 3 _)
    ((Attempts.none _).cut ⟨sampleEnv, rfl, rfl⟩ (cut_cutAfter _ 1 _)) rfl

end PlumosBubble.Update
