import PlumosBubble.FileSystem.Containment
import PlumosBubble.Update.Manifest
import PlumosBubble.Update.OwnFiles

/-! `apply_runtime` before its first `journal_write`: the payload is extracted below the
staging directory, whatever links it holds, the backup directory is emptied, and the
operations are written down. Nothing live changes. -/

namespace PlumosBubble.Update

open Crash FileSystem

/-- Only `updates` and `backups` differ. -/
structure Prepared (site : Site) (t c : UpdateTree) : Prop where
  dirs : OwnDirs site c
  other : ∀ q, ¬ site.updates <+: q → ¬ site.backups <+: q → c.node q = t.node q

section Staging

variable {env : Env} {site : Site} {t c : UpdateTree} {version : Text}

theorem Prepared.refl (h : OwnDirs site t) : Prepared site t t := ⟨h, fun _ _ _ => rfl⟩

theorem Prepared.trans {d : UpdateTree} (h : Prepared site t c) (h' : Prepared site c d) :
    Prepared site t d :=
  ⟨h'.dirs, fun q h1 h2 => (h'.other q h1 h2).trans (h.other q h1 h2)⟩

theorem Prepared.live (h : Prepared site t c) {q : Path} (hq : ¬ site.Own q) :
    c.node q = t.node q :=
  h.other q (fun hp => hq ⟨_, by decide, hp⟩) (fun hp => hq ⟨_, by decide, hp⟩)

theorem Prepared.state (h : Prepared site t c) {q : Path} (hq : site.stateRoot <+: q) :
    c.node q = t.node q := by
  have key : ∀ n : Name, n ≠ "update-state".toList → ¬ site.root ++ [n] <+: q := by
    intro n hn hp
    have := List.prefix_of_prefix_length_le hq hp (by simp [Site.stateRoot])
    exact hn (by simpa [Site.stateRoot, eq_comm] using this)
  exact h.other q (key _ (by decide)) (key _ (by decide))

/-- The directory one package is extracted to. -/
def stagingName (version : Text) : Name := "runtime-".toList ++ version ++ ".partial".toList

theorem stagingName_cons (version : Text) : ∃ rest, stagingName version = 'r' :: rest := ⟨_, rfl⟩

theorem stagingName_slash_free (h : Comparable version) : '/' ∉ stagingName version := by
  have h1 : '/' ∉ "runtime-".toList := by decide
  have h2 : '/' ∉ ".partial".toList := by decide
  unfold stagingName
  intro hc
  rcases List.mem_append.mp hc with hc | hc
  · exact (List.mem_append.mp hc).elim h1 h.slash_free
  · exact h2 hc

theorem staging_eq (h : Comparable version) :
    site.staging version = site.stagingRoot ++ [stagingName version] := by
  obtain ⟨rest, hrest⟩ := stagingName_cons version
  have hcomp := components_name (stagingName_slash_free h) (by simp [hrest]) (by simp [hrest])
  have hjoin : site.staging version = joinPath site.stagingRoot (stagingName version) := rfl
  rw [hjoin, joinPath_relative (by simp [isAbsolute, hrest]), hcomp]

theorem clean_staging (site : Site) (h : Comparable version) : Clean (site.staging version) := by
  rw [staging_eq h]
  obtain ⟨rest, hrest⟩ := stagingName_cons version
  exact site.clean_stagingRoot.append (by simp [Clean, hrest])

theorem not_staging_private (h : Comparable version) {q : Path} (hq : site.staging version <+: q) :
    ¬ site.Private q := by
  rw [staging_eq h] at hq
  rintro (hp | hp | hp)
  · have h1 : site.stateRoot <+: site.stagingRoot ++ [stagingName version] ∨
        site.stagingRoot ++ [stagingName version] <+: site.stateRoot :=
      List.prefix_or_prefix_of_prefix hp hq
    cases h1 with
    | inl h1 => simp [Site.stateRoot, Site.stagingRoot, Site.updates] at h1
    | inr h1 => simp [Site.stateRoot, Site.stagingRoot, Site.updates] at h1
  · exact not_prefix_child _ _ (hq.trans hp)
  · have h1 := hq.trans hp
    simp [Site.backups, Site.stagingRoot, Site.updates] at h1

theorem updates_prefix_staging (h : Comparable version) : site.updates <+: site.staging version := by
  rw [staging_eq h]
  exact (List.prefix_append _ _).trans (List.prefix_append _ _)

theorem Prepared.of_within (hv : Comparable version) (h : Prepared site t c) {d : UpdateTree}
    (hd : Within (site.staging version) c d) : Prepared site t d := by
  refine ⟨h.dirs.congr fun q hq => hd.other q fun hp => not_staging_private hv hp hq, ?_⟩
  intro q h1 h2
  rw [hd.other q fun hp => h1 ((updates_prefix_staging hv).trans hp)]
  exact h.other q h1 h2

theorem OwnDirs.madeDirs (h : OwnDirs site t) {p : Path} (hc : MadeDirs p t c)
    (hp : p <+: site.stagingRoot ∨ p <+: site.backups ∨ site.stagingRoot <+: p ∨ site.backups <+: p) :
    OwnDirs site c := by
  have hway : ∀ r, OpenWay t r → OpenWay c r := fun r hr q hq =>
    (hc q).elim (fun h => by rw [h]; exact hr q hq) fun h => Or.inl h.2.2
  refine ⟨hc.dir h.root, hway _ h.state, fun n => ?_, hway _ h.staging, hway _ h.backups⟩
  rw [hc.of_not_ancestor]
  · exact h.stateFile n
  · intro hn
    have hs : site.stateRoot <+: p := (List.prefix_append _ _).trans hn
    have key : ∀ r, site.stateRoot <+: r → (r <+: site.stagingRoot ∨ r <+: site.backups ∨
        site.stagingRoot <+: r ∨ site.backups <+: r) → False := by
      intro r h1 h2
      rcases h2 with h2 | h2 | h2 | h2
      · have := h1.trans h2
        simp [Site.stateRoot, Site.stagingRoot, Site.updates] at this
      · have := h1.trans h2
        simp [Site.stateRoot, Site.backups] at this
      · cases List.prefix_or_prefix_of_prefix h1 h2 with
        | inl h3 => simp [Site.stateRoot, Site.stagingRoot, Site.updates] at h3
        | inr h3 => simp [Site.stateRoot, Site.stagingRoot, Site.updates] at h3
      · cases List.prefix_or_prefix_of_prefix h1 h2 with
        | inl h3 => simp [Site.stateRoot, Site.backups] at h3
        | inr h3 => simp [Site.stateRoot, Site.backups] at h3
    exact key p hs hp

/-- What is missing on the way from the root to a path below `root/n` is below `root/n`. -/
theorem OwnDirs.under_of_missing (h : OwnDirs site t) {n : Name} {rest q : Path}
    (hq : q <+: site.root ++ n :: rest) (hn : t.node q = none) : site.root ++ [n] <+: q := by
  have hr : ¬ q <+: site.root := by
    intro hqr
    have hroot : t.node site.root ≠ none := by simp [h.root]
    by_cases hqe : q = site.root
    · exact hroot (hqe ▸ hn)
    · rw [t.dir_of_ancestor hqr hqe hroot] at hn
      cases hn
  refine List.prefix_of_prefix_length_le (by simp) hq ?_
  by_contra hlen
  refine hr (List.prefix_of_prefix_length_le hq (List.prefix_append _ _) ?_)
  simp at hlen
  omega

theorem wp_extractEntry {archive : Archive} {archiveNames : List Text} {entry : FileEntry}
    {dest : Path} (hdest : Clean dest) (hentry : ValidEntry archiveNames entry)
    (hmanaged : managedRuntimePath entry.path = true) (h : Within dest t c) :
    wp (extractEntry env archive dest entry) (fun _ d => Within dest t d)
      (fun _ d => Within dest t d) (Within dest t) c := by
  have htarget : joinPath dest entry.path = dest ++ components entry.path :=
    joinPath_relative hentry.safe.relative
  have hclean : Clean (dest ++ components entry.path) := hdest.append hentry.safe.clean
  have hne : components entry.path ≠ [] := Admitted.ne_nil ⟨hentry.safe, hmanaged⟩
  have hread : ∀ (e : PyError) (d : UpdateTree), Within dest t d →
      wp (Prog.raise e : UpdateProg Text) (fun _ d => Within dest t d) (fun _ d => Within dest t d)
        (Within dest t) d := fun e d hd => (wp_raise e).mpr hd
  have hsymlink : ∀ (member : Member) (d : UpdateTree), entry.type = .symlink → Within dest t d →
      wp (extractSymlink env member entry (dest ++ components entry.path))
        (fun _ d => Within dest t d) (fun _ d => Within dest t d) (Within dest t) d := by
    intro member d htype hd
    unfold extractSymlink
    split
    · rename_i linkname _
      split_ifs with hl
      · have hcon := hentry.contained htype
        rw [← hl, Option.getD_some] at hcon
        rw [wp_bind, os, wp_mapError]
        refine wp_step (fun e he => ?_) (fun _ _ => hd)
        have hw := hd.symlinkTo hclean ⟨by simpa [isAbsolute] using hcon.1, hcon.2⟩ he
        exact ⟨hw, (wp_pure _).mpr hw⟩
      · exact hread _ d hd
    · exact hread _ d hd
  have hfile : ∀ (member : Member) (d : UpdateTree), Within dest t d →
      wp (extractFile env member entry (dest ++ components entry.path))
        (fun _ d => Within dest t d) (fun _ d => Within dest t d) (Within dest t) d := by
    intro member d hd
    unfold extractFile
    split
    · rename_i content _
      rw [wp_bind]
      refine wp_lift hd fun size => ?_
      split_ifs
      · rw [wp_bind, os, wp_mapError]
        refine wp_step (fun e he => ?_) (fun _ _ => hd)
        have he' := hd.writeFile hclean he
        refine ⟨he', ?_⟩
        rw [wp_bind]
        refine wp_lift he' fun mode => ?_
        rw [wp_bind, os, wp_mapError]
        refine wp_step (fun f hf => ?_) (fun _ _ => he')
        have hf' := he'.chmod hclean hf
        refine ⟨hf', ?_⟩
        rw [sha256File, wp_bind, wp_read]
        exact wp_lift hf' fun _ => hf'
      · exact hread _ d hd
    · exact hread _ d hd
  unfold extractEntry
  rw [wp_bind]
  refine wp_lift h fun member => ?_
  rw [htarget, List.dropLast_append_of_ne_nil hne, wp_bind, os, wp_mapError]
  refine wp_mono (wp_mkdirParents_within h ?_) ?_ (fun _ _ h => h) (fun _ h => h)
  · exact hdest.append (hentry.safe.clean.of_ancestor (List.dropLast_prefix _))
  intro _ d hd
  have hrest : ∀ (actual : Text) (d : UpdateTree), Within dest t d →
      wp (checkStaged entry actual) (fun _ d => Within dest t d) (fun _ d => Within dest t d)
        (Within dest t) d := by
    intro actual d hd
    rw [checkStaged, wp_bind]
    refine wp_lift hd fun expected => ?_
    split_ifs
    · exact (wp_pure _).mpr hd
    · exact (wp_raise _).mpr hd
  dsimp only
  split_ifs with htype
  · rw [wp_bind]
    exact wp_mono (hsymlink member d htype hd) hrest (fun _ _ h => h) (fun _ h => h)
  · rw [wp_bind]
    exact wp_mono (hfile member d hd) hrest (fun _ _ h => h) (fun _ h => h)

theorem wp_emptyStaging (hv : Comparable version) (h : OwnDirs env t) :
    wp (do
        os (removePath env.order (env.staging version))
        os (mkdirParents (env.staging version)))
      (fun _ d => Prepared env t d ∧ d.node (env.staging version) = some .dir ∧
        (∀ q, env.staging version <+: q → q ≠ env.staging version → d.node q = none) ∧
        ∀ q, ¬ env.staging version <+: q → d.node q = t.node q ∨
          t.node q = none ∧ d.node q = some .dir ∧ q <+: env.stagingRoot)
      (fun _ _ => False) (Prepared env t) t := by
  have hclean := clean_staging env hv
  have hroot : OpenWay t env.stagingRoot := h.staging
  have hdrop : (env.staging version).dropLast = env.stagingRoot := by simp [staging_eq hv]
  have hlink : NoLinkAbove t (env.staging version) := OpenWay.noLinkAbove (by rwa [hdrop])
  have hpruned : ∀ c, Pruned (env.staging version) t c → Prepared env t c := by
    intro c hc
    have hnot : ∀ q, ¬ env.staging version <+: q → c.node q = t.node q := fun q hq =>
      (hc q).resolve_right fun hp => hq hp.1
    exact ⟨h.congr fun q hq => hnot q fun hp => not_staging_private hv hp hq,
      fun q h1 _ => hnot q fun hp => h1 ((updates_prefix_staging hv).trans hp)⟩
  rw [wp_bind, os, wp_mapError]
  refine wp_mono (wp_removePath env.order hclean hlink (by simp [staging_eq hv])) ?_
    (fun _ _ h => h.elim) hpruned
  intro _ c hc
  have hprep := hpruned c hc.pruned
  have hway : OpenWay c (env.staging version) := by
    intro q hq
    by_cases he : q = env.staging version
    · exact Or.inr (by rw [he, hc, if_pos List.prefix_rfl])
    · exact hprep.dirs.staging q (hdrop ▸ prefix_dropLast hq he)
  have hmade : ∀ d, MadeDirs (env.staging version) c d → Prepared env t d := by
    intro d hd
    refine hprep.trans ⟨hprep.dirs.madeDirs hd ?_, fun q h1 _ => ?_⟩
    · exact Or.inr (Or.inr (Or.inl (by rw [staging_eq hv]; exact List.prefix_append _ _)))
    · cases hd q with
      | inl h => exact h
      | inr hn =>
        have hq : q <+: env.root ++ "updates".toList :: ["staging".toList, stagingName version] := by
          simpa [staging_eq hv, Site.stagingRoot, Site.updates] using hn.1
        exact absurd (hprep.dirs.under_of_missing hq hn.2.1) h1
  rw [os, wp_mapError]
  refine wp_mono (wp_mkdirParents hclean hway) ?_ (fun _ _ h => h.elim) hmade
  rintro - d ⟨hdir, hd⟩
  refine ⟨hmade d hd, hdir, fun q hq hne => ?_, fun q hq => ?_⟩
  · rw [hd.of_not_ancestor fun hp => hne (hp.eq_of_length_le hq.length_le), hc, if_pos hq]
  · have hcq : c.node q = t.node q := by rw [hc, if_neg hq]
    cases hd q with
    | inl hdq => exact Or.inl (hdq.trans hcq)
    | inr hdq =>
      refine Or.inr ⟨hcq.symm.trans hdq.2.1, hdq.2.2, hdrop ▸ prefix_dropLast hdq.1 ?_⟩
      rintro rfl
      exact hq List.prefix_rfl

theorem within_of_empty {d : UpdateTree} (hdir : d.node (site.staging version) = some .dir)
    (hempty : ∀ q, site.staging version <+: q → q ≠ site.staging version → d.node q = none) :
    Within (site.staging version) d d := by
  refine ⟨hdir, fun q target hq hl => ?_, fun _ _ => rfl⟩
  by_cases he : q = site.staging version
  · rw [he, hdir] at hl
    cases hl
  · rw [hempty q hq he] at hl
    cases hl

theorem extractPayload_eq (archive : Archive) (files : List FileEntry) (destination : Path) :
    extractPayload env archive files destination = (do
      (do
        os (removePath env.order destination)
        os (mkdirParents destination))
      Prog.forEach (extractEntry env archive destination) files) := by
  rw [Prog.bind_assoc]
  rfl

theorem wp_extractPayload {archive : Archive} {archiveNames : List Text} {files : List FileEntry}
    (hv : Comparable version) (hentries : ∀ entry ∈ files, ValidEntry archiveNames entry)
    (hmanaged : ∀ entry ∈ files, managedRuntimePath entry.path = true) (h : OwnDirs env t) :
    wp (extractPayload env archive files (env.staging version)) (fun _ c => Prepared env t c)
      (fun _ c => Prepared env t c) (Prepared env t) t := by
  rw [extractPayload_eq, wp_bind]
  refine wp_mono (wp_emptyStaging hv h) ?_ (fun _ _ h => h.elim) (fun _ h => h)
  rintro - d ⟨hprep, hdir, hempty, -⟩
  refine wp_mono (wp_forEach (fun rest e => (∀ entry ∈ rest, entry ∈ files) ∧
    Within (env.staging version) d e) (Q := fun _ => Within (env.staging version) d)
    (E := fun _ => Within (env.staging version) d) (C := Within (env.staging version) d)
    ?_ (fun _ h => h.2) files ⟨fun _ h => h, within_of_empty hdir hempty⟩)
    (fun _ e he => hprep.of_within hv he) (fun _ e he => hprep.of_within hv he)
    (fun e he => hprep.of_within hv he)
  rintro entry rest e ⟨hmem, he⟩
  have hin := hmem entry (by simp)
  exact wp_mono (wp_extractEntry (clean_staging env.toSite hv) (hentries entry hin)
    (hmanaged entry hin) he)
    (fun _ f hf => ⟨fun x hx => hmem x (by simp [hx]), hf⟩) (fun _ _ h => h) (fun _ h => h)

/-! ### The operations -/

/-- How one operation is written down on the tree `t`. -/
structure Noted (site : Site) (t : UpdateTree) (request : Text × Bool) (op : Operation) : Prop where
  path : op.path = request.1
  safe : Safe op.path
  installs : op.installRequested = request.2
  existed : op.existed = (t.exists (site.target op.path) || t.isSymlink (site.target op.path))
  replaceable : op.existed = true →
    (t.isFile (site.target op.path) || t.isSymlink (site.target op.path)) = true

theorem wp_journalOperations {C : UpdateTree → Prop} (requests : List (Text × Bool)) :
    wp (journalOperations env requests)
      (fun operations c => c = t ∧ List.Forall₂ (Noted env t) requests operations)
      (fun _ c => c = t) C t := by
  induction requests with
  | nil => simp [journalOperations]
  | cons request rest ih =>
    rw [journalOperations, wp_bind, journalOperation, wp_bind]
    cases hs : safeRelative request.1 with
    | error e => exact (wp_lift_error e).mpr rfl
    | ok relative =>
      obtain ⟨hrel, hsafe⟩ := Safe.of_ok hs
      rw [wp_lift_ok]
      dsimp only
      rw [wp_bind, wp_read, wp_bind, wp_read]
      split_ifs with hbad
      · exact (wp_raise _).mpr rfl
      · rw [wp_pure, wp_bind]
        refine wp_mono ih ?_ (fun _ _ h => h) (fun _ h => h)
        rintro operations c ⟨rfl, hall⟩
        rw [wp_pure]
        refine ⟨rfl, List.Forall₂.cons ⟨hrel, hrel ▸ hsafe, rfl, rfl, fun hex => ?_⟩ hall⟩
        dsimp only at hex ⊢
        by_contra hc
        exact hbad (by rw [hex, Bool.eq_false_of_not_eq_true hc]; rfl)

/-- What `apply_runtime` has fixed at the first `journal_write`. -/
structure PlannedTransaction (site : Site) (manifest : Manifest) (files : List FileEntry)
    (packageSha256 : Text) (t pre : UpdateTree) (tx : Transaction) : Prop where
  prepared : Prepared site t pre
  version : manifest.version = some tx.version
  staging : tx.staging = site.staging tx.version
  package : tx.packageSha256 = packageSha256
  operations : List.Forall₂ (Noted site pre) (manifestOperations files manifest.delete) tx.operations
  backupRoot : pre.node site.backupRoot = some .dir
  noBackups : ∀ q, site.backupRoot <+: q → q ≠ site.backupRoot → pre.node q = none

theorem Prepared.no_pending (h : Prepared site t c) (hpending : t.node site.runtimePending = none) :
    c.isFile site.runtimePending = false := by
  have hpn : c.node site.runtimePending = none := by
    rw [h.state (q := site.runtimePending) (List.prefix_append _ _), hpending]
  have hfile := h.dirs.isFile "runtime-pending.json".toList (by decide)
  rw [Site.runtimePending, hfile, ← Site.runtimePending, hpn]
  rfl

theorem wp_emptyBackups (h : OwnDirs env t) :
    wp (do
        os (removePath env.order env.backupRoot)
        os (mkdirParents env.backupRoot))
      (fun _ c => Prepared env t c ∧ c.node env.backupRoot = some .dir ∧
        (∀ q, env.backupRoot <+: q → q ≠ env.backupRoot → c.node q = none) ∧
        ∀ q, ¬ env.backups <+: q → c.node q = t.node q)
      (fun _ _ => False) (Prepared env t) t := by
  have hclean := env.clean_backupRoot
  have hdrop : env.backupRoot.dropLast = env.backups := by simp [Site.backupRoot]
  have hout : ∀ c, Pruned env.backupRoot t c → ∀ q, ¬ env.backups <+: q → c.node q = t.node q :=
    fun c hc q hq => (hc q).resolve_right fun hp => hq ((List.prefix_append _ _).trans hp.1)
  have hpruned : ∀ c, Pruned env.backupRoot t c → Prepared env t c := by
    intro c hc
    refine ⟨h.congr fun q hq => (hc q).resolve_right fun hp =>
      Site.not_private_of_backupRoot hp.1 hq, fun q _ h2 => hout c hc q h2⟩
  rw [wp_bind, os, wp_mapError]
  refine wp_mono (wp_removePath env.order hclean
    (OpenWay.noLinkAbove (by rw [hdrop]; exact h.backups)) (by simp [Site.backupRoot])) ?_
    (fun _ _ h => h.elim) hpruned
  intro _ d hd
  have hprep := hpruned d hd.pruned
  have hway : OpenWay d env.backupRoot := by
    intro q hq
    by_cases he : q = env.backupRoot
    · exact Or.inr (by rw [he, hd, if_pos List.prefix_rfl])
    · exact hprep.dirs.backups q (hdrop ▸ prefix_dropLast hq he)
  have hsame : ∀ e, MadeDirs env.backupRoot d e → ∀ q, ¬ env.backups <+: q → e.node q = d.node q := by
    intro e he q h2
    cases he q with
    | inl h => exact h
    | inr hn =>
      have hq : q <+: env.root ++ "backups".toList :: ["update-previous".toList] := by
        simpa [Site.backupRoot, Site.backups] using hn.1
      exact absurd (hprep.dirs.under_of_missing hq hn.2.1) h2
  have hmade : ∀ e, MadeDirs env.backupRoot d e → Prepared env t e := fun e he =>
    hprep.trans ⟨hprep.dirs.madeDirs he (Or.inr (Or.inr (Or.inr (List.prefix_append _ _)))),
      fun q _ h2 => hsame e he q h2⟩
  rw [os, wp_mapError]
  refine wp_mono (wp_mkdirParents hclean hway) ?_ (fun _ _ h => h.elim) hmade
  rintro - e ⟨hdir, he⟩
  refine ⟨hmade e he, hdir, fun q hq hne => ?_, fun q hq => ?_⟩
  · rw [he.of_not_ancestor fun hp => hne (hp.eq_of_length_le hq.length_le), hd, if_pos hq]
  · rw [hsame e he q hq, hout d hd.pruned q hq]

theorem wp_planRuntime {packageSha256 : Text} {archive : Archive} {manifest : Manifest}
    {archiveNames : List Text} {files : List FileEntry} (hm : Validated manifest archiveNames files)
    (hv : ∀ version, manifest.version = some version → Comparable version) (h : OwnDirs env t)
    (hpending : t.node env.runtimePending = none) :
    wp (planRuntime env packageSha256 archive manifest)
      (fun tx pre => PlannedTransaction env manifest files packageSha256 t pre tx)
      (fun _ c => Prepared env t c) (Prepared env t) t := by
  unfold planRuntime
  rw [wp_bind]
  cases hver : manifest.version with
  | none => exact absurd hver hm.version
  | some version =>
    have hcomp := hv version hver
    rw [item, wp_lift_ok, wp_bind, hm.files_eq, item, wp_lift_ok, wp_bind, wp_read, wp_bind, hm.bytes,
      item, wp_lift_ok]
    dsimp only
    split_ifs
    · exact (wp_raise _).mpr (.refl h)
    · rw [wp_bind]
      refine wp_mono (wp_extractPayload hcomp hm.entries hm.managed h) ?_ (fun _ _ h => h)
        (fun _ h => h)
      intro _ c hc
      rw [wp_bind, wp_read, hc.no_pending hpending, if_neg (by simp),
        ← Prog.bind_assoc, wp_bind]
      refine wp_mono (wp_emptyBackups hc.dirs) ?_ (fun _ _ h => h.elim) (fun _ hd => hc.trans hd)
      rintro - pre ⟨hpre, hdir, hempty, -⟩
      have hprep := hc.trans hpre
      rw [wp_bind]
      refine wp_mono (wp_journalOperations (C := Prepared env t) _) ?_ ?_ (fun _ h => h)
      · rintro operations _ ⟨rfl, hall⟩
        rw [wp_pure]
        exact ⟨hprep, hver, rfl, rfl, hall, hdir, hempty⟩
      · rintro _ _ rfl
        exact hprep

end Staging

end PlumosBubble.Update
