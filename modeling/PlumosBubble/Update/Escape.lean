import PlumosBubble.FileSystem.Fence
import PlumosBubble.Update.HealthGate

/-! Where the updater's calls end up. A package is extracted below its destination, whatever links
it holds. The live tree may hold links of its own: as long as these have no `..` and do not lead
out of `PLUMOS_ROOT`, no command changes anything outside, in any order and cut anywhere; a link
that climbs can be moved to where it climbs too far. -/

namespace PlumosBubble.Update

open Crash FileSystem

section Extraction

variable {env : Env} {archive : Archive} {entry : FileEntry} {archiveNames : List Text}
  {base D dest : Path} {t : UpdateTree} {gone : Prop}

theorem Contained.homebound {target : Text} (h : Contained target) : Homebound D target := by
  refine ⟨h.2, fun hhead => ?_⟩
  have hrel := h.1
  simp [isAbsolute, hhead] at hrel

theorem keeps_extractSymlink (F : Fence gone base D t) {member : Member} {path : Path}
    (hpath : Below base path) (hentry : ValidEntry archiveNames entry)
    (htype : entry.type = .symlink) :
    Keeps (Fenced gone D t) (extractSymlink env member entry path) := by
  unfold extractSymlink
  split
  · rename_i linkname _
    refine Yields.ite (fun hname => ?_) fun _ => Keeps.raise _
    have hcontained := hentry.contained htype
    rw [← hname, Option.getD_some] at hcontained
    refine Keeps.bind (Yields.mapError (Keeps.step fun c d hc hd => ?_)) fun _ => Keeps.pure _
    exact F.symlinkTo hc hpath hcontained.homebound hd
  · exact Keeps.raise _

theorem keeps_extractFile (F : Fence gone base D t) {member : Member} {path : Path}
    (hpath : Below base path) : Keeps (Fenced gone D t) (extractFile env member entry path) := by
  unfold extractFile
  split
  · refine Keeps.bind (Keeps.lift _) fun size => Yields.ite (fun _ => ?_) fun _ => Keeps.raise _
    refine Keeps.bind (Yields.mapError (Keeps.step fun c d hc hd => F.writeFile hc hpath hd))
      fun _ => Keeps.bind (Keeps.lift _) fun mode => ?_
    refine Keeps.bind (Yields.mapError (Keeps.step fun c d hc hd => F.chmod hc hpath hd))
      fun _ => ?_
    unfold sha256File
    exact Keeps.bind (Keeps.read _) fun node => Keeps.lift _
  · exact Keeps.raise _

theorem keeps_extractEntry (F : Fence gone base D t) (hdest : FileSystem.Under base dest)
    (hentry : ValidEntry archiveNames entry) (hmanaged : managedRuntimePath entry.path = true) :
    Keeps (Fenced gone D t) (extractEntry env archive dest entry) := by
  have hne : components entry.path ≠ [] := Admitted.ne_nil ⟨hentry.safe, hmanaged⟩
  have hpath : Below base (joinPath dest entry.path) := by
    rw [joinPath_relative hentry.safe.relative]
    exact hdest.below hentry.safe.clean hne
  have hcheck : ∀ actual, Keeps (Fenced gone D t) (checkStaged entry actual) := by
    intro actual
    unfold checkStaged
    refine Keeps.bind (Keeps.lift _) fun expected => ?_
    exact Yields.ite (fun _ => Keeps.pure ()) fun _ => Keeps.raise _
  unfold extractEntry
  refine Keeps.bind (Keeps.lift _) fun member => ?_
  refine Keeps.bind (Yields.mapError (F.keeps_mkdirParents hpath.dropLast)) fun _ => ?_
  split_ifs with htype
  · exact Keeps.bind (keeps_extractSymlink F hpath hentry htype) hcheck
  · exact Keeps.bind (keeps_extractFile F hpath) hcheck

theorem keeps_extractPayload (F : Fence gone base D t) (hdest : Below base dest)
    {files : List FileEntry} (hentries : ∀ entry ∈ files, ValidEntry archiveNames entry)
    (hmanaged : ∀ entry ∈ files, managedRuntimePath entry.path = true) :
    Keeps (Fenced gone D t) (extractPayload env archive files dest) := by
  unfold extractPayload
  refine Keeps.bind (Yields.mapError (F.keeps_removePath env.order hdest)) fun _ => ?_
  refine Keeps.bind (Yields.mapError (F.keeps_mkdirParents hdest.under)) fun _ => ?_
  exact Keeps.forEach fun entry hentry =>
    keeps_extractEntry F hdest.under (hentries entry hentry) (hmanaged entry hentry)

end Extraction

/-! ### The commands -/

/-- `PLUMOS_ROOT` is a directory, and each link in it has no `..` in its target, which is relative
or lies in `PLUMOS_ROOT`. -/
structure Enclosed (site : Site) (t : UpdateTree) : Prop where
  root : t.node site.root = some .dir
  links : ∀ q target, site.root <+: q → t.node q = some (.symlink target) →
    Homebound site.root target

/-- What runs of the commands make of `t`, each of them with an inbox of its own and cut anywhere
or run to its end. -/
inductive Updates (site : Site) (t : UpdateTree) : UpdateTree → Prop
  | start : Updates site t t
  | request {c d : UpdateTree} (env : Env) (henv : env.toSite = site) (path : Text)
      (h : Updates site t c) (he : Ends (request env path) c d) : Updates site t d
  | markHealthy {c d : UpdateTree} (env : Env) (henv : env.toSite = site)
      (h : Updates site t c) (he : Ends (markHealthy env) c d) : Updates site t d
  | applyPending {c d : UpdateTree} (env : Env) (henv : env.toSite = site)
      (h : Updates site t c) (he : Ends (applyPending env) c d) : Updates site t d

/-- Only `PLUMOS_ROOT` differs, and its links stay in it. The directory itself is taken away by a
rollback to a journal that names it. -/
abbrev Confined (site : Site) (t c : UpdateTree) : Prop := Fenced True site.root t c

section Paths

variable {site : Site} {relative : Text}

theorem under_own {names : Path} (h : Clean names) :
    FileSystem.Under site.root (site.root ++ names) :=
  (FileSystem.Under.refl _).append h

theorem below_target (h : Safe relative) (hne : components relative ≠ []) :
    Below site.root (site.target relative) := by
  rw [Site.target_eq h]
  exact ⟨_, hne, h.clean, rfl⟩

theorem target_of_nil (h : Safe relative) (hnil : components relative = []) :
    site.target relative = site.root := by
  rw [Site.target_eq h, hnil, List.append_nil]

theorem below_backup (h : Safe relative) : Below site.root (site.backup relative) := by
  rw [Site.backup_eq h]
  refine ⟨["backups".toList, "update-previous".toList, "files".toList] ++ components relative,
    by simp, Clean.append (by decide) h.clean, ?_⟩
  simp [Site.backupFiles, Site.backupRoot, Site.backups]

theorem below_staging {version : Text} (h : Comparable version) :
    Below site.root (site.staging version) := by
  obtain ⟨rest, hrest⟩ := stagingName_cons version
  refine ⟨["updates".toList, "staging".toList, stagingName version], by simp, ?_, ?_⟩
  · exact Clean.append (p := ["updates".toList, "staging".toList]) (by decide)
      (by simp [Clean, hrest])
  · simp [staging_eq h, Site.stagingRoot, Site.updates]

end Paths

section Commands

variable {env : Env} {t : UpdateTree}

theorem keeps_readRecord (path : Path) : Keeps (Confined env t) (loadJson path) := by
  unfold loadJson
  exact Keeps.bind (Keeps.read _) fun node => Keeps.lift _

theorem keeps_readJournal : Keeps (Confined env t) (loadJournal env) := by
  unfold loadJournal
  exact Keeps.bind (keeps_readRecord _) fun value => Keeps.lift _

/-- The operations of a transaction are on paths that `safe_relative` returned. -/
theorem yields_journalOperations (operations : List (Text × Bool)) :
    Yields (Confined env t)
      (fun ops => ∀ op ∈ ops, Safe op.path ∧ op.path ∈ operations.map Prod.fst)
      (journalOperations env operations) := by
  induction operations with
  | nil => exact Yields.pure fun op hop => absurd hop List.not_mem_nil
  | cons operation rest ih =>
    unfold journalOperations
    have hfirst : Yields (Confined env t) (fun op => Safe op.path ∧ op.path = operation.1)
        (journalOperation env operation) := by
      unfold journalOperation
      refine Yields.bind (V := fun relative => relative = operation.1 ∧ Safe relative)
        (Yields.lift fun relative hrelative => ?_) fun relative h => ?_
      · obtain ⟨rfl, hsafe⟩ := Safe.of_ok hrelative
        exact ⟨rfl, hsafe⟩
      · refine Keeps.bind (Keeps.read _) fun existed =>
          Keeps.bind (Keeps.read _) fun replaceable => ?_
        exact Yields.ite (fun _ => Yields.raise _) fun _ => Yields.pure ⟨h.2, h.1⟩
    refine Yields.bind hfirst fun first h => Yields.bind ih fun others hothers => Yields.pure ?_
    intro op hop
    rcases List.mem_cons.mp hop with rfl | hop
    · exact ⟨h.1, by simp [h.2]⟩
    · exact ⟨(hothers op hop).1, List.mem_cons_of_mem _ (hothers op hop).2⟩

variable (hroot : t.node env.root = some .dir)

include hroot

theorem root_fence : Fence True env.root env.root t := Fence.here env.root_clean hroot

theorem keeps_makeOwn {names : Path} (hnames : Clean names) :
    Keeps (Confined env t) (os (mkdirParents (env.root ++ names))) :=
  Yields.mapError ((root_fence hroot).keeps_mkdirParents (under_own hnames))

theorem keeps_removeOwn {names : Path} (hnames : Clean names) (hne : names ≠ []) :
    Keeps (Confined env t) (os (removePath env.order (env.root ++ names))) :=
  Yields.mapError ((root_fence hroot).keeps_removePath env.order ⟨names, hne, hnames, rfl⟩)

theorem keeps_unlinkOwn {names : Path} (hnames : Clean names) (hne : names ≠ []) :
    Keeps (Confined env t) (os (unlinkMissingOk (env.root ++ names))) :=
  Yields.mapError ((root_fence hroot).keeps_unlinkMissingOk ⟨names, hne, hnames, rfl⟩)

theorem keeps_atomicJson {name : String} (hname : name.toList ≠ ['.', '.']) (value : Record) :
    Keeps (Confined env t) (atomicJson env name value) := by
  refine Yields.mapError ((root_fence hroot).keeps_replaceFile (under_own (by decide)) hname ?_)
  intro htemp
  have hlength := congrArg List.length htemp
  have hnew : ".new-".toList.length = 5 := by decide
  simp only [List.cons_append, List.length_cons, List.length_append, List.length_nil, hnew]
    at hlength
  omega

theorem keeps_journalWrite (journal : Journal) :
    Keeps (Confined env t) (journalWrite env journal) :=
  keeps_atomicJson hroot (by decide) _

theorem keeps_unlinkPending : Keeps (Confined env t) (unlinkPending env) := by
  have hpending : env.runtimePending =
      env.root ++ ["update-state".toList, "runtime-pending.json".toList] := by
    simp [Site.runtimePending, Site.stateRoot]
  unfold unlinkPending
  rw [hpending]
  exact keeps_unlinkOwn hroot (by decide) (by simp)

/-- A journal may name `PLUMOS_ROOT` itself. -/
theorem keeps_removeTarget {relative : Text} (h : Safe relative) :
    Keeps (Confined env t) (os (removePath env.order (env.target relative))) := by
  by_cases hnil : components relative = []
  · rw [target_of_nil h hnil]
    exact Yields.mapError ((root_fence hroot).keeps_removePath_base hroot env.order)
  · exact Yields.mapError ((root_fence hroot).keeps_removePath env.order (below_target h hnil))

theorem keeps_makeTarget {relative : Text} (h : Safe relative) :
    Keeps (Confined env t) (os (mkdirParents (env.target relative).dropLast)) := by
  by_cases hnil : components relative = []
  · rw [target_of_nil h hnil]
    refine Yields.mapError fun c hc => ?_
    have hparent : c.node env.root.dropLast = some .dir := by
      by_cases hempty : env.root = []
      · rw [hempty]
        exact c.root_dir
      · rw [hc.other _ fun hback =>
          dropLast_ne hempty (hback.eq_of_length_le (by simp)).symm]
        exact t.parent_dir' (by simp [hroot])
    exact wp_mkdirParents_dir (env.root_clean.of_ancestor (List.dropLast_prefix _)) hparent
      ⟨hc, trivial⟩
  · exact Yields.mapError
      ((root_fence hroot).keeps_mkdirParents (below_target h hnil).dropLast)

theorem keeps_restore {relative : Text} (h : Safe relative) : Keeps (Confined env t)
    (os (Prog.step (·.rename (env.backup relative) (env.target relative)))) := by
  by_cases hnil : components relative = []
  · rw [target_of_nil h hnil]
    exact Yields.mapError (Keeps.step fun c d hc hd =>
      absurd hd (hc.rename_base (root_fence hroot) (below_backup h)))
  · exact Yields.mapError
      ((root_fence hroot).keeps_rename (below_backup h) (below_target h hnil))

theorem keeps_rollbackOperation (operation : Operation) :
    Keeps (Confined env t) (rollbackOperation env operation) := by
  unfold rollbackOperation
  refine Yields.bind (V := Safe) (Yields.lift fun relative hrelative => ?_) fun relative h => ?_
  · obtain ⟨rfl, hsafe⟩ := Safe.of_ok hrelative
    exact hsafe
  refine Keeps.bind (Keeps.read _) fun backupExists =>
    Keeps.bind (Keeps.read _) fun targetExists => ?_
  refine Yields.ite (fun _ => ?_) fun _ => Yields.ite (fun _ => keeps_removeTarget hroot h)
    fun _ => Keeps.pure ()
  have hrest := Keeps.bind (keeps_makeTarget hroot h) fun _ => keeps_restore hroot h
  split_ifs
  · exact Keeps.bind (keeps_removeTarget hroot h) fun _ => hrest
  · exact hrest

theorem keeps_rollbackRuntime (reason : Reason) :
    Keeps (Confined env t) (rollbackRuntime env reason) := by
  unfold rollbackRuntime
  refine Keeps.bind (Keeps.read _) fun journalIsFile => Yields.ite (fun _ => ?_) fun _ =>
    keeps_unlinkPending hroot
  refine Keeps.bind keeps_readJournal fun journal => ?_
  refine Keeps.bind (Keeps.forEach fun op _ => keeps_rollbackOperation hroot op) fun _ => ?_
  refine Keeps.bind (keeps_journalWrite hroot _) fun _ => ?_
  exact Keeps.bind (keeps_unlinkPending hroot) fun _ => keeps_atomicJson hroot (by decide) _

/-- What a transaction moves lies in `PLUMOS_ROOT`. -/
structure Transaction.Admitted (env : Env) (tx : Transaction) : Prop where
  staging : Below env.root tx.staging
  operations : ∀ op ∈ tx.operations, Update.Admitted op.path

theorem yields_planRuntime {packageSha256 : Text} {archive : Archive} {manifest : Manifest}
    {archiveNames : List Text} {files : List FileEntry} (hm : Validated manifest archiveNames files)
    (hv : ∀ version, manifest.version = some version → Comparable version) :
    Yields (Confined env t) (Transaction.Admitted env)
      (planRuntime env packageSha256 archive manifest) := by
  unfold planRuntime
  refine Yields.bind (V := Comparable) (Yields.lift fun version hversion => ?_)
    fun version hcomp => ?_
  · refine hv version ?_
    unfold item at hversion
    split at hversion
    · rename_i value hvalue
      cases hversion
      exact hvalue
    · cases hversion
  have hstaging := @below_staging env.toSite version hcomp
  refine Yields.bind (V := fun fs => fs = files) (Yields.lift fun fs hfs => ?_) ?_
  · rw [hm.files_eq, item] at hfs
    exact (Except.ok.inj hfs).symm
  intro fs hfs
  rw [hfs]
  refine Keeps.bind (Keeps.read _) fun backup => Keeps.bind (Keeps.lift _) fun payload => ?_
  refine Yields.ite (fun _ => Yields.raise _) fun _ => ?_
  refine Keeps.bind (keeps_extractPayload (root_fence hroot) hstaging hm.entries hm.managed)
    fun _ => Keeps.bind (Keeps.read _) fun pending => ?_
  have hbackups : env.backupRoot = env.root ++ ["backups".toList, "update-previous".toList] := by
    simp [Site.backupRoot, Site.backups]
  have hrest : Yields (Confined env t) (Transaction.Admitted env) (do
      os (removePath env.order env.backupRoot)
      os (mkdirParents env.backupRoot)
      let operations ← journalOperations env (manifestOperations files manifest.delete)
      pure ⟨env.staging version, version, packageSha256, operations⟩) := by
    rw [hbackups]
    refine Keeps.bind (keeps_removeOwn hroot (by decide) (by simp)) fun _ => ?_
    refine Keeps.bind (keeps_makeOwn hroot (by decide)) fun _ => ?_
    refine Yields.bind (yields_journalOperations _) fun operations hoperations => ?_
    refine Yields.pure ⟨hstaging, fun op hop => hm.admitted _ ?_⟩
    have hmem := (hoperations op hop).2
    unfold manifestOperations at hmem
    obtain ⟨request, hrequest, hpath⟩ := List.mem_map.mp hmem
    rw [List.mem_insertionSort] at hrequest
    rw [← hpath]
    rcases List.mem_append.mp hrequest with hrequest | hrequest
    · obtain ⟨entry, hentry, rfl⟩ := List.mem_map.mp hrequest
      exact List.mem_append_left _ (List.mem_map_of_mem hentry)
    · obtain ⟨path, hdelete, rfl⟩ := List.mem_map.mp hrequest
      exact List.mem_append_right _ hdelete
  split_ifs
  · exact Keeps.bind (keeps_rollbackRuntime hroot _) fun _ => hrest
  · exact hrest

theorem keeps_applyOperation {staging : Path} (hstaging : Below env.root staging)
    {operation : Operation} (h : Admitted operation.path) :
    Keeps (Confined env t) (applyOperation env staging operation) := by
  have F := root_fence hroot
  have htarget := @below_target env.toSite _ h.safe h.ne_nil
  have hbackup := @below_backup env.toSite _ h.safe
  have hstaged : Below env.root (joinPath staging operation.path) := by
    rw [joinPath_relative h.safe.relative]
    exact hstaging.under.below h.safe.clean h.ne_nil
  have hinstall := Keeps.bind (Yields.mapError (g := PyError.osError)
    (F.keeps_mkdirParents htarget.dropLast)) fun _ =>
      Yields.mapError (g := PyError.osError) (F.keeps_rename hstaged htarget)
  have hsave : ∀ {rest : UpdateProg Unit}, Keeps (Confined env t) rest →
      Keeps (Confined env t) (do
        os (mkdirParents (env.backup operation.path).dropLast)
        os (Prog.step (·.rename (env.target operation.path) (env.backup operation.path)))
        rest) := fun hrest =>
    Keeps.bind (Yields.mapError (F.keeps_mkdirParents hbackup.dropLast)) fun _ =>
      Keeps.bind (Yields.mapError (F.keeps_rename htarget hbackup)) fun _ => hrest
  unfold applyOperation
  dsimp only
  split_ifs
  · exact hsave hinstall
  · exact hsave (Keeps.pure ())
  · exact hinstall
  · exact Keeps.pure ()

theorem keeps_commitRuntime {tx : Transaction} (h : tx.Admitted env) :
    Keeps (Confined env t) (commitRuntime env tx) := by
  have happly : Keeps (Confined env t) (applyOperations env tx) := by
    refine Yields.handle (Keeps.forEach fun op hop =>
      keeps_applyOperation hroot h.staging (h.operations op hop)) fun e => ?_
    exact Keeps.bind (keeps_rollbackRuntime hroot _) fun _ => Keeps.raise _
  have hrequest : env.requestFile = env.root ++ ["update-state".toList, "request.json".toList] := by
    simp [Site.requestFile, Site.stateRoot]
  have hfinish : Keeps (Confined env t) (finishRuntime env tx) := by
    unfold finishRuntime
    rw [hrequest]
    refine Keeps.bind (keeps_journalWrite hroot _) fun _ => ?_
    refine Keeps.bind (keeps_atomicJson hroot (by decide) _) fun _ => ?_
    refine Keeps.bind (keeps_unlinkOwn hroot (by decide) (by simp)) fun _ => ?_
    exact Yields.mapError ((root_fence hroot).keeps_removePath env.order h.staging)
  unfold commitRuntime
  refine Keeps.bind (keeps_journalWrite hroot _) fun _ => Keeps.bind happly fun _ => ?_
  exact Keeps.bind hfinish fun _ => Keeps.pure _

theorem keeps_recoverPriorRuntime : Keeps (Confined env t) (recoverPriorRuntime env) := by
  unfold recoverPriorRuntime
  refine Keeps.bind (Keeps.read _) fun pending => Yields.ite (fun _ =>
    keeps_rollbackRuntime hroot _) fun _ => ?_
  refine Keeps.bind (Keeps.read _) fun journalIsFile => Yields.ite (fun _ => ?_) fun _ =>
    Keeps.pure ()
  refine Keeps.bind (Yields.handle (keeps_readRecord _) fun _ => Keeps.raise _) fun value => ?_
  split
  · exact Yields.ite (fun _ => keeps_rollbackRuntime hroot _) fun _ => Keeps.pure ()
  · exact Keeps.pure ()

theorem keeps_applyRequest : Keeps (Confined env t) (applyRequest env) := by
  unfold applyRequest loadRequest
  refine Keeps.bind (Keeps.bind (keeps_readRecord _) fun value => Keeps.lift _) fun request => ?_
  obtain ⟨path, sha256, packageType, version⟩ := request
  refine Yields.ite (fun _ => Keeps.raise _) fun _ => ?_
  split
  · exact Keeps.raise _
  rename_i file _
  refine Yields.ite (fun _ => Keeps.raise _) fun _ => ?_
  refine Yields.bind (V := fun loaded : Archive × Manifest =>
    ∃ files, Validated loaded.2 loaded.1.names files) (Yields.lift fun loaded hloaded => ?_) ?_
  · exact loadPackage_validated hloaded
  rintro ⟨archive, manifest⟩ ⟨files, hfiles⟩
  refine Yields.bind (V := fun compatible : Except PyError Unit => compatible = .ok () →
    ∀ v, manifest.version = some v → Comparable v) (Yields.read fun c _ hcompatible v hv => ?_) ?_
  · exact comparable_of_compatible hcompatible hv
  intro compatible hcompatible
  refine Yields.bind (V := fun _ => ∀ v, manifest.version = some v → Comparable v)
    (Yields.lift fun _ hok => hcompatible hok) fun _ hv => ?_
  refine Yields.ite (fun _ => Keeps.raise _) fun _ => ?_
  unfold applyRuntime
  exact Yields.bind (yields_planRuntime hroot hfiles hv) fun tx htx => keeps_commitRuntime hroot htx

theorem keeps_applyPending : Keeps (Confined env t) (applyPending env) := by
  have hstaging : env.stagingRoot = env.root ++ ["updates".toList, "staging".toList] := by
    simp [Site.stagingRoot, Site.updates]
  unfold applyPending
  rw [hstaging]
  refine Keeps.bind (keeps_makeOwn hroot (by decide)) fun _ => ?_
  refine Keeps.bind (keeps_recoverPriorRuntime hroot) fun _ => ?_
  refine Keeps.bind (keeps_removeOwn hroot (by decide) (by simp)) fun _ => ?_
  refine Keeps.bind (keeps_makeOwn hroot (by decide)) fun _ => ?_
  refine Keeps.bind (Keeps.read _) fun requested => ?_
  exact Yields.ite (fun _ => keeps_applyRequest hroot) fun _ => Keeps.pure _

theorem keeps_markHealthy : Keeps (Confined env t) (markHealthy env) := by
  unfold markHealthy
  refine Keeps.bind (Keeps.read _) fun pending => Yields.ite (fun _ => ?_) fun _ => Keeps.pure ()
  refine Keeps.bind (Keeps.read _) fun journalIsFile =>
    Yields.ite (fun _ => Keeps.raise _) fun _ => ?_
  refine Keeps.bind (keeps_readRecord _) fun value => Keeps.bind keeps_readJournal fun journal => ?_
  refine Keeps.bind (keeps_journalWrite hroot _) fun _ => ?_
  refine Keeps.bind (keeps_unlinkPending hroot) fun _ => ?_
  split
  · exact keeps_atomicJson hroot (by decide) _
  · exact Keeps.raise _

theorem keeps_request (path : Text) : Keeps (Confined env t) (request env path) := by
  have hinspect : Keeps (Confined env t) (inspect env path) := by
    unfold inspect
    refine Keeps.bind (Keeps.lift _) fun loaded => ?_
    obtain ⟨_, manifest⟩ := loaded
    refine Keeps.bind (Keeps.read _) fun compatible => Keeps.bind (Keeps.lift _) fun _ => ?_
    exact Keeps.bind (Keeps.lift _) fun _ => Keeps.bind (Keeps.lift _) fun _ => Keeps.pure _
  unfold request
  refine Yields.ite (fun _ => Keeps.raise _) fun _ => Keeps.bind hinspect fun value => ?_
  refine Keeps.bind (keeps_makeOwn hroot (by decide)) fun _ => ?_
  exact Keeps.bind (keeps_atomicJson hroot (by decide) _) fun _ => Keeps.pure _

end Commands

section Escape

variable {site : Site} {t c : UpdateTree}

theorem Updates.confined (hc : Updates site t c) (h : Enclosed site t) : Confined site t c := by
  induction hc with
  | start => exact ⟨Or.inl h.root, h.links, fun _ _ => rfl⟩
  | request env henv path _ he ih =>
    subst henv
    exact (keeps_request h.root path).ends ih he
  | markHealthy env henv _ he ih =>
    subst henv
    exact (keeps_markHealthy h.root).ends ih he
  | applyPending env henv _ he ih =>
    subst henv
    exact (keeps_applyPending h.root).ends ih he

/-- What the updater moves to a path, or from it, is in `PLUMOS_ROOT` before and afterwards. -/
theorem Confined.inside (hc : Confined site t c) (hroot : t.node site.root = some .dir)
    {relative : Text} (hsafe : Safe relative) {q : Path}
    (hq : c.resolve false (site.target relative) = .ok q ∨
      c.resolve false (site.backup relative) = .ok q) : site.root <+: q := by
  have F : Fence True site.root site.root t := Fence.here site.root_clean hroot
  rcases hq with hq | hq
  · by_cases hnil : components relative = []
    · rw [target_of_nil hsafe hnil] at hq
      rw [hc.resolve_base site.root_clean hroot hq]
    · exact (F.resolve hc (below_target hsafe hnil) hq).2.1
  · exact (F.resolve hc (below_backup hsafe) hq).2.1

/-- The first two calls of `extract_payload`. -/
def emptyDestination (env : Env) (destination : Path) : UpdateProg Unit := do
  os (removePath env.order destination)
  os (mkdirParents destination)

theorem empty_of_returns {env : Env} {dest : Path} {d : UpdateTree} (hclean : Clean dest)
    (h : Returns (emptyDestination env dest) t () d) : ∃ D, Empty dest D d := by
  have hempty : wp (emptyDestination env dest) (fun _ d => ∃ D, Empty dest D d) (fun _ _ => True)
      (fun _ => True) t := by
    have hboth := wp_emptied (t := t) env.order hclean
    rw [wp_bind] at hboth
    rw [emptyDestination, wp_bind, os, wp_mapError]
    refine wp_mono hboth (fun _ c hc => ?_) (fun _ _ h => h) (fun _ h => h)
    rw [os, wp_mapError]
    exact hc
  exact wp_returns hempty h

end Escape

/-! ### A sample, and a link that climbs -/

/-- Each link in `PLUMOS_ROOT` leads to a place in it, or nowhere. -/
def LinksInside (site : Site) (t : UpdateTree) : Prop :=
  ∀ p target, site.root <+: p → t.node p = some (.symlink target) →
    ∀ q, t.resolve true p = .ok q → site.root <+: q

theorem linksInside_of_support {site : Site} {t : UpdateTree}
    (h : ∀ p ∈ t.support, (match t.resolve true p with
      | .ok q => !decide (site.root <+: p) || decide (site.root <+: q)
      | .error _ => true) = true) : LinksInside site t := by
  intro p target hp hlink q hq
  have hmem := h p (t.mem_support p (by simp [hlink]))
  rw [hq] at hmem
  simpa [hp] using hmem

theorem enclosed_of_support {site : Site} {t : UpdateTree} (hroot : t.node site.root = some .dir)
    (h : ∀ p ∈ t.support, ∀ target, t.node p ≠ some (.symlink target)) : Enclosed site t :=
  ⟨hroot, fun q target _ hlink => absurd hlink (h q (t.mem_support q (by simp [hlink])) target)⟩

def sampleDestination : Path := sampleSite.staging "1.1.0".toList

def sampleEmptied : UpdateTree :=
  (emptyDestination sampleEnv sampleDestination).stateAfter sampleTree

def sampleApplied : UpdateTree := (applyPending sampleEnv).stateAfter sampleRequested

/-- Below `lib`, `t` leads to `lib` itself and `u` to `v`; far down there is a link that leads to
`user` in the root, five directories up. There is a directory `user` beside the root as well. -/
def climbingTree : UpdateTree :=
  match (do
    let t ← FileSystem.Tree.empty.mkdir (samplePath ["storage"])
    let t ← t.mkdir (samplePath ["storage", "user"])
    let t ← t.mkdir (samplePath ["storage", "plumos"])
    let t ← t.mkdir (samplePath ["storage", "plumos", "user"])
    let t ← t.mkdir (samplePath ["storage", "plumos", "lib"])
    let t ← t.mkdir (samplePath ["storage", "plumos", "lib", "a"])
    let t ← t.mkdir (samplePath ["storage", "plumos", "lib", "a", "b"])
    let t ← t.mkdir (samplePath ["storage", "plumos", "lib", "a", "b", "c"])
    let t ← t.mkdir (samplePath ["storage", "plumos", "lib", "a", "b", "c", "d"])
    let t ← t.symlinkTo (samplePath ["storage", "plumos", "lib", "a", "b", "c", "d", "u"])
      "../../../../../user".toList
    let t ← t.mkdir (samplePath ["storage", "plumos", "lib", "v"])
    let t ← t.writeFile (samplePath ["storage", "plumos", "lib", "v", "z"])
      (.text "old".toList) 0o644
    let t ← t.symlinkTo (samplePath ["storage", "plumos", "lib", "t"]) ".".toList
    let t ← t.symlinkTo (samplePath ["storage", "plumos", "lib", "u"]) "v".toList
    t.writeFile (samplePath ["storage", "plumos", "VERSION"]) (.text "1.0.0".toList) 0o644
    : Except Errno UpdateTree) with
  | .ok t => t
  | .error _ => FileSystem.Tree.empty

/-- SHA-256 of what the package holds. -/
def climbingSha256 (t : Text) : Text :=
  if t = "1.1.0".toList then
    "7fbd210ebec11f65a97190ef900795c4b8da3805af3f5a1b8d1d272556b292ca".toList
  else "69b3db0fc351a54b1f59b63568d114e3db0db94e25d1ecd2330df81da631cefc".toList

/-- `lib/t` is to lead far down, and `lib/t/u` and `lib/u/z` are deleted. -/
def climbingManifest : Manifest :=
  { sampleManifest with
    payloadUncompressedBytes := some 5
    files := some [
      { path := "lib/t".toList
        type := .symlink
        target := some "a/b/c/d".toList
        size := some 0
        mode := none
        sha256 := some (climbingSha256 "a/b/c/d".toList) },
      sampleEntry "VERSION" "1.1.0"]
    delete := ["lib/t/u".toList, "lib/u/z".toList] }

def climbingArchive : Archive where
  members := [⟨"META/manifest.json".toList, .file []⟩, ⟨"META/manifest.sig".toList, .file []⟩,
    ⟨"payload/lib/t".toList, .symlink "a/b/c/d".toList⟩,
    ⟨"payload/VERSION".toList, .file "1.1.0".toList⟩]
  manifest := some climbingManifest
  signed := true

def climbingEnv : Env :=
  { sampleEnv with
    sha256 := climbingSha256
    package := fun name =>
      if name = sampleName then some ⟨"5a".toList, some climbingArchive⟩ else none }

def climbingRequested : UpdateTree := (request climbingEnv sampleName).stateAfter climbingTree

def climbingApplied : UpdateTree := (applyPending climbingEnv).stateAfter climbingRequested

/-- The place beside the root. -/
def outsidePath : Path := samplePath ["storage", "user", "z"]

end PlumosBubble.Update
