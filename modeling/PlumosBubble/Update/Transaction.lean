import PlumosBubble.Update.Rollback
import PlumosBubble.Update.Staging

/-! The loop of `apply_runtime`. Whatever step it stops at, by an exception or a power
cut, the operations can be undone; the handler undoes them at once. -/

namespace PlumosBubble.Update

open Crash FileSystem

/-- No operation's path is reached through a link, in the live tree or in the payload. -/
structure LinkFree (site : Site) (pre : UpdateTree) (tx : Transaction) : Prop where
  live : ∀ op ∈ tx.operations, NoLinkAbove pre (site.target op.path)
  staged : ∀ op ∈ tx.operations, NoLinkAbove pre (joinPath tx.staging op.path)

theorem exists_of_mem_forall₂ {α β : Type} {R : α → β → Prop} {as : List α} {bs : List β}
    (h : List.Forall₂ R as bs) {b : β} (hb : b ∈ bs) : ∃ a ∈ as, R a b := by
  induction h with
  | nil => simp at hb
  | cons hr _ ih =>
    cases List.mem_cons.mp hb with
    | inl hb => exact ⟨_, List.mem_cons_self, hb ▸ hr⟩
    | inr hb =>
      obtain ⟨a, ha, hr⟩ := ih hb
      exact ⟨a, List.mem_cons_of_mem _ ha, hr⟩

theorem pairwise_of_forall₂ {α β : Type} {R : α → β → Prop} {P : α → α → Prop} {Q : β → β → Prop}
    {as : List α} {bs : List β} (h : List.Forall₂ R as bs)
    (hPQ : ∀ a b a' b', R a b → R a' b' → P a a' → Q b b') (hp : as.Pairwise P) : bs.Pairwise Q := by
  induction h with
  | nil => exact .nil
  | cons hr hrest ih =>
    obtain ⟨hhead, htail⟩ := List.pairwise_cons.mp hp
    refine List.pairwise_cons.mpr ⟨fun b hb => ?_, ih htail⟩
    obtain ⟨a, ha, hab⟩ := exists_of_mem_forall₂ hrest hb
    exact hPQ _ _ _ _ hr hab (hhead a ha)

section Plan

variable {env : Env} {site : Site} {manifest : Manifest} {archiveNames : List Text} {files : List FileEntry}
  {packageSha256 : Text} {t pre : UpdateTree} {tx : Transaction}

theorem PlannedTransaction.noted
    (h : PlannedTransaction site manifest files packageSha256 t pre tx) {op : Operation}
    (hop : op ∈ tx.operations) :
    ∃ request ∈ manifestOperations files manifest.delete, Noted site pre request op :=
  exists_of_mem_forall₂ h.operations hop

theorem PlannedTransaction.planned
    (h : PlannedTransaction site manifest files packageSha256 t pre tx)
    (hm : Validated manifest archiveNames files)
    (hl : ∀ op ∈ tx.operations, NoLinkAbove pre (site.target op.path)) :
    Planned site pre tx.operations := by
  have hadmitted : ∀ op ∈ tx.operations, Admitted op.path := by
    intro op hop
    obtain ⟨request, hr, hn⟩ := h.noted hop
    refine hm.admitted _ ?_
    rw [hn.path]
    cases mem_manifestOperations.mp hr with
    | inl hr => exact List.mem_append_left _ hr.2
    | inr hr => exact List.mem_append_right _ hr.2
  have hexisted : ∀ op ∈ tx.operations,
      (op.existed = true ↔ pre.node (site.target op.path) ≠ none) := by
    intro op hop
    obtain ⟨request, hr, hn⟩ := h.noted hop
    rw [hn.existed, pre.exists_or_isSymlink (Site.clean_target hn.safe) (hl op hop),
      Option.isSome_iff_ne_none]
  refine ⟨hadmitted, hexisted, fun op hop hd => ?_, hl⟩
  obtain ⟨request, hr, hn⟩ := h.noted hop
  have hex : op.existed = true := (hexisted op hop).mpr (by simp [hd])
  exact ((pre.isFile_or_isSymlink (Site.clean_target hn.safe) (hl op hop)).mp
    (hn.replaceable hex)).2 hd

theorem PlannedTransaction.distinct_both
    (h : PlannedTransaction site manifest files packageSha256 t pre tx)
    (hm : Validated manifest archiveNames files) :
    tx.operations.Pairwise fun a b =>
      a.path = b.path → a.installRequested = false ∧ b.installRequested = false := by
  refine pairwise_of_forall₂ h.operations ?_ (manifestOperations_pairwise hm)
  intro r a r' b hr hr' hp he
  rw [hr.installs, hr'.installs]
  exact hp (by rw [← hr.path, ← hr'.path, he])

theorem PlannedTransaction.distinct
    (h : PlannedTransaction site manifest files packageSha256 t pre tx)
    (hm : Validated manifest archiveNames files) :
    tx.operations.Pairwise fun a b => a.path = b.path → a.installRequested = false :=
  (h.distinct_both hm).imp fun hab he => (hab he).1

theorem PlannedTransaction.ordered
    (h : PlannedTransaction site manifest files packageSha256 t pre tx)
    (hm : Validated manifest archiveNames files) :
    tx.operations.Pairwise fun a b => ¬ Nested b.path a.path := by
  have hsorted := manifestOperations_sorted files manifest.delete
  have hadmitted : ∀ r ∈ manifestOperations files manifest.delete, Admitted r.1 := by
    intro r hr
    refine hm.admitted _ ?_
    cases mem_manifestOperations.mp hr with
    | inl hr => exact List.mem_append_left _ hr.2
    | inr hr => exact List.mem_append_right _ hr.2
  refine pairwise_of_forall₂ h.operations ?_ (List.Pairwise.and_mem.mp hsorted)
  rintro r a r' b hr hr' ⟨hmem, hmem', hp⟩ hn
  rw [hr.path, hr'.path] at hn
  exact not_sortsBefore_of_nested (hadmitted r' hmem') (hadmitted r hmem) hn hp

end Plan

/-- The loop before the operations `rest`: those that had a node are untouched, or were
deleted already under the same path. -/
structure Applying (site : Site) (pre : UpdateTree) (tx : Transaction) (rest : List Operation)
    (t : UpdateTree) : Prop where
  undoable : Undoable site pre tx.operations t
  backupRoot : t.node site.backupRoot = some .dir
  staged : ∀ op ∈ tx.operations, NoLinkAbove t (joinPath tx.staging op.path)
  mem : ∀ op ∈ rest, op ∈ tx.operations
  distinct : rest.Pairwise fun a b => a.path = b.path → a.installRequested = false
  left : ∀ op ∈ rest, op.existed = true →
    Settled site pre t op ∧ t.node (site.backup op.path) = none ∨
      t.node (site.backup op.path) = pre.node (site.target op.path) ∧
        (t.node (site.target op.path) = none ∨ t.node (site.target op.path) = some .dir)

section Apply

variable {env : Env} {site : Site} {pre t c : UpdateTree} {tx : Transaction} {op : Operation}
  {rest : List Operation} {version : Text}

/-- Making directories on the way to a backup keeps the loop's invariant. -/
theorem Applying.madeBackupDirs (P : Planned site pre tx.operations)
    (h : Applying site pre tx (op :: rest) t) (hex : op.existed = true)
    (hc : MadeDirs (site.backup op.path).dropLast t c) :
    Applying site pre tx (op :: rest) c ∧ Quiet site t c := by
  have hop := h.mem op (by simp)
  have ha := P.admitted op hop
  have L := P.layout
  have hs := slot_mem site hop
  have hnode := (P.existed op hop).mp hex
  -- what is made is below the backup directory
  have hbelow : ∀ q, q <+: (site.backup op.path).dropLast → t.node q = none → site.backupRoot <+: q := by
    intro q hq hn
    have hroot : t.node site.backupRoot ≠ none := by simp [h.backupRoot]
    have hq' := hq.trans (List.dropLast_prefix _)
    cases List.prefix_or_prefix_of_prefix hq' (Site.backupRoot_prefix_backup ha.safe) with
    | inr hp => exact hp
    | inl hp =>
      by_cases he : q = site.backupRoot
      · exact absurd (he ▸ hn) hroot
      · rw [t.dir_of_ancestor hp he hroot] at hn
        cases hn
  have hsame : ∀ q, ¬ site.backupRoot <+: q → c.node q = t.node q := fun q hq =>
    (hc q).resolve_right fun hm => hq (hbelow q hm.1 hm.2.1)
  have hown : ∀ q, site.backupRoot <+: q → site.Own q := fun q hq =>
    ⟨_, by decide, (List.prefix_append site.backups _).trans hq⟩
  have hlive : ∀ o ∈ tx.operations, c.node (site.target o.path) = t.node (site.target o.path) :=
    fun o ho => hsame _ fun hp => Site.not_own_target (P.admitted o ho) (hown _ hp)
  refine ⟨⟨h.undoable.madeSavedDirs L hs hnode (fun q hq hn => hown q (hbelow q hq hn)) hc,
    hc.dir h.backupRoot, ?_, h.mem, h.distinct, ?_⟩, fun q hq => hsame q fun hp =>
      Site.not_private_of_backupRoot hp hq⟩
  · intro o ho q hq hne target hl
    cases hc q with
    | inl hcq => exact h.staged o ho q hq hne target (hcq ▸ hl)
    | inr hcq => simp [hcq.2.2] at hl
  · intro o ho hexo
    have hoo := h.mem o ho
    have hkeep : c.node (site.backup o.path) = t.node (site.backup o.path) :=
      hc.of_not_ancestor (L.saved_not_on_way (slot_mem site hoo) hs hnode)
    rw [Settled, hlive o hoo, hkeep]
    exact h.left o ho hexo

theorem Applying.kept (P : Planned site pre tx.operations)
    (h : Applying site pre tx (op :: rest) t) (hex : op.existed = true)
    (hr : t.rename (site.target op.path) (site.backup op.path) = .ok c) :
    Undoable site pre tx.operations c ∧ Quiet site t c ∧
      c.node (site.backup op.path) = pre.node (site.target op.path) ∧
      c.node (site.target op.path) = none ∧
      ∀ q, q ≠ site.target op.path → q ≠ site.backup op.path → c.node q = t.node q := by
  have hop := h.mem op (by simp)
  have ha := P.admitted op hop
  have L := P.layout
  have hs := slot_mem site hop
  have hnode := (P.existed op hop).mp hex
  have hne : site.backup op.path ≠ site.target op.path := L.saved_ne_live hs hs
  obtain ⟨hsrc, hcases⟩ := t.rename_cases (Site.clean_target ha.safe) (Site.clean_backup ha.safe)
    (h.undoable.noLink _ hs) (OpenWay.noLinkAbove (h.undoable.wayToSaved _ hs hnode)) hr
  obtain ⟨htype, hmoved⟩ := hcases.resolve_left fun hc => hne hc.1.symm
  cases h.left op (by simp) hex with
  | inr hdone =>
    -- the path was deleted before: nothing, or a directory, would replace a file
    cases hdone.2 with
    | inl hn => exact absurd hn hsrc
    | inr hd =>
      have := (htype (by rw [hdone.1]; exact hnode)).mpr hd
      rw [hdone.1] at this
      exact absurd this (P.replaceable op hop)
  | inl hleft =>
    have hnd : t.node (site.target op.path) ≠ some .dir := by
      rw [hleft.1]
      exact P.replaceable op hop
    have hq : ∀ q, c.node q = if q = site.backup op.path then t.node (site.target op.path)
        else if q = site.target op.path then none else t.node q := fun q => by
      rw [hmoved, t.moved_of_ne_dir hnd q (by simp [hleft.2])]
    have hsaved : c.node (site.backup op.path) = pre.node (site.target op.path) := by
      rw [hq, if_pos rfl, hleft.1]
    have hlive : c.node (site.target op.path) = none := by
      rw [hq, if_neg hne.symm, if_pos rfl]
    have hother : ∀ q, q ≠ site.target op.path → q ≠ site.backup op.path → c.node q = t.node q :=
      fun q h1 h2 => by rw [hq, if_neg h2, if_neg h1]
    refine ⟨h.undoable.relocated L hs hother (Or.inl ⟨hsaved, hlive⟩), fun q hp => ?_, hsaved, hlive,
      hother⟩
    refine hother q ?_ ?_
    · rintro rfl
      exact Site.not_target_prefix_private ha hp List.prefix_rfl
    · rintro rfl
      exact backup_not_private ha hp

theorem Applying.tail (h : Applying site pre tx (op :: rest) t) : Applying site pre tx rest t :=
  ⟨h.undoable, h.backupRoot, h.staged, fun o ho => h.mem o (by simp [ho]),
    (List.pairwise_cons.mp h.distinct).2, fun o ho => h.left o (by simp [ho])⟩

theorem staged_eq (hv : Comparable version) {r : Text} (hr : Safe r) :
    joinPath (site.staging version) r =
      site.root ++ "updates".toList :: "staging".toList :: stagingName version :: components r := by
  rw [joinPath_relative hr.relative, staging_eq hv]
  simp [Site.stagingRoot, Site.updates]

theorem own_of_staged (hv : Comparable version) {r : Text} (hr : Safe r) {q : Path}
    (hq : joinPath (site.staging version) r <+: q) : site.Own q := by
  rw [staged_eq hv hr] at hq
  exact ⟨"updates".toList, by decide, (by simp : site.root ++ ["updates".toList] <+: _).trans hq⟩

theorem staged_not_prefix_backup (hv : Comparable version) {r s : Text} (hr : Safe r)
    (hs : Safe s) : ¬ joinPath (site.staging version) r <+: site.backup s := by
  rw [staged_eq hv hr, Site.backup_eq hs]
  simp [Site.backupFiles, Site.backupRoot, Site.backups]

theorem backup_not_prefix_staged (hv : Comparable version) {r s : Text} (hr : Safe r)
    (hs : Safe s) : ¬ site.backup s <+: joinPath (site.staging version) r := by
  rw [staged_eq hv hr, Site.backup_eq hs]
  simp [Site.backupFiles, Site.backupRoot, Site.backups]

theorem Applying.next_of_kept (P : Planned site pre tx.operations) (hv : Comparable version)
    (hstaging : tx.staging = site.staging version) (h : Applying site pre tx (op :: rest) t)
    (hundo : Undoable site pre tx.operations c)
    (hsaved : c.node (site.backup op.path) = pre.node (site.target op.path))
    (hlive : c.node (site.target op.path) = none)
    (hother : ∀ q, q ≠ site.target op.path → q ≠ site.backup op.path → c.node q = t.node q) :
    Applying site pre tx rest c := by
  have hop := h.mem op (by simp)
  have ha := P.admitted op hop
  have L := P.layout
  have hroot : site.backupRoot ≠ site.target op.path ∧ site.backupRoot ≠ site.backup op.path := by
    constructor
    · intro he
      have hown : site.Own site.backupRoot := ⟨_, by decide, List.prefix_append site.backups _⟩
      exact Site.not_own_target ha (he ▸ hown)
    · intro he
      have := congrArg List.length he
      simp [Site.backup_eq ha.safe, Site.backupFiles] at this
  refine ⟨hundo, ?_, ?_, h.tail.mem, h.tail.distinct, ?_⟩
  · rw [hother _ hroot.1 hroot.2]
    exact h.backupRoot
  · intro o ho q hq hne target hl
    have hso := (P.admitted o ho).safe
    by_cases h1 : q = site.target op.path
    · rw [h1, hlive] at hl
      cases hl
    · rw [hother q h1] at hl
      · exact h.staged o ho q hq hne target hl
      · rintro rfl
        rw [hstaging] at hq
        exact backup_not_prefix_staged hv hso ha.safe hq
  · intro o ho hex
    have hoo := h.mem o (by simp [ho])
    by_cases hp : o.path = op.path
    · rw [hp]
      exact Or.inr ⟨hsaved, Or.inl hlive⟩
    · have hao := P.admitted o hoo
      have hso := hao.safe
      have h1 : site.target o.path ≠ site.target op.path := fun he => hp (Site.target_inj hso ha.safe he)
      have h2 : site.backup o.path ≠ site.backup op.path := fun he => hp (Site.backup_inj hso ha.safe he)
      rw [Settled, hother _ h1 (Site.backup_ne_target ha hao).symm,
        hother _ (Site.backup_ne_target hao ha) h2]
      exact h.left o (by simp [ho]) hex

theorem Applying.madeLiveDirs (P : Planned site pre tx.operations)
    (h : Applying site pre tx rest t) (hop : op ∈ tx.operations)
    (hc : MadeDirs (site.target op.path).dropLast t c) :
    Applying site pre tx rest c ∧ Quiet site t c := by
  have L := P.layout
  have ha := P.admitted op hop
  have hpre : (site.target op.path).dropLast <+: site.target op.path := List.dropLast_prefix _
  have hroot : t.node site.root ≠ none := by
    have hp : site.root <+: site.backupRoot := (List.prefix_append _ _).trans (List.prefix_append _ _)
    have hne : site.root ≠ site.backupRoot := by simp [Site.backupRoot, Site.backups]
    simp [t.dir_of_ancestor hp hne (by simp [h.backupRoot])]
  refine ⟨⟨h.undoable.madeLiveDirs L (slot_mem site hop) hc, hc.dir h.backupRoot, ?_, h.mem, h.distinct,
    ?_⟩, ?_⟩
  · intro o ho q hq hne target hl
    cases hc q with
    | inl hcq => exact h.staged o ho q hq hne target (hcq ▸ hl)
    | inr hcq => simp [hcq.2.2] at hl
  · intro o ho hex
    have hao := P.admitted o (h.mem o ho)
    have hkeep : c.node (site.backup o.path) = t.node (site.backup o.path) :=
      hc.of_not_ancestor fun hp => Site.not_own_of_target ha List.prefix_rfl (hp.trans hpre)
        (Site.own_backup hao.safe)
    rw [Settled, hkeep]
    cases h.left o ho hex with
    | inl hl =>
      refine Or.inl ⟨?_, hl.2⟩
      rw [hc.of_ne_none (by rw [hl.1]; exact (P.existed o (h.mem o ho)).mp hex)]
      exact hl.1
    | inr hl =>
      refine Or.inr ⟨hl.1, ?_⟩
      cases hc (site.target o.path) with
      | inl hcq => rw [hcq]; exact hl.2
      | inr hcq => exact Or.inr hcq.2.2
  · intro q hq
    cases hc q with
    | inl hcq => exact hcq
    | inr hcq =>
      have hqr := hq.root_of_target ha (hcq.1.trans hpre)
      by_cases he : q = site.root
      · exact absurd (he ▸ hcq.2.1) hroot
      · rw [t.dir_of_ancestor hqr he hroot] at hcq
        cases hcq.2.1

theorem Applying.installed (P : Planned site pre tx.operations) (hv : Comparable version)
    (hstaging : tx.staging = site.staging version) (h : Applying site pre tx rest t)
    (hop : op ∈ tx.operations) (hnew : ∀ o ∈ rest, o.path ≠ op.path)
    (hkeep : pre.node (site.target op.path) ≠ none →
      t.node (site.backup op.path) = pre.node (site.target op.path))
    (hr : t.rename (joinPath tx.staging op.path) (site.target op.path) = .ok c) :
    Applying site pre tx rest c ∧ Quiet site t c := by
  have L := P.layout
  have hs := slot_mem site hop
  have ha := P.admitted op hop
  have hown : ∀ q, joinPath tx.staging op.path <+: q → site.Own q := fun q hq =>
    own_of_staged hv ha.safe (hstaging ▸ hq)
  have hclean : Clean (joinPath tx.staging op.path) := by
    rw [hstaging, joinPath_relative ha.safe.relative]
    exact (clean_staging _ hv).append ha.safe.clean
  obtain ⟨-, hcases⟩ := t.rename_cases hclean (Site.clean_target ha.safe) (h.staged op hop)
    (h.undoable.noLink _ hs) hr
  have hmoved := (hcases.resolve_left fun hc =>
    Site.not_own_target ha (hc.1 ▸ hown _ List.prefix_rfl)).2
  have hother : ∀ q, ¬ site.target op.path <+: q → ¬ joinPath tx.staging op.path <+: q →
      c.node q = t.node q := fun q h1 h2 => by rw [hmoved, FileSystem.Tree.moved, if_neg h1, if_neg h2]
  have hnotlive : ∀ q, site.Own q → ¬ site.target op.path <+: q := fun q hq hp =>
    Site.not_own_of_target ha hp List.prefix_rfl hq
  refine ⟨⟨?_, ?_, ?_, h.mem, h.distinct, ?_⟩, ?_⟩
  · refine h.undoable.installed L hs hown ?_ hkeep ?_ hmoved
    · intro s' hs' q hq hp
      obtain ⟨o, ho, rfl⟩ := List.mem_map.mp hs'
      exact staged_not_prefix_backup hv ha.safe (P.admitted o ho).safe (hstaging ▸ hp.trans hq)
    · intro s' hs' r hp hne target
      obtain ⟨o, ho, rfl⟩ := List.mem_map.mp hs'
      have hso := (P.admitted o ho).safe
      have hlive : site.target op.path ++ r <+: site.target o.path := hp
      have hlive' : site.target op.path ++ r ≠ site.target o.path := hne
      rw [Site.target_eq ha.safe, Site.target_eq hso, List.append_assoc] at hlive hlive'
      rw [List.prefix_append_right_inj] at hlive
      refine h.staged o ho _ ?_ ?_ target
      · rw [joinPath_relative ha.safe.relative, joinPath_relative hso.relative, List.append_assoc,
          List.prefix_append_right_inj]
        exact hlive
      · rw [joinPath_relative ha.safe.relative, joinPath_relative hso.relative, List.append_assoc]
        intro he
        exact hlive' (congrArg _ (List.append_cancel_left he))
  · rw [hother, h.backupRoot]
    · exact hnotlive _ ⟨_, by decide, List.prefix_append site.backups _⟩
    · intro hp
      rw [hstaging, staged_eq hv ha.safe] at hp
      simp [Site.backupRoot, Site.backups] at hp
  · intro o ho q hq hne target hl
    by_cases h1 : site.target op.path <+: q
    · refine Site.not_own_of_target ha (h1.trans hq) List.prefix_rfl ?_
      exact own_of_staged hv (P.admitted o ho).safe (hstaging ▸ List.prefix_rfl)
    by_cases h2 : joinPath tx.staging op.path <+: q
    · rw [hmoved, FileSystem.Tree.moved, if_neg h1, if_pos h2] at hl
      cases hl
    · rw [hother q h1 h2] at hl
      exact h.staged o ho q hq hne target hl
  · intro o ho hex
    have hoo := h.mem o ho
    have hao := P.admitted o hoo
    have hnode := (P.existed o hoo).mp hex
    rw [Settled, hother _ ?_ fun hp => Site.not_own_target hao (hown _ hp),
      hother _ (hnotlive _ (Site.own_backup hao.safe)) fun hp =>
        staged_not_prefix_backup hv ha.safe hao.safe (hstaging ▸ hp)]
    · exact h.left o ho hex
    · intro hp
      have he := L.live_eq hs (show pre.node (site.slot o).live ≠ none from hnode) hp
      exact hnew o ho (Site.target_inj hao.safe ha.safe he.symm)
  · intro q hq
    refine hother q (Site.not_target_prefix_private ha hq) fun hp => ?_
    refine not_staging_private hv ?_ hq
    rw [hstaging, joinPath_relative ha.safe.relative] at hp
    exact (List.prefix_append _ _).trans hp

/-- Stopped in the loop, the operations can be undone and the state files are as before. -/
def Stopped (site : Site) (pre : UpdateTree) (tx : Transaction) (t c : UpdateTree) : Prop :=
  Undoable site pre tx.operations c ∧ Quiet site t c

theorem wp_install (P : Planned env pre tx.operations) (hv : Comparable version)
    (hstaging : tx.staging = env.staging version) (h : Applying env pre tx rest t)
    (hop : op ∈ tx.operations) (hnew : ∀ o ∈ rest, o.path ≠ op.path)
    (hkeep : pre.node (env.target op.path) ≠ none →
      t.node (env.backup op.path) = pre.node (env.target op.path)) :
    wp (do
        os (mkdirParents (env.target op.path).dropLast)
        os (Prog.step (·.rename (joinPath tx.staging op.path) (env.target op.path))))
      (fun _ c => Applying env pre tx rest c ∧ Quiet env t c)
      (fun _ c => Stopped env pre tx t c) (Stopped env pre tx t) t := by
  have ha := P.admitted op hop
  have hct : Clean (env.target op.path) := Site.clean_target ha.safe
  have hpre : (env.target op.path).dropLast <+: env.target op.path := List.dropLast_prefix _
  have hlink : NoLinkAbove t (env.target op.path) := h.undoable.noLink _ (slot_mem env hop)
  rw [wp_bind, os, wp_mapError]
  refine wp_mono (wp_mkdirParents_cases (hct.of_ancestor hpre) (hlink.of_ancestor hpre) ?_) ?_ ?_ ?_
  · exact hlink _ hpre (dropLast_ne (Site.target_ne_nil ha))
  · rintro - c ⟨-, hc⟩
    obtain ⟨hac, hqc⟩ := h.madeLiveDirs P hop hc
    have hkeepc : pre.node (env.target op.path) ≠ none →
        c.node (env.backup op.path) = pre.node (env.target op.path) := by
      intro hn
      rw [hc.of_not_ancestor, hkeep hn]
      exact fun hp => Site.not_own_of_target ha List.prefix_rfl (hp.trans hpre)
        (Site.own_backup ha.safe)
    rw [os, wp_mapError]
    refine wp_step (fun d hd => ?_) (fun _ _ => ⟨hac.undoable, hqc⟩)
    obtain ⟨had, hqd⟩ := hac.installed P hv hstaging hop hnew hkeepc hd
    exact ⟨⟨had.undoable, hqc.trans hqd⟩, had, hqc.trans hqd⟩
  · rintro e c rfl
    exact ⟨h.undoable, .refl _ _⟩
  · intro c hc
    obtain ⟨hac, hqc⟩ := h.madeLiveDirs P hop hc
    exact ⟨hac.undoable, hqc⟩

theorem wp_applyOperation (P : Planned env pre tx.operations) (hv : Comparable version)
    (hstaging : tx.staging = env.staging version) (h : Applying env pre tx (op :: rest) t) :
    wp (applyOperation env tx.staging op)
      (fun _ c => Applying env pre tx rest c ∧ Quiet env t c)
      (fun _ c => Stopped env pre tx t c) (Stopped env pre tx t) t := by
  have hop := h.mem op (by simp)
  have ha := P.admitted op hop
  have L := P.layout
  have hs := slot_mem env hop
  -- after the first half the old node is kept, if there was one
  have hsecond : ∀ c, Applying env pre tx rest c → Quiet env t c →
      (pre.node (env.target op.path) ≠ none →
        c.node (env.backup op.path) = pre.node (env.target op.path)) →
      wp (if op.installRequested then do
            os (mkdirParents (env.target op.path).dropLast)
            os (Prog.step (·.rename (joinPath tx.staging op.path) (env.target op.path)))
          else pure ())
        (fun _ c => Applying env pre tx rest c ∧ Quiet env t c)
        (fun _ c => Stopped env pre tx t c) (Stopped env pre tx t) c := by
    intro c hc hq hkeep
    split_ifs with hi
    · have hnew : ∀ o ∈ rest, o.path ≠ op.path := by
        intro o ho he
        have := (List.pairwise_cons.mp h.distinct).1 o ho he.symm
        simp [hi] at this
      exact wp_mono (wp_install P hv hstaging hc hop hnew hkeep)
        (fun _ d hd => ⟨hd.1, hq.trans hd.2⟩) (fun _ d hd => ⟨hd.1, hq.trans hd.2⟩)
        (fun d hd => ⟨hd.1, hq.trans hd.2⟩)
    · exact (wp_pure _).mpr ⟨hc, hq⟩
  unfold applyOperation
  dsimp only
  by_cases hex : op.existed = true
  · have hnode := (P.existed op hop).mp hex
    rw [if_pos hex, wp_bind, os, wp_mapError]
    refine wp_mono (wp_mkdirParents ((Site.clean_backup ha.safe).of_ancestor (List.dropLast_prefix _))
      (h.undoable.wayToSaved _ hs hnode)) ?_ (fun _ _ h => h.elim) ?_
    · rintro - c ⟨-, hc⟩
      obtain ⟨hac, hqc⟩ := h.madeBackupDirs P hex hc
      rw [wp_bind, os, wp_mapError]
      refine wp_step (fun d hd => ?_) (fun _ _ => ⟨hac.undoable, hqc⟩)
      obtain ⟨hundo, hqd, hsaved, hlive, hother⟩ := hac.kept P hex hd
      have had := hac.next_of_kept P hv hstaging hundo hsaved hlive hother
      exact ⟨⟨hundo, hqc.trans hqd⟩, hsecond d had (hqc.trans hqd) fun _ => hsaved⟩
    · intro c hc
      obtain ⟨hac, hqc⟩ := h.madeBackupDirs P hex hc
      exact ⟨hac.undoable, hqc⟩
  · rw [if_neg hex]
    exact hsecond t h.tail (.refl _ _) fun hn => absurd ((P.existed op hop).mpr hn) hex

theorem wp_applyLoop (P : Planned env pre tx.operations) (hv : Comparable version)
    (hstaging : tx.staging = env.staging version) (h : Applying env pre tx tx.operations t) :
    wp (Prog.forEach (applyOperation env tx.staging) tx.operations)
      (fun _ c => Applying env pre tx [] c ∧ Quiet env t c)
      (fun _ c => Stopped env pre tx t c) (Stopped env pre tx t) t := by
  refine wp_forEach (fun rest c => Applying env pre tx rest c ∧ Quiet env t c) ?_ (fun _ h => h)
    _ ⟨h, .refl _ _⟩
  rintro op rest c ⟨hc, hq⟩
  exact wp_mono (wp_applyOperation P hv hstaging hc) (fun _ d hd => ⟨hd.1, hq.trans hd.2⟩)
    (fun _ d hd => ⟨hd.1, hq.trans hd.2⟩) (fun d hd => ⟨hd.1, hq.trans hd.2⟩)

end Apply

end PlumosBubble.Update
