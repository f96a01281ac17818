import PlumosBubble.FileSystem.Undo
import PlumosBubble.Update.OwnFiles

/-! `rollback_runtime` and `recover_prior_runtime` undo a transaction from whatever a
power cut left of it. The invariant is `Recoverable` over the slots of the journal's
operations: a live path and its backup. Each turn of the loop settles one operation and
unsettles none, in whatever state an earlier attempt stopped. -/

namespace PlumosBubble.Update

open Crash FileSystem

def Site.slot (site : Site) (operation : Operation) : Slot :=
  ⟨site.target operation.path, site.backup operation.path⟩

/-- What the operations of a journal say of the tree `pre` they were planned on. -/
structure Planned (site : Site) (pre : UpdateTree) (operations : List Operation) : Prop where
  admitted : ∀ op ∈ operations, Admitted op.path
  existed : ∀ op ∈ operations, op.existed = true ↔ pre.node (site.target op.path) ≠ none
  replaceable : ∀ op ∈ operations, pre.node (site.target op.path) ≠ some .dir
  linkFree : ∀ op ∈ operations, NoLinkAbove pre (site.target op.path)

/-- The operations can be undone in `t`. -/
abbrev Undoable (site : Site) (pre : UpdateTree) (operations : List Operation) (t : UpdateTree) :
    Prop :=
  Recoverable pre site.Own (operations.map site.slot) t

/-- Nothing private differs. -/
def Quiet (site : Site) (t c : UpdateTree) : Prop := ∀ q, site.Private q → c.node q = t.node q

theorem Quiet.refl (site : Site) (t : UpdateTree) : Quiet site t t := fun _ _ => rfl

theorem Quiet.trans {site : Site} {t c d : UpdateTree} (h : Quiet site t c) (h' : Quiet site c d) :
    Quiet site t d :=
  fun q hq => (h' q hq).trans (h q hq)

/-- The operation's live path is as it was planned on. -/
def Settled (site : Site) (pre : UpdateTree) (t : UpdateTree) (op : Operation) : Prop :=
  t.node (site.target op.path) = pre.node (site.target op.path)

section Operations

variable {env : Env} {site : Site} {pre t c : UpdateTree} {operations : List Operation} {op : Operation}

theorem Planned.layout (P : Planned site pre operations) :
    Layout pre site.Own (operations.map site.slot) := by
  have mem : ∀ s ∈ operations.map site.slot, ∃ op ∈ operations, site.slot op = s := by simp
  constructor
  · intro s hs
    obtain ⟨op, hop, rfl⟩ := mem s hs
    exact Site.clean_target (P.admitted op hop).safe
  · intro s hs
    obtain ⟨op, hop, rfl⟩ := mem s hs
    exact Site.clean_backup (P.admitted op hop).safe
  · intro s hs q q' hq hq'
    obtain ⟨op, hop, rfl⟩ := mem s hs
    exact Site.not_own_of_target (P.admitted op hop) hq hq'
  · intro s hs
    obtain ⟨op, hop, rfl⟩ := mem s hs
    exact Site.own_backup (P.admitted op hop).safe
  · intro s hs s' hs' q hq hp
    obtain ⟨op, hop, rfl⟩ := mem s hs
    obtain ⟨op', hop', rfl⟩ := mem s' hs'
    exact Site.not_own_of_target (P.admitted op' hop') (hp.trans hq) List.prefix_rfl
      (Site.own_backup (P.admitted op hop).safe)
  · intro s hs s' hs'
    obtain ⟨op, hop, rfl⟩ := mem s hs
    obtain ⟨op', hop', rfl⟩ := mem s' hs'
    exact Site.backup_prefix_iff (P.admitted op hop).safe (P.admitted op' hop').safe
  · intro s hs
    obtain ⟨op, hop, rfl⟩ := mem s hs
    exact P.replaceable op hop
  · intro s hs
    obtain ⟨op, hop, rfl⟩ := mem s hs
    exact P.linkFree op hop

theorem slot_mem (site : Site) (hop : op ∈ operations) : site.slot op ∈ operations.map site.slot :=
  List.mem_map.mpr ⟨op, hop, rfl⟩

theorem quiet_of_pruned (h : Admitted op.path) (hc : Pruned (site.target op.path) t c) :
    Quiet site t c :=
  fun q hq => (hc q).resolve_right fun hp => Site.not_target_prefix_private h hq hp.1

theorem backup_not_private (h : Admitted op.path) : ¬ site.Private (site.backup op.path) :=
  Site.not_private_of_backupRoot (Site.backupRoot_prefix_backup h.safe)

theorem Planned.none_below (P : Planned site pre operations) (hop : op ∈ operations) {q : Path}
    (h : site.target op.path <+: q) (hne : site.target op.path ≠ q) : pre.node q = none :=
  pre.eq_none_of_ancestor h hne (P.replaceable op hop)

/-- The end of an undoing step: the operation is settled and no other one unsettled. -/
structure Undone (site : Site) (pre : UpdateTree) (operations : List Operation) (op : Operation)
    (t c : UpdateTree) : Prop where
  undoable : Undoable site pre operations c
  quiet : Quiet site t c
  settled : Settled site pre c op
  others : ∀ op' ∈ operations, Settled site pre t op' → Settled site pre c op'

theorem settled_of_pruned (P : Planned site pre operations) (hop : op ∈ operations)
    (hc : Pruned (site.target op.path) t c) {op' : Operation} (hop' : op' ∈ operations)
    (hne : op'.path ≠ op.path) (h : Settled site pre t op') : Settled site pre c op' := by
  cases hc (site.target op'.path) with
  | inl hcq => rw [Settled, hcq, h]
  | inr hcq =>
    rw [Settled, hcq.2, P.none_below hop hcq.1 fun he =>
      hne (Site.target_inj (P.admitted op' hop').safe (P.admitted op hop).safe he.symm)]

theorem wp_restore (P : Planned env pre operations) (hop : op ∈ operations)
    (hex : pre.node (env.target op.path) ≠ none) (h : Undoable env pre operations t)
    (hfree : t.node (env.target op.path) = none)
    (hkeep : t.node (env.backup op.path) = pre.node (env.target op.path)) :
    wp (do
        os (mkdirParents (env.target op.path).dropLast)
        os (Prog.step (·.rename (env.backup op.path) (env.target op.path))))
      (fun _ c => Undone env pre operations op t c) (fun _ _ => False)
      (fun c => Undoable env pre operations c ∧ Quiet env t c) t := by
  have L := P.layout
  have hs := slot_mem env hop
  have ha := P.admitted op hop
  have hct : Clean (env.target op.path) := Site.clean_target ha.safe
  have hne : env.backup op.path ≠ env.target op.path := L.saved_ne_live hs hs
  have hpar : t.node (env.target op.path).dropLast = some .dir := h.parent_dir L hs hex
  obtain ⟨c, hc, hcq⟩ := t.rename_ok (Site.clean_backup ha.safe) hct (by rw [hkeep]; exact hex)
    (by rw [hkeep]; exact P.replaceable op hop) (by simp [hfree]) hpar hne
  rw [hkeep] at hcq
  have hlive : c.node (env.target op.path) = pre.node (env.target op.path) := by
    rw [hcq, if_pos rfl]
  have hsaved : c.node (env.backup op.path) = none := by
    rw [hcq, if_neg hne, if_pos rfl]
  have hundo : Undoable env pre operations c := by
    refine h.relocated L hs (fun q h1 h2 => ?_) (Or.inr ⟨hlive, hsaved⟩)
    exact (hcq q).trans ((if_neg h1).trans (if_neg h2))
  have hquiet : Quiet env t c := by
    intro q hp
    rw [hcq, if_neg, if_neg]
    · rintro rfl
      exact backup_not_private ha hp
    · rintro rfl
      exact Site.not_target_prefix_private ha hp List.prefix_rfl
  rw [wp_bind, os, wp_mapError]
  apply wp_mkdirParents_dir (hct.of_ancestor (List.dropLast_prefix _)) hpar
  rw [os, wp_mapError, wp_step_ok hc]
  refine ⟨⟨hundo, hquiet⟩, hundo, hquiet, hlive, fun op' hop' hst => ?_⟩
  by_cases hp : op'.path = op.path
  · rw [Settled, hp]
    exact hlive
  · rw [Settled, hcq, if_neg, if_neg]
    · exact hst
    · exact fun hc => L.saved_ne_live hs (slot_mem env hop') hc.symm
    · exact fun hc => hp (Site.target_inj (P.admitted op' hop').safe ha.safe hc)

theorem wp_rollbackOperation (P : Planned env pre operations) (hop : op ∈ operations)
    (h : Undoable env pre operations t) :
    wp (rollbackOperation env op) (fun _ c => Undone env pre operations op t c)
      (fun _ _ => False) (fun c => Undoable env pre operations c ∧ Quiet env t c) t := by
  have L := P.layout
  have hs := slot_mem env hop
  have ha := P.admitted op hop
  have hct : Clean (env.target op.path) := Site.clean_target ha.safe
  have hlt : NoLinkAbove t (env.target op.path) := h.noLink _ hs
  have hremove := wp_removePath env.order hct hlt (Site.target_ne_nil ha)
  unfold rollbackOperation
  rw [wp_bind, ha.safe, wp_lift_ok, wp_bind, wp_read, wp_bind, wp_read,
    t.exists_or_isSymlink hct hlt]
  by_cases hex : pre.node (env.target op.path) = none
  · -- the operation installed a new path: remove it
    have he : op.existed = false := by
      have := mt (P.existed op hop).mp (not_not.mpr hex)
      simpa using this
    have hkeep : ∀ {β : Prop}, pre.node (env.slot op).live ≠ none → β := fun hn => absurd hex hn
    rw [he, Bool.false_and, if_neg (by simp)]
    by_cases ht : t.node (env.target op.path) = none
    · rw [ht, if_neg (by simp), wp_pure]
      exact ⟨h, .refl _ _, by rw [Settled, ht, hex], fun _ _ hst => hst⟩
    · rw [if_pos (by simp [Option.isSome_iff_ne_none, ht]), os, wp_mapError]
      refine wp_mono hremove ?_ (fun _ _ h => h) (fun c hc => ⟨h.pruned L hs hkeep hc,
        quiet_of_pruned ha hc⟩)
      intro _ c hc
      have hgone : Settled env pre c op := by rw [Settled, hc, if_pos List.prefix_rfl, hex]
      refine ⟨h.pruned L hs hkeep hc.pruned, quiet_of_pruned ha hc.pruned, hgone, ?_⟩
      intro op' hop' hst
      by_cases hp : op'.path = op.path
      · rw [Settled, hp]
        exact hgone
      · exact settled_of_pruned P hop hc.pruned hop' hp hst
  · have he : op.existed = true := (P.existed op hop).mpr hex
    have hlb : NoLinkAbove t (env.backup op.path) :=
      OpenWay.noLinkAbove (h.wayToSaved _ hs hex)
    rw [he, Bool.true_and, t.exists_or_isSymlink (Site.clean_backup ha.safe) hlb]
    cases h.kept _ hs hex with
    | inr hk =>
      -- the old node never left, or is back
      have hkb : t.node (env.backup op.path) = none := hk.2
      rw [hkb, if_neg (by simp), if_neg (by simp), wp_pure]
      exact ⟨h, .refl _ _, hk.1, fun _ _ hst => hst⟩
    | inl hk =>
      have hkb : t.node (env.backup op.path) = pre.node (env.target op.path) := hk
      rw [if_pos (by simpa [hkb, Option.isSome_iff_ne_none] using hex)]
      by_cases ht : t.node (env.target op.path) = none
      · rw [ht]
        exact wp_restore P hop hex h ht hkb
      · dsimp only
        rw [if_pos (by simp [Option.isSome_iff_ne_none, ht]), wp_bind, os, wp_mapError]
        refine wp_mono hremove ?_ (fun _ _ h => h) (fun c hc => ⟨h.pruned L hs (fun _ => hk) hc,
          quiet_of_pruned ha hc⟩)
        intro _ d hd
        have hq := quiet_of_pruned ha hd.pruned
        have hap : ¬ env.target op.path <+: env.backup op.path :=
          L.apart _ hs _ hs _ List.prefix_rfl
        have hdb : d.node (env.backup op.path) = pre.node (env.target op.path) := by
          rw [hd, if_neg hap, hkb]
        refine wp_mono (wp_restore P hop hex (h.pruned L hs (fun _ => hk) hd.pruned)
          (by rw [hd, if_pos List.prefix_rfl]) hdb) ?_ (fun _ _ h => h)
          (fun c hc => ⟨hc.1, hq.trans hc.2⟩)
        intro _ c hc
        refine ⟨hc.undoable, hq.trans hc.quiet, hc.settled, fun op' hop' hst => ?_⟩
        by_cases hp : op'.path = op.path
        · rw [Settled, hp]
          exact hc.settled
        · exact hc.others op' hop' (settled_of_pruned P hop hd.pruned hop' hp hst)

theorem stateFile_ne {a b : String} (h : a ≠ b) :
    site.stateRoot ++ [a.toList] ≠ site.stateRoot ++ [b.toList] := by
  simpa [String.toList_inj] using h

theorem undoable_of_outside (P : Planned site pre operations) (h : Undoable site pre operations t)
    (hc : ∀ q, ¬ site.stateRoot <+: q → c.node q = t.node q) : Undoable site pre operations c := by
  refine h.congr P.layout (fun q hq => hc q fun hs => hq (Site.own_of_stateRoot hs)) ?_
  intro s hs q hq
  obtain ⟨op, hop, rfl⟩ := List.mem_map.mp hs
  refine hc q fun hsq => ?_
  have hp : site.stateRoot <+: site.backup op.path := hsq.trans hq
  rw [Site.backup_eq (P.admitted op hop).safe] at hp
  simp [Site.stateRoot, Site.backupFiles, Site.backupRoot, Site.backups] at hp

theorem settled_of_outside (ha : Admitted op.path) (h : Settled site pre t op)
    (hc : ∀ q, ¬ site.stateRoot <+: q → c.node q = t.node q) : Settled site pre c op := by
  rw [Settled, hc _ fun hs => Site.not_own_target ha (Site.own_of_stateRoot hs)]
  exact h

/-- A journal with these operations can be rolled back. -/
structure Journaled (site : Site) (pre : UpdateTree) (journal : Journal) (t : UpdateTree) : Prop where
  dirs : OwnDirs site t
  undoable : Undoable site pre journal.operations t
  holds : ∃ m, t.node site.journalFile = some (.file (.record (.journal journal)) m)

/-- The journal with another status. -/
def Journal.withStatus (journal : Journal) (status : Status) : Journal :=
  { journal with status := status }

/-- All operations of the journal are undone, and it says so. -/
structure RolledBack (site : Site) (pre : UpdateTree) (journal : Journal) (t : UpdateTree) :
    Prop extends Journaled site pre (journal.withStatus .rolledBack) t where
  settled : ∀ op ∈ journal.operations, Settled site pre t op

end Operations

section Rollback

variable {env : Env} {site : Site} {pre t c : UpdateTree} {journal : Journal}

theorem Journaled.of_quiet (h : Journaled site pre journal t)
    (hc : Undoable site pre journal.operations c) (hq : Quiet site t c) :
    Journaled site pre journal c := by
  obtain ⟨m, hm⟩ := h.holds
  exact ⟨h.dirs.congr hq, hc, m, (hq site.journalFile (Or.inl (List.prefix_append _ _))).trans hm⟩

theorem Journaled.of_outside (P : Planned site pre journal.operations)
    (h : Journaled site pre journal t) (hd : OwnDirs site c)
    (hc : ∀ q, ¬ site.stateRoot <+: q → c.node q = t.node q)
    (hj : c.node site.journalFile = t.node site.journalFile) : Journaled site pre journal c := by
  obtain ⟨m, hm⟩ := h.holds
  exact ⟨hd, undoable_of_outside P h.undoable hc, m, hj ▸ hm⟩

theorem RolledBack.of_outside (P : Planned site pre journal.operations)
    (h : RolledBack site pre journal t) (hd : OwnDirs site c)
    (hc : ∀ q, ¬ site.stateRoot <+: q → c.node q = t.node q)
    (hj : c.node site.journalFile = t.node site.journalFile) : RolledBack site pre journal c :=
  ⟨Journaled.of_outside (show Planned site pre (journal.withStatus .rolledBack).operations from P)
    h.toJournaled hd hc hj,
    fun op hop => settled_of_outside (P.admitted op hop) (h.settled op hop) hc⟩

/-- Between its first and its last step a rollback has the old journal and is still to
finish, or has finished the live tree. -/
def RollingBack (site : Site) (pre : UpdateTree) (journal : Journal) (t c : UpdateTree) : Prop :=
  (Journaled site pre journal c ∧ c.node site.runtimePending = t.node site.runtimePending ∨
    RolledBack site pre journal c) ∧ c.node site.requestFile = t.node site.requestFile

theorem wp_rollbackRuntime (P : Planned env pre journal.operations)
    (h : Journaled env pre journal t) (reason : Reason) :
    wp (rollbackRuntime env reason)
      (fun _ c => RolledBack env pre journal c ∧ c.node env.runtimePending = none ∧
        c.node env.requestFile = t.node env.requestFile)
      (fun _ _ => False) (RollingBack env pre journal t) t := by
  obtain ⟨m, hm⟩ := h.holds
  have hvisible : Visible "runtime-transaction.json" := by decide
  have hrequest : Visible "request.json" := by decide
  have hclean : Clean env.journalFile := hvisible.clean
  have hstate : ∀ n : Name, env.Private (env.stateRoot ++ [n]) := fun n =>
    Or.inl (List.prefix_append _ _)
  have hfile : t.isFile env.journalFile = true := by
    rw [Site.journalFile, h.dirs.isFile _ (by decide), ← Site.journalFile, hm]
    rfl
  unfold rollbackRuntime
  rw [wp_bind, wp_read, hfile, if_pos rfl, wp_bind, loadJournal, wp_bind,
    wp_loadJson hclean hm, wp_lift_ok, wp_bind]
  -- what is left of the loop is not settled yet, everything else is
  refine wp_mono (wp_forEach (fun rest c => Undoable env pre journal.operations c ∧ Quiet env t c ∧
      (∀ op ∈ rest, op ∈ journal.operations) ∧
      ∀ op ∈ journal.operations, op ∉ rest → Settled env pre c op)
    (C := RollingBack env pre journal t) (E := fun _ _ => False) ?_
    (Q := fun _ c => Undoable env pre journal.operations c ∧ Quiet env t c ∧
      ∀ op ∈ journal.operations, Settled env pre c op) ?_ journal.operations.reverse
    ⟨h.undoable, .refl _ _, by simp, fun op hop hn => absurd (List.mem_reverse.mpr hop) hn⟩) ?_ (fun _ _ h => h) (fun _ h => h)
  · rintro op rest c ⟨hundo, hq, hmem, hset⟩
    refine wp_mono (wp_rollbackOperation P (hmem op (by simp)) hundo) ?_ (fun _ _ h => h) ?_
    · intro _ d hd
      refine ⟨hd.undoable, hq.trans hd.quiet, fun o ho => hmem o (by simp [ho]), ?_⟩
      intro o ho hor
      by_cases heq : o = op
      · exact heq ▸ hd.settled
      · exact hd.others o ho (hset o ho (by simp [heq, hor]))
    · intro d ⟨hundo', hq'⟩
      have hqd := hq.trans hq'
      exact ⟨Or.inl ⟨h.of_quiet hundo' hqd, hqd _ (hstate _)⟩, hqd _ (hstate _)⟩
  · rintro c ⟨hundo, hq, -, hset⟩
    exact ⟨hundo, hq, fun op hop => hset op hop (by simp)⟩
  · rintro - c ⟨hundo, hq, hset⟩
    have hjc := h.of_quiet hundo hq
    have hreq : c.node env.requestFile = t.node env.requestFile := hq _ (hstate _)
    have hpen : c.node env.runtimePending = t.node env.runtimePending := hq _ (hstate _)
    have hne : ∀ a : String, a ≠ "runtime-transaction.json" → Visible a →
        ∀ d, Wrote env "runtime-transaction.json"
          (.journal (journal.withStatus .rolledBack)) c d →
        d.node (env.stateRoot ++ [a.toList]) = c.node (env.stateRoot ++ [a.toList]) :=
      fun a ha hv d hd => hd.other _ (stateFile_ne ha) hv.not_scratch
    have hwrote : ∀ d, Wrote env "runtime-transaction.json"
        (.journal (journal.withStatus .rolledBack)) c d → RolledBack env pre journal d := by
      intro d hd
      exact ⟨⟨hd.dirs, undoable_of_outside P hundo fun q hq => hd.outside hq, _, hd.holds⟩,
        fun op hop => settled_of_outside (P.admitted op hop) (hset op hop) fun q hq => hd.outside hq⟩
    rw [wp_bind, journalWrite]
    refine wp_mono (wp_atomicJson hjc.dirs hvisible _) ?_ (fun _ _ h => h) ?_
    · intro _ d hd
      have hrd := hwrote d hd
      have hreqd : d.node env.requestFile = t.node env.requestFile :=
        (hne "request.json" (by decide) (by decide) d hd).trans hreq
      have herase : ∀ e, Erased env "runtime-pending.json" d e →
          RolledBack env pre journal e ∧ e.node env.requestFile = t.node env.requestFile :=
        fun e he => ⟨hrd.of_outside P he.dirs (fun q hq => he.outside hq)
          (he.other _ (stateFile_ne (by decide))),
          (he.other _ (stateFile_ne (by decide))).trans hreqd⟩
      rw [wp_bind, unlinkPending]
      refine wp_mono (wp_unlinkState hd.dirs (by decide)) ?_ (fun _ _ h => h)
        (fun e he => ⟨Or.inr (herase e he).1, (herase e he).2⟩)
      intro _ e he
      have hre := herase e he
      have hlast : ∀ f, Wrote env "last-result.json" (.rolledBack reason) e f →
          RolledBack env pre journal f ∧ f.node env.runtimePending = none ∧
            f.node env.requestFile = t.node env.requestFile := by
        intro f hf
        have hother : ∀ a : String, a ≠ "last-result.json" → Visible a →
            f.node (env.stateRoot ++ [a.toList]) = e.node (env.stateRoot ++ [a.toList]) :=
          fun a ha hv => hf.other _ (stateFile_ne ha) hv.not_scratch
        exact ⟨hre.1.of_outside P hf.dirs (fun q hq => hf.outside hq)
            (hother "runtime-transaction.json" (by decide) (by decide)),
          (hother "runtime-pending.json" (by decide) (by decide)).trans he.gone,
          (hother "request.json" (by decide) (by decide)).trans hre.2⟩
      refine wp_mono (wp_atomicJson he.dirs (by decide) _) (fun _ f hf => hlast f hf)
        (fun _ _ h => h) ?_
      intro f hf
      cases hf with
      | inl hf =>
        exact ⟨Or.inr (hre.1.of_outside P hf.dirs (fun q hq => hf.outside hq)
            (hf.other _ hvisible.not_scratch)),
          (hf.other _ hrequest.not_scratch).trans hre.2⟩
      | inr hf => exact ⟨Or.inr (hlast f hf.1).1, (hlast f hf.1).2.2⟩
    · intro d hd
      cases hd with
      | inl hd =>
        have hother : ∀ a : String, Visible a →
            d.node (env.stateRoot ++ [a.toList]) = c.node (env.stateRoot ++ [a.toList]) :=
          fun a hv => hd.other _ hv.not_scratch
        exact ⟨Or.inl ⟨hjc.of_outside P hd.dirs (fun q hq => hd.outside hq)
            (hother "runtime-transaction.json" hvisible),
          (hother "runtime-pending.json" (by decide)).trans hpen⟩,
          (hother "request.json" (by decide)).trans hreq⟩
      | inr hd =>
        exact ⟨Or.inr (hwrote d hd.1),
          (hne "request.json" (by decide) (by decide) d hd.1).trans hreq⟩

/-- An update that recovery undoes or has undone: its journal is `applying`, or its marker
is there, or the journal says that it is rolled back. -/
def Unconfirmed (site : Site) (pre : UpdateTree) (journal : Journal) (t : UpdateTree) : Prop :=
  (∃ status, Journaled site pre (journal.withStatus status) t ∧
    (status = .applying ∨ t.node site.runtimePending ≠ none)) ∨
    RolledBack site pre journal t ∧ t.node site.runtimePending = none

theorem RolledBack.unconfirmed (h : RolledBack site pre journal t) :
    Unconfirmed site pre journal t := by
  by_cases hp : t.node site.runtimePending = none
  · exact Or.inr ⟨h, hp⟩
  · exact Or.inl ⟨.rolledBack, h.toJournaled, Or.inr hp⟩

theorem RolledBack.of_withStatus {status : Status}
    (h : RolledBack site pre (journal.withStatus status) t) : RolledBack site pre journal t :=
  ⟨⟨h.dirs, h.undoable, h.holds⟩, h.settled⟩

theorem wp_recoverPriorRuntime (P : Planned env pre journal.operations)
    (h : Unconfirmed env pre journal t) :
    wp (recoverPriorRuntime env)
      (fun _ c => RolledBack env pre journal c ∧ c.node env.runtimePending = none ∧
        c.node env.requestFile = t.node env.requestFile)
      (fun _ _ => False)
      (fun c => Unconfirmed env pre journal c ∧ c.node env.requestFile = t.node env.requestFile) t := by
  have hfiles : ∀ {j : Journal}, Journaled env pre j t →
      t.isFile env.journalFile = true ∧
      t.isFile env.runtimePending = (t.node env.runtimePending).isSome := by
    intro j hj
    obtain ⟨m, hm⟩ := hj.holds
    have hjf : t.isFile env.journalFile = (t.node env.journalFile).isSome :=
      hj.dirs.isFile _ (by decide)
    exact ⟨by rw [hjf, hm]; rfl, hj.dirs.isFile _ (by decide)⟩
  have hvisible : Visible "runtime-transaction.json" := by decide
  have hclean : Clean env.journalFile := hvisible.clean
  unfold recoverPriorRuntime
  rw [wp_bind, wp_read]
  cases h with
  | inl h =>
    obtain ⟨status, hj, hst⟩ := h
    have hroll : ∀ reason, wp (rollbackRuntime env reason)
        (fun _ c => RolledBack env pre journal c ∧ c.node env.runtimePending = none ∧
          c.node env.requestFile = t.node env.requestFile)
        (fun _ _ => False)
        (fun c => Unconfirmed env pre journal c ∧
          c.node env.requestFile = t.node env.requestFile) t := by
      intro reason
      refine wp_mono (wp_rollbackRuntime
        (show Planned env pre (journal.withStatus status).operations from P) hj reason)
        (fun _ c hc => ⟨hc.1.of_withStatus, hc.2⟩) (fun _ _ h => h) (fun c hc => ⟨?_, hc.2⟩)
      cases hc.1 with
      | inl hjc => exact Or.inl ⟨status, hjc.1, hst.imp id fun hp => by rw [hjc.2]; exact hp⟩
      | inr hrc => exact hrc.of_withStatus.unconfirmed
    rw [(hfiles hj).2]
    by_cases hp : t.node env.runtimePending = none
    · obtain ⟨m, hm⟩ := hj.holds
      have happ : status = .applying := hst.resolve_right fun h => h hp
      rw [hp, if_neg (by simp), wp_bind, wp_read, (hfiles hj).1, if_pos rfl, wp_bind, wp_handle,
        wp_loadJson hclean hm]
      dsimp only
      rw [if_pos (by simpa [Journal.withStatus] using happ)]
      exact hroll _
    · rw [if_pos (by simp [Option.isSome_iff_ne_none, hp])]
      exact hroll _
  | inr hr =>
    obtain ⟨hr, hp⟩ := hr
    obtain ⟨m, hm⟩ := hr.holds
    rw [(hfiles hr.toJournaled).2, hp, if_neg (by simp), wp_bind, wp_read,
      (hfiles hr.toJournaled).1, if_pos rfl, wp_bind, wp_handle, wp_loadJson hclean hm]
    dsimp only
    rw [if_neg (by simp [Journal.withStatus]), wp_pure]
    exact ⟨hr, hp, rfl⟩

end Rollback

end PlumosBubble.Update
