import PlumosBubble.Update.CrashSafety

/-! What each command can leave behind. `apply_pending` falls into the recovery it begins
with, the preparation of the requested update, in which nothing live changes, and the
update proper from the first `journal_write` on. -/

namespace PlumosBubble.Update

open Crash FileSystem

/-! ### The phases of `apply_pending` -/

/-- What `apply_pending` begins with. -/
def enterPending (env : Env) : UpdateProg Unit := do
  os (mkdirParents env.stateRoot)
  recoverPriorRuntime env

/-- The requested update as far as the first `journal_write`. -/
def planRequest (env : Env) : UpdateProg Transaction := do
  let (path, sha256, packageType, version) ← loadRequest env
  if !env.underInbox path then
    Prog.raise (.updateError "pending package moved outside update inbox".toList)
  else match env.package path with
    | none => Prog.raise (.osError .enoent)
    | some file =>
      if file.sha256 ≠ sha256 then
        Prog.raise (.updateError "pending package hash changed after request".toList)
      else do
        let (archive, manifest) ← Prog.lift (loadPackage (some file))
        let compatible ← Prog.read (currentCompatibility env · manifest)
        Prog.lift compatible
        if manifest.packageType ≠ some packageType ∨ manifest.version ≠ some version then
          Prog.raise (.updateError "pending request metadata changed".toList)
        else planRuntime env file.sha256 archive manifest

/-- From an installation with nothing to recover to a planned transaction, if there is a
request. -/
def planPending (env : Env) : UpdateProg (Option Transaction) := do
  os (removePath env.order env.stagingRoot)
  os (mkdirParents env.stagingRoot)
  let requested ← Prog.read (·.isFile env.requestFile)
  if requested then do
    let tx ← planRequest env
    pure (some tx)
  else pure none

/-- `apply_runtime` once its journal is written. -/
def installRuntime (env : Env) (tx : Transaction) : UpdateProg ℤ := do
  applyOperations env tx
  finishRuntime env tx
  pure 0

/-- The update proper. -/
def commitPlanned (env : Env) : Option Transaction → UpdateProg ℤ
  | none => pure 0
  | some tx => do
    journalWrite env (tx.journal .applying)
    installRuntime env tx

theorem applyRequest_eq (env : Env) : applyRequest env = planRequest env >>= commitRuntime env := by
  unfold applyRequest planRequest
  rw [Prog.bind_assoc]
  congr 1
  funext ⟨path, sha256, packageType, version⟩
  dsimp only
  split_ifs
  · rfl
  · cases env.package path with
    | none => rfl
    | some file =>
      dsimp only
      split_ifs
      · rfl
      · rw [Prog.bind_assoc]
        congr 1
        funext ⟨archive, manifest⟩
        rw [Prog.bind_assoc]
        congr 1
        funext compatible
        rw [Prog.bind_assoc]
        congr 1
        funext _
        split_ifs
        · rfl
        · rfl

/-- The three phases of `apply_pending`. -/
theorem applyPending_eq (env : Env) :
    applyPending env = enterPending env >>= fun _ => planPending env >>= commitPlanned env := by
  unfold applyPending enterPending planPending
  simp only [Prog.bind_assoc]
  congr 1
  funext _
  congr 1
  funext _
  congr 1
  funext _
  congr 1
  funext _
  congr 1
  funext requested
  cases requested with
  | false => rfl
  | true =>
    rw [if_pos rfl, if_pos rfl, applyRequest_eq, Prog.bind_assoc]
    congr 1

/-! ### Changes of other state files -/

/-- Only state files other than the journal and the marker differ. -/
structure Kept (site : Site) (t c : UpdateTree) : Prop where
  dirs : OwnDirs site c
  outside : ∀ q, ¬ site.stateRoot <+: q → c.node q = t.node q
  journal : c.node site.journalFile = t.node site.journalFile
  marker : c.node site.runtimePending = t.node site.runtimePending

section Kept

variable {env : Env} {site : Site} {pre t c d : UpdateTree} {tx : Transaction} {name : String} {r : Record}

theorem Kept.refl (h : OwnDirs site t) : Kept site t t := ⟨h, fun _ _ => rfl, rfl, rfl⟩

theorem Kept.trans (h : Kept site t c) (h' : Kept site c d) : Kept site t d :=
  ⟨h'.dirs, fun q hq => (h'.outside q hq).trans (h.outside q hq), h'.journal.trans h.journal,
    h'.marker.trans h.marker⟩

theorem Unchanged.state (h : Unchanged site t c) (hv : Visible name) :
    c.node (site.stateRoot ++ [name.toList]) = t.node (site.stateRoot ++ [name.toList]) :=
  h.other _ hv.not_scratch

theorem Wrote.state {a : String} (h : Wrote site name r t c) (hne : a ≠ name) (hv : Visible a) :
    c.node (site.stateRoot ++ [a.toList]) = t.node (site.stateRoot ++ [a.toList]) :=
  h.other _ (stateFile_ne hne) hv.not_scratch

theorem Erased.state {a : String} (h : Erased site name t c) (hne : a ≠ name) :
    c.node (site.stateRoot ++ [a.toList]) = t.node (site.stateRoot ++ [a.toList]) :=
  h.other _ (stateFile_ne hne)

theorem Unchanged.kept (h : Unchanged site t c) : Kept site t c :=
  ⟨h.dirs, fun _ hq => h.outside hq, h.state (by decide), h.state (by decide)⟩

theorem Wrote.kept (h : Wrote site name r t c) (h1 : "runtime-transaction.json" ≠ name)
    (h2 : "runtime-pending.json" ≠ name) : Kept site t c :=
  ⟨h.dirs, fun _ hq => h.outside hq, h.state h1 (by decide), h.state h2 (by decide)⟩

theorem Unchanged.of_madeDirs (h : OwnDirs site t) (hc : MadeDirs site.stateRoot t c) :
    Unchanged site t c := by
  have hother : ∀ q, ¬ site.Scratch q → c.node q = t.node q := by
    intro q hq
    refine (hc q).resolve_right fun hm => ?_
    cases List.prefix_concat_iff.mp hm.1 with
    | inl he => exact hq (Or.inl he)
    | inr hp =>
      have hdir : t.node q = some .dir := by
        by_cases he : q = site.root
        · exact he ▸ h.root
        · exact t.dir_of_ancestor hp he (by simp [h.root])
      simp [hdir] at hm
  refine ⟨h.of_outside (fun q hq => hother q fun hs => hq hs.under) ?_ ?_, hother⟩
  · exact (hc _).imp id fun hm => hm.2.2
  · intro n
    rw [hc.of_not_ancestor (not_prefix_child _ n)]
    exact h.stateFile n

theorem wp_makeState (h : OwnDirs env t) :
    wp (os (mkdirParents env.stateRoot)) (fun _ => Unchanged env t) (fun _ _ => False)
      (Unchanged env t) t := by
  rw [os, wp_mapError]
  exact wp_mono (wp_mkdirParents env.clean_stateRoot h.state) (fun _ _ hc => .of_madeDirs h hc.2)
    (fun _ _ h => h) (fun _ hc => .of_madeDirs h hc)

end Kept

/-! ### How far an update has come -/

/-- The journal file holds `journal`. -/
def Holds (site : Site) (journal : Journal) (t : UpdateTree) : Prop :=
  ∃ m, t.node site.journalFile = some (.file (.record (.journal journal)) m)

/-- An update that recovery leaves alone, with the status its journal has; a rolled back
one is undone. -/
structure Standing (site : Site) (pre : UpdateTree) (tx : Transaction) (status : Status)
    (t : UpdateTree) : Prop where
  dirs : OwnDirs site t
  holds : Holds site (tx.journal status) t
  noMarker : t.node site.runtimePending = none
  restored : status = .rolledBack → Restored site pre tx.operations t

/-- The update that began on `pre` is not confirmed: recovery undoes it, or leaves it
alone because it is undone or between the two writes that say it is in place. -/
inductive Progress (site : Site) (pre : UpdateTree) (tx : Transaction) (t : UpdateTree) : Prop
  | pending {status : Status} (journaled : Journaled site pre (tx.journal status) t)
      (undone : status = .applying ∨ t.node site.runtimePending ≠ none)
  | between (standing : Standing site pre tx .pendingHealth t)
  | undone (standing : Standing site pre tx .rolledBack t)

/-- Nothing to recover. -/
structure Idle (site : Site) (t : UpdateTree) : Prop where
  dirs : OwnDirs site t
  noMarker : t.node site.runtimePending = none
  journal : t.node site.journalFile = none ∨ ∃ journal, Holds site journal t ∧ journal.status ≠ .applying

section Progress

variable {env : Env} {site : Site} {pre t c : UpdateTree} {tx : Transaction} {journal : Journal}

theorem Holds.congr (h : Holds site journal t) (hc : c.node site.journalFile = t.node site.journalFile) :
    Holds site journal c := by
  obtain ⟨m, hm⟩ := h
  exact ⟨m, hc.trans hm⟩

theorem Holds.unique {journal' : Journal} (h : Holds site journal t) (h' : Holds site journal' t) :
    journal = journal' := by
  obtain ⟨m, hm⟩ := h
  obtain ⟨m', hm'⟩ := h'
  have := hm.symm.trans hm'
  simp_all

theorem Restored.congr {operations : List Operation} (P : Planned site pre operations)
    (h : Restored site pre operations t) (hc : ∀ q, ¬ site.Own q → c.node q = t.node q) :
    Restored site pre operations c := by
  constructor
  · intro op hop
    rw [hc _ (Site.not_own_target (P.admitted op hop))]
    exact h.1 op hop
  · intro q hq
    rw [hc q hq]
    exact h.2 q hq

theorem Standing.congr {status : Status} (P : Planned site pre tx.operations)
    (h : Standing site pre tx status t) (hd : OwnDirs site c)
    (hj : c.node site.journalFile = t.node site.journalFile)
    (hm : c.node site.runtimePending = t.node site.runtimePending)
    (hc : ∀ q, ¬ site.Own q → c.node q = t.node q) : Standing site pre tx status c :=
  ⟨hd, h.holds.congr hj, hm.trans h.noMarker, fun hs => (h.restored hs).congr P hc⟩

theorem Standing.idle {status : Status} (h : Standing site pre tx status t)
    (hs : status ≠ .applying) : Idle site t :=
  ⟨h.dirs, h.noMarker, Or.inr ⟨_, h.holds, hs⟩⟩

theorem Standing.of_kept {status : Status} (P : Planned site pre tx.operations)
    (h : Standing site pre tx status t) (hc : Kept site t c) : Standing site pre tx status c :=
  h.congr P hc.dirs hc.journal hc.marker fun q hq =>
    hc.outside q fun hp => hq (Site.own_of_stateRoot hp)

theorem Progress.of_kept (P : Planned site pre tx.operations) (h : Progress site pre tx t)
    (hc : Kept site t c) : Progress site pre tx c := by
  cases h with
  | pending hj hs =>
    refine .pending (hj.of_outside P hc.dirs hc.outside hc.journal) ?_
    rw [hc.marker]
    exact hs
  | between h => exact .between (h.of_kept P hc)
  | undone h => exact .undone (h.of_kept P hc)

theorem Progress.of_unconfirmed (P : Planned site pre tx.operations)
    (h : Unconfirmed site pre (tx.journal .applying) t) : Progress site pre tx t := by
  cases h with
  | inl h =>
    obtain ⟨status, hj, hs⟩ := h
    exact .pending hj hs
  | inr h =>
    exact .undone ⟨h.1.dirs, h.1.holds, h.2, fun _ => h.1.restored P⟩

theorem Idle.of_kept (h : Idle site t) (hc : Kept site t c) : Idle site c := by
  refine ⟨hc.dirs, hc.marker.trans h.noMarker, ?_⟩
  cases h.journal with
  | inl hj => exact Or.inl (hc.journal.trans hj)
  | inr hj =>
    obtain ⟨journal, hh, hs⟩ := hj
    exact Or.inr ⟨journal, hh.congr hc.journal, hs⟩

theorem OwnDirs.isFile_state (h : OwnDirs site t) {name : String} (hv : Visible name) :
    t.isFile (site.stateRoot ++ [name.toList]) =
      (t.node (site.stateRoot ++ [name.toList])).isSome :=
  h.isFile _ fun hn => hv (by simp [hn])

theorem wp_recoverPriorRuntime_idle (h : Idle env t) {Q : Unit → UpdateTree → Prop}
    {E : PyError → UpdateTree → Prop} {C : UpdateTree → Prop} (hQ : Q () t) :
    wp (recoverPriorRuntime env) Q E C t := by
  have hmarker : t.isFile env.runtimePending = false := by
    rw [Site.runtimePending, h.dirs.isFile_state (by decide), ← Site.runtimePending, h.noMarker]
    rfl
  have hfile : t.isFile env.journalFile = (t.node env.journalFile).isSome :=
    h.dirs.isFile_state (by decide)
  unfold recoverPriorRuntime
  rw [wp_bind, wp_read, hmarker, if_neg (by simp), wp_bind, wp_read, hfile]
  cases h.journal with
  | inl hj =>
    rw [hj, if_neg (by simp), wp_pure]
    exact hQ
  | inr hj =>
    obtain ⟨journal, ⟨m, hm⟩, hs⟩ := hj
    have hvisible : Visible "runtime-transaction.json" := by decide
    have hclean : Clean env.journalFile := hvisible.clean
    rw [hm, Option.isSome_some, if_pos rfl, wp_bind, wp_handle, wp_loadJson hclean hm]
    dsimp only
    rw [if_neg hs, wp_pure]
    exact hQ

theorem wp_enterPending_idle (h : Idle env t) :
    wp (enterPending env) (fun _ => Unchanged env t) (fun _ _ => False) (Unchanged env t) t := by
  rw [enterPending, wp_bind]
  refine wp_mono (wp_makeState h.dirs) ?_ (fun _ _ h => h) (fun _ h => h)
  intro _ c hc
  exact wp_recoverPriorRuntime_idle (h.of_kept hc.kept) hc

/-- What recovery leaves behind is undone, unless recovery left it alone. -/
inductive Entered (site : Site) (pre : UpdateTree) (tx : Transaction) (t c : UpdateTree) : Prop
  | between (before : Standing site pre tx .pendingHealth t)
      (standing : Standing site pre tx .pendingHealth c)
  | undone (standing : Standing site pre tx .rolledBack c)

theorem wp_enterPending (P : Planned env pre tx.operations) (h : Progress env pre tx t) :
    wp (enterPending env)
      (fun _ c => Entered env pre tx t c ∧ c.node env.requestFile = t.node env.requestFile)
      (fun _ _ => False)
      (fun c => Progress env pre tx c ∧ c.node env.requestFile = t.node env.requestFile) t := by
  have hrequest : Visible "request.json" := by decide
  have hidle : ∀ {status}, status ≠ .applying → Standing env pre tx status t →
      (∀ c, Standing env pre tx status c → Entered env pre tx t c ∧ Progress env pre tx c) →
      wp (enterPending env)
        (fun _ c => Entered env pre tx t c ∧ c.node env.requestFile = t.node env.requestFile)
        (fun _ _ => False)
        (fun c => Progress env pre tx c ∧ c.node env.requestFile = t.node env.requestFile) t := by
    intro status hs h hend
    refine wp_mono (wp_enterPending_idle (h.idle hs)) ?_ (fun _ _ h => h) ?_
    · exact fun _ c hc => ⟨(hend c (h.of_kept P hc.kept)).1, hc.state hrequest⟩
    · exact fun c hc => ⟨(hend c (h.of_kept P hc.kept)).2, hc.state hrequest⟩
  cases h with
  | between h => exact hidle (by decide) h fun c hc => ⟨.between h hc, .between hc⟩
  | undone h => exact hidle (by decide) h fun c hc => ⟨.undone hc, .undone hc⟩
  | @pending status hj hs =>
    rw [enterPending, wp_bind]
    refine wp_mono (wp_makeState hj.dirs) ?_ (fun _ _ h => h)
      (fun c hc => ⟨Progress.of_kept P (.pending hj hs) hc.kept, hc.state hrequest⟩)
    intro _ c hc
    have hcj : Journaled env pre (tx.journal status) c :=
      hj.of_outside P hc.dirs (fun q hq => hc.outside hq) hc.kept.journal
    have hcs : status = .applying ∨ c.node env.runtimePending ≠ none := by
      rw [hc.kept.marker]
      exact hs
    have hu : Unconfirmed env pre (tx.journal .applying) c := Or.inl ⟨status, hcj, hcs⟩
    refine wp_mono (wp_recoverPriorRuntime P hu) ?_ (fun _ _ h => h)
      (fun d hd => ⟨.of_unconfirmed P hd.1, hd.2.trans (hc.state hrequest)⟩)
    rintro - d ⟨hd, hmarker, hreq⟩
    exact ⟨.undone ⟨hd.dirs, hd.holds, hmarker, fun _ => hd.restored P⟩,
      hreq.trans (hc.state hrequest)⟩

end Progress

/-! ### The other commands -/

/-- What `mark_healthy` leaves: the journal and the marker as they were, or the journal
healthy and the marker still there or gone. -/
structure Marked (site : Site) (t c : UpdateTree) : Prop where
  dirs : OwnDirs site c
  outside : ∀ q, ¬ site.stateRoot <+: q → c.node q = t.node q
  request : c.node site.requestFile = t.node site.requestFile
  change : c.node site.journalFile = t.node site.journalFile ∧
      c.node site.runtimePending = t.node site.runtimePending ∨
    ∃ journal, Holds site journal t ∧ t.node site.runtimePending ≠ none ∧
      Holds site (journal.withStatus .healthy) c ∧
      (c.node site.runtimePending = t.node site.runtimePending ∨
        c.node site.runtimePending = none)

section Others

variable {env : Env} {site : Site} {pre t s c : UpdateTree} {tx : Transaction}

theorem wp_request (h : OwnDirs env t) (path : Text) :
    wp (request env path) (fun _ => Kept env t) (fun _ => Kept env t) (Kept env t) t := by
  have hrefl := Kept.refl h
  unfold request
  split_ifs
  · exact (wp_raise _).mpr hrefl
  · have hinspect : ∀ {Q : Record → UpdateTree → Prop}, (∀ r, Q r t) →
        wp (inspect env path) Q (fun _ => Kept env t) (Kept env t) t := by
      intro Q hQ
      rw [inspect, wp_bind]
      refine wp_lift hrefl fun a => ?_
      rw [wp_bind, wp_read, wp_bind]
      refine wp_lift hrefl fun _ => ?_
      rw [wp_bind]
      refine wp_lift hrefl fun _ => ?_
      rw [wp_bind]
      refine wp_lift hrefl fun _ => ?_
      exact (wp_pure _).mpr (hQ _)
    rw [wp_bind]
    refine hinspect fun value => ?_
    rw [wp_bind]
    refine wp_mono (wp_makeState h) ?_ (fun _ _ h => h.elim) (fun _ hc => hc.kept)
    intro _ c hc
    rw [wp_bind]
    refine wp_mono (wp_atomicJson hc.dirs (by decide : Visible "request.json") value) ?_
      (fun _ _ h => h.elim) ?_
    · intro _ d hd
      exact (wp_pure _).mpr (hc.kept.trans (hd.kept (by decide) (by decide)))
    · intro d hd
      cases hd with
      | inl hd => exact hc.kept.trans hd.kept
      | inr hd => exact hc.kept.trans (hd.1.kept (by decide) (by decide))

theorem Marked.refl (h : OwnDirs site t) : Marked site t t :=
  ⟨h, fun _ _ => rfl, rfl, Or.inl ⟨rfl, rfl⟩⟩

theorem wp_markHealthy (h : OwnDirs env t)
    (hj : t.node env.runtimePending ≠ none → ∃ journal, Holds env journal t) :
    wp (markHealthy env) (fun _ => Marked env t) (fun _ => Marked env t) (Marked env t) t := by
  have hrefl := Marked.refl h
  have hjournalVisible : Visible "runtime-transaction.json" := by decide
  have hmarkerVisible : Visible "runtime-pending.json" := by decide
  have hmarker : t.isFile env.runtimePending = (t.node env.runtimePending).isSome :=
    h.isFile_state (by decide)
  have hfile : t.isFile env.journalFile = (t.node env.journalFile).isSome :=
    h.isFile_state (by decide)
  unfold markHealthy
  rw [wp_bind, wp_read, hmarker]
  by_cases hm : t.node env.runtimePending = none
  · rw [hm, if_neg (by simp), wp_pure]
    exact hrefl
  · obtain ⟨journal, m, hm'⟩ := hj hm
    rw [if_pos (by simpa [Option.isSome_iff_ne_none] using hm), wp_bind, wp_read, hfile, hm',
      Option.isSome_some, if_neg (by simp), wp_bind]
    have hload : ∀ {Q : Record → UpdateTree → Prop}, (∀ r, Q r t) →
        wp (loadJson env.runtimePending) Q (fun _ => Marked env t) (Marked env t) t := by
      intro Q hQ
      rw [loadJson, wp_bind, wp_read]
      exact wp_lift hrefl hQ
    refine hload fun value => ?_
    have hclean : Clean env.journalFile := hjournalVisible.clean
    rw [wp_bind, loadJournal, wp_bind, wp_loadJson hclean hm', wp_lift_ok, wp_bind]
    have hwrote : ∀ {d}, Wrote env "runtime-transaction.json"
        (.journal (journal.withStatus .healthy)) t d → ∀ {e}, OwnDirs env e →
        (∀ q, ¬ env.stateRoot <+: q → e.node q = d.node q) →
        e.node env.requestFile = d.node env.requestFile →
        e.node env.journalFile = d.node env.journalFile →
        (e.node env.runtimePending = d.node env.runtimePending ∨
          e.node env.runtimePending = none) → Marked env t e := by
      intro d hd e he hout hreq hjou hmar
      have hmd : d.node env.runtimePending = t.node env.runtimePending :=
        hd.state (by decide) hmarkerVisible
      have hrd : d.node env.requestFile = t.node env.requestFile := hd.state (by decide) (by decide)
      refine ⟨he, fun q hq => (hout q hq).trans (hd.outside hq), hreq.trans hrd, Or.inr ?_⟩
      refine ⟨journal, ⟨m, hm'⟩, hm, ⟨_, hjou.trans hd.holds⟩, ?_⟩
      rw [← hmd]
      exact hmar
    refine wp_mono (wp_atomicJson h hjournalVisible _) ?_ (fun _ _ h => h.elim) ?_
    · intro _ d hd
      rw [wp_bind, unlinkPending]
      have herased : ∀ {e}, Erased env "runtime-pending.json" d e → Marked env t e := by
        intro e he
        exact hwrote hd he.dirs (fun q hq => he.outside hq) (he.state (by decide))
          (he.state (by decide)) (Or.inr he.gone)
      refine wp_mono (wp_unlinkState hd.dirs hmarkerVisible) ?_ (fun _ _ h => h.elim)
        (fun e he => herased he)
      intro _ e he
      cases value with
      | pending version _ =>
        have hlast : ∀ {f}, Kept env e f → f.node env.requestFile = e.node env.requestFile →
            Marked env t f := by
          intro f hf hr
          refine hwrote hd hf.dirs (fun q hq => (hf.outside q hq).trans (he.outside hq))
            (hr.trans (he.state (by decide))) (hf.journal.trans (he.state (by decide)))
            (Or.inr (hf.marker.trans he.gone))
        refine wp_mono (wp_atomicJson he.dirs (by decide : Visible "last-result.json") _) ?_
          (fun _ _ h => h.elim) ?_
        · intro _ f hf
          exact hlast (hf.kept (by decide) (by decide)) (hf.state (by decide) (by decide))
        · intro f hf
          cases hf with
          | inl hf => exact hlast hf.kept (hf.state (by decide))
          | inr hf =>
            exact hlast (hf.1.kept (by decide) (by decide)) (hf.1.state (by decide) (by decide))
      | journal j => exact (wp_raise _).mpr (herased he)
      | request => exact (wp_raise _).mpr (herased he)
      | rolledBack => exact (wp_raise _).mpr (herased he)
      | runtimeHealthy => exact (wp_raise _).mpr (herased he)
    · intro d hd
      cases hd with
      | inl hd =>
        exact ⟨hd.dirs, fun q hq => hd.outside hq, hd.state (by decide),
          Or.inl ⟨hd.state (by decide), hd.state (by decide)⟩⟩
      | inr hd => exact hwrote hd.1 hd.1.dirs (fun _ _ => rfl) rfl rfl (Or.inl rfl)

end Others

/-! ### Planning and installing -/

/-- A transaction planned on `pre` from a validated package. -/
structure PlannedUpdate (site : Site) (t pre : UpdateTree) (tx : Transaction) : Prop where
  ofPackage : ∃ manifest archiveNames files packageSha256, Validated manifest archiveNames files ∧
    (∀ version, manifest.version = some version → Comparable version) ∧
    PlannedTransaction site manifest files packageSha256 t pre tx

theorem comparable_of_compatible {env : Env} {t : UpdateTree} {manifest : Manifest} {u : Unit}
    (h : currentCompatibility env t manifest = .ok u) {version : Text}
    (hv : manifest.version = some version) : Comparable version := by
  simp only [currentCompatibility, bind_eq_ok] at h
  obtain ⟨_, -, _, -, _, -, v, hitem, _, -, key, hkey, -⟩ := h
  rw [hv, item] at hitem
  cases hitem
  refine ⟨key, ?_⟩
  cases hs : semanticVersionKey version with
  | error e =>
    rw [versionKey, hs] at hkey
    cases hkey
  | ok k =>
    rw [versionKey, hs] at hkey
    cases hkey
    rfl

section Planning

variable {env : Env} {site : Site} {pre t s c : UpdateTree} {tx : Transaction}

theorem PlannedUpdate.prepared (h : PlannedUpdate site t pre tx) : Prepared site t pre := by
  obtain ⟨_, _, _, _, -, -, h⟩ := h.ofPackage
  exact h.prepared

theorem Prepared.planned (h : Prepared site t s) (hp : PlannedUpdate site s pre tx) :
    PlannedUpdate site t pre tx := by
  obtain ⟨manifest, archiveNames, files, sha256, hm, hv, hp⟩ := hp.ofPackage
  exact ⟨manifest, archiveNames, files, sha256, hm, hv,
    { hp with prepared := h.trans hp.prepared }⟩

theorem Prepared.marker (h : Prepared site t c) :
    c.node site.runtimePending = t.node site.runtimePending :=
  h.state (List.prefix_append _ _)

theorem wp_planRequest (h : OwnDirs env t) (hpending : t.node env.runtimePending = none) :
    wp (planRequest env) (fun tx pre => PlannedUpdate env t pre tx) (fun _ => Prepared env t)
      (Prepared env t) t := by
  have hrefl := Prepared.refl h
  rw [planRequest, wp_bind, loadRequest, wp_bind, loadJson, wp_bind, wp_read]
  refine wp_lift hrefl fun _ => ?_
  refine wp_lift hrefl ?_
  rintro ⟨path, sha256, packageType, version⟩
  dsimp only
  split_ifs
  · exact (wp_raise _).mpr hrefl
  · cases env.package path with
    | none => exact (wp_raise _).mpr hrefl
    | some file =>
      dsimp only
      split_ifs
      · exact (wp_raise _).mpr hrefl
      · rw [wp_bind]
        cases hload : loadPackage (some file) with
        | error e => exact (wp_lift_error e).mpr hrefl
        | ok loaded =>
          obtain ⟨archive, manifest⟩ := loaded
          obtain ⟨files, hfiles⟩ := loadPackage_validated hload
          rw [wp_lift_ok, wp_bind, wp_read, wp_bind]
          cases hcomp : currentCompatibility env t manifest with
          | error e => exact (wp_lift_error e).mpr hrefl
          | ok _ =>
            rw [wp_lift_ok]
            split_ifs
            · exact (wp_raise _).mpr hrefl
            · have hv : ∀ v, manifest.version = some v → Comparable v := fun _ =>
                comparable_of_compatible hcomp
              refine wp_mono (wp_planRuntime hfiles hv h hpending) ?_ (fun _ _ h => h) (fun _ h => h)
              exact fun tx pre hp => ⟨_, _, _, _, hfiles, hv, hp⟩

theorem Prepared.of_pruned (h : OwnDirs site t) (hc : Pruned site.stagingRoot t c) :
    Prepared site t c := by
  have hout : ∀ q, ¬ site.stagingRoot <+: q → c.node q = t.node q := fun q hq =>
    (hc q).resolve_right fun hp => hq hp.1
  have hway : ∀ r, OpenWay t r → OpenWay c r := fun r hr q hq =>
    (hc q).elim (fun hs => by rw [hs]; exact hr q hq) fun hp => Or.inr hp.2
  have hroot : ¬ site.stagingRoot <+: site.root := by
    intro hp
    have hlen := hp.length_le
    simp only [Site.stagingRoot, Site.updates, List.length_append, List.length_singleton] at hlen
    omega
  refine ⟨⟨by rw [hout _ hroot]; exact h.root, hway _ h.state, ?_, hway _ h.staging, hway _ h.backups⟩,
    fun q hu _ => hout q fun hp => hu ((List.prefix_append _ _).trans hp)⟩
  intro n
  cases hc (site.stateRoot ++ [n]) with
  | inl hs => rw [hs]; exact h.stateFile n
  | inr hp => exact Or.inl hp.2

theorem wp_planPending (h : OwnDirs env t) (hpending : t.node env.runtimePending = none) :
    wp (planPending env)
      (fun planned c => Prepared env t c ∧ ∀ tx, planned = some tx →
        PlannedUpdate env t c tx ∧ t.node env.requestFile ≠ none)
      (fun _ => Prepared env t) (Prepared env t) t := by
  have hclean := env.clean_stagingRoot
  have hlink : NoLinkAbove t env.stagingRoot :=
    OpenWay.noLinkAbove (h.staging.of_ancestor (List.dropLast_prefix _))
  rw [planPending, wp_bind, os, wp_mapError]
  refine wp_mono (wp_removePath env.order hclean hlink (by simp [Site.stagingRoot])) ?_
    (fun _ _ h => h.elim) (fun _ hc => .of_pruned h hc)
  intro _ c hc
  have hprep := Prepared.of_pruned h hc.pruned
  have hmade : ∀ d, MadeDirs env.stagingRoot c d → Prepared env t d := by
    intro d hd
    refine hprep.trans ⟨hprep.dirs.madeDirs hd (Or.inl List.prefix_rfl), fun q hu _ => ?_⟩
    refine (hd q).resolve_right fun hm => hu ?_
    have hq : q <+: env.root ++ "updates".toList :: ["staging".toList] := by
      simpa [Site.stagingRoot, Site.updates] using hm.1
    exact hprep.dirs.under_of_missing hq hm.2.1
  rw [wp_bind, os, wp_mapError]
  refine wp_mono (wp_mkdirParents hclean hprep.dirs.staging) ?_ (fun _ _ h => h.elim) hmade
  rintro - d ⟨-, hd⟩
  have hprep' := hmade d hd
  have hfile : d.isFile env.requestFile = (t.node env.requestFile).isSome := by
    have := hprep'.dirs.isFile_state (by decide : Visible "request.json")
    rw [hprep'.state (List.prefix_append _ _)] at this
    exact this
  rw [wp_bind, wp_read, hfile]
  by_cases hreq : t.node env.requestFile = none
  · rw [hreq, if_neg (by simp), wp_pure]
    exact ⟨hprep', fun _ htx => absurd htx (by simp)⟩
  · rw [if_pos (by simpa [Option.isSome_iff_ne_none] using hreq), wp_bind]
    refine wp_mono (wp_planRequest hprep'.dirs (hprep'.marker.trans hpending)) ?_
      (fun _ _ hp => hprep'.trans hp) (fun _ hp => hprep'.trans hp)
    intro tx' pre hp
    rw [wp_pure]
    refine ⟨hprep'.trans hp.prepared, fun tx htx => ?_⟩
    cases htx
    exact ⟨hprep'.planned hp, hreq⟩

theorem PlannedUpdate.begun (h : PlannedUpdate site t pre tx)
    (hpending : t.node site.runtimePending = none) (hl : LinkFree site pre tx)
    (hs : Wrote site "runtime-transaction.json" (.journal (tx.journal .applying)) pre s) :
    Begun site pre tx s := by
  obtain ⟨_, _, _, _, hm, hv, h⟩ := h.ofPackage
  exact h.begun hm hv hpending hl hs

theorem Journaled.rewritten {journal : Journal} (status : Status)
    (P : Planned site pre journal.operations) (h : Journaled site pre journal t)
    (hc : Wrote site "runtime-transaction.json" (.journal (journal.withStatus status)) t c) :
    Journaled site pre (journal.withStatus status) c :=
  ⟨hc.dirs, undoable_of_outside P h.undoable fun _ hq => hc.outside hq, _, hc.holds⟩

theorem Journaled.unstaged {journal : Journal} (P : Planned site pre journal.operations)
    (hv : Comparable tx.version) (h : Journaled site pre journal t)
    (hc : Pruned (site.staging tx.version) t c) : Journaled site pre journal c := by
  have hout : ∀ q, ¬ site.updates <+: q → c.node q = t.node q := fun q hq =>
    (hc q).resolve_right fun hp => hq ((updates_prefix_staging hv).trans hp.1)
  have hquiet : Quiet site t c := fun q hq =>
    (hc q).resolve_right fun hp => not_staging_private hv hp.1 hq
  refine h.of_quiet (h.undoable.congr P.layout ?_ ?_) hquiet
  · exact fun q hq => hout q fun hp => hq ⟨_, by decide, hp⟩
  · intro s hs q hq
    obtain ⟨op, hop, rfl⟩ := List.mem_map.mp hs
    refine hout q fun hp => ?_
    have hp' : site.updates <+: site.backup op.path := hp.trans hq
    rw [Site.backup_eq (P.admitted op hop).safe] at hp'
    simp [Site.updates, Site.backupFiles, Site.backupRoot, Site.backups] at hp'

/-- An update that waits for its confirmation. -/
def Awaiting (site : Site) (pre : UpdateTree) (tx : Transaction) (t : UpdateTree) : Prop :=
  Journaled site pre (tx.journal .pendingHealth) t ∧ t.node site.runtimePending ≠ none

theorem Awaiting.progress (h : Awaiting site pre tx t) : Progress site pre tx t :=
  .pending h.1 (Or.inr h.2)

theorem Awaiting.of_outside (P : Planned site pre tx.operations) (h : Awaiting site pre tx t)
    (hd : OwnDirs site c) (hc : ∀ q, ¬ site.stateRoot <+: q → c.node q = t.node q)
    (hj : c.node site.journalFile = t.node site.journalFile)
    (hm : c.node site.runtimePending = t.node site.runtimePending) : Awaiting site pre tx c :=
  ⟨h.1.of_outside P hd hc hj, by rw [hm]; exact h.2⟩

/-- The end of `apply_runtime`, where the request and the staging directory go. -/
theorem wp_discard (P : Planned env pre tx.operations) (hv : Comparable tx.version)
    (h : Awaiting env pre tx t) :
    wp (do
        os (unlinkMissingOk env.requestFile)
        os (removePath env.order (env.staging tx.version)))
      (fun _ c => Awaiting env pre tx c ∧ c.node env.requestFile = none) (fun _ _ => False)
      (Awaiting env pre tx) t := by
  have herased : ∀ {f}, Erased env "request.json" t f → Awaiting env pre tx f := fun hf =>
    h.of_outside P hf.dirs (fun q hq => hf.outside hq) (hf.state (by decide)) (hf.state (by decide))
  rw [wp_bind]
  refine wp_mono (wp_unlinkState h.1.dirs (by decide : Visible "request.json")) ?_
    (fun _ _ h => h) (fun _ hf => herased hf)
  intro _ f hf
  obtain ⟨hjf, hmf⟩ := herased hf
  have hunstaged : ∀ {g}, Pruned (env.staging tx.version) f g →
      Awaiting env pre tx g ∧ g.node env.requestFile = none := by
    intro g hg
    have hstate : ∀ n : Name, g.node (env.stateRoot ++ [n]) = f.node (env.stateRoot ++ [n]) :=
      fun n => (hg _).resolve_right fun hp =>
        not_staging_private hv hp.1 (Or.inl (List.prefix_append _ _))
    have hm : g.node env.runtimePending = f.node env.runtimePending := hstate _
    exact ⟨⟨hjf.unstaged P hv hg, by rw [hm]; exact hmf⟩, (hstate _).trans hf.gone⟩
  have hlink : NoLinkAbove f (env.staging tx.version) := by
    apply OpenWay.noLinkAbove
    rw [staging_eq hv, List.dropLast_concat]
    exact hf.dirs.staging
  rw [os, wp_mapError]
  exact wp_mono (wp_removePath env.order (clean_staging env.toSite hv) hlink (by simp [staging_eq hv]))
    (fun _ _ hg => hunstaged hg.pruned) (fun _ _ h => h) (fun _ hg => (hunstaged hg).1)

theorem wp_finishRuntime (P : Planned env pre tx.operations) (hv : Comparable tx.version)
    (hstaging : tx.staging = env.staging tx.version)
    (h : Journaled env pre (tx.journal .applying) t) (hnone : t.node env.runtimePending = none) :
    wp (finishRuntime env tx)
      (fun _ c => Awaiting env pre tx c ∧ c.node env.requestFile = none) (fun _ _ => False)
      (Progress env pre tx) t := by
  have hmarker : Visible "runtime-pending.json" := by decide
  have hbetween : ∀ {d}, Journaled env pre (tx.journal .pendingHealth) d →
      d.node env.runtimePending = none → Progress env pre tx d := by
    intro d hd hn
    exact .between ⟨hd.dirs, hd.holds, hn, fun hs => absurd hs (by decide)⟩
  have hwritten : ∀ {d}, Wrote env "runtime-transaction.json"
      (.journal (tx.journal .pendingHealth)) t d →
      Journaled env pre (tx.journal .pendingHealth) d ∧ d.node env.runtimePending = none :=
    fun hd => ⟨h.rewritten .pendingHealth P hd, (hd.state (by decide) hmarker).trans hnone⟩
  rw [finishRuntime, wp_bind]
  refine wp_mono (wp_atomicJson h.dirs (by decide : Visible "runtime-transaction.json") _) ?_
    (fun _ _ h => h) ?_
  · intro _ d hd
    obtain ⟨hjd, hnd⟩ := hwritten hd
    have hmarked : ∀ {e}, Wrote env "runtime-pending.json" (.pending tx.version tx.packageSha256) d e →
        Awaiting env pre tx e := by
      intro e he
      have hholds : e.node env.runtimePending ≠ none := by
        rw [Site.runtimePending, he.holds]
        simp
      exact ⟨hjd.of_outside P he.dirs (fun q hq => he.outside hq) (he.state (by decide) (by decide)),
        hholds⟩
    rw [wp_bind]
    refine wp_mono (wp_atomicJson hd.dirs hmarker _) ?_ (fun _ _ h => h) ?_
    · intro _ e he
      rw [hstaging]
      exact wp_mono (wp_discard P hv (hmarked he)) (fun _ _ h => h) (fun _ _ h => h)
        (fun _ hc => hc.progress)
    · intro e he
      cases he with
      | inl he =>
        refine hbetween (hjd.of_outside P he.dirs (fun q hq => he.outside hq) ?_) ?_
        · exact he.state (by decide)
        · exact (he.state hmarker).trans hnd
      | inr he => exact (hmarked he.1).progress
  · intro d hd
    cases hd with
    | inl hd =>
      have hjd : Journaled env pre (tx.journal .applying) d :=
        h.of_outside P hd.dirs (fun q hq => hd.outside hq) (hd.state (by decide))
      exact .pending hjd (Or.inl rfl)
    | inr hd => exact hbetween (hwritten hd.1).1 (hwritten hd.1).2

theorem wp_installRuntime (h : Begun env pre tx s) :
    wp (installRuntime env tx)
      (fun _ c => Awaiting env pre tx c ∧ c.node env.requestFile = none)
      (fun _ => Progress env pre tx) (Progress env pre tx) s := by
  have P := h.planned
  rw [installRuntime, wp_bind]
  refine wp_mono (wp_applyOperations h) ?_ ?_ (fun _ hc => .of_unconfirmed P hc.1)
  · rintro - c ⟨hc, hq⟩
    have hj : Journaled env pre (tx.journal .applying) c := h.journaled.of_quiet hc.undoable hq
    have hnone : c.node env.runtimePending = none :=
      (hq _ (Or.inl (List.prefix_append _ _))).trans h.noPending
    rw [wp_bind]
    refine wp_mono (wp_finishRuntime P h.comparable h.staging hj hnone) ?_ (fun _ _ h => h.elim)
      (fun _ h => h)
    exact fun _ _ hd => (wp_pure _).mpr hd
  · rintro exc c ⟨hc, hn, -⟩
    exact .of_unconfirmed P (Or.inr ⟨hc, hn⟩)

end Planning

end PlumosBubble.Update
