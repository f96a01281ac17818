import Mathlib.Logic.Relation
import PlumosBubble.Update.Commands

/-! Runs of the updater's commands, each of them cut anywhere or run to its end, and what
becomes of an update in them: until `mark_healthy` has confirmed it the next
`apply_pending` undoes it, and afterwards none does. Both fail when the power is cut
between two writes that belong together. -/

namespace PlumosBubble.Update

open Crash FileSystem

/-! ### Runs -/

/-- `apply_pending` from `t` planned `tx` on `pre`, got its journal written, and ended in
`c`. -/
def Begins (env : Env) (t pre : UpdateTree) (tx : Transaction) (c : UpdateTree) : Prop :=
  ∃ entered written, Returns (enterPending env) t () entered ∧
    Returns (planPending env) entered (some tx) pre ∧
    Returns (journalWrite env (tx.journal .applying)) pre () written ∧
    Ends (installRuntime env tx) written c

/-- An installation in time: its tree, the last update that began with the tree it began
on, and whether a request was written after that. -/
structure World where
  tree : UpdateTree
  last : Option (UpdateTree × Transaction)
  requested : Bool

/-- One command, which may find another inbox and another System each time. -/
inductive Step (site : Site) : World → World → Prop
  | request {w : World} {c : UpdateTree} (env : Env) (henv : env.toSite = site) (path : Text)
      (h : Ends (request env path) w.tree c) :
      Step site w ⟨c, w.last,
        w.requested || decide (c.node site.requestFile ≠ w.tree.node site.requestFile)⟩
  | markHealthy {w : World} {c : UpdateTree} (env : Env) (henv : env.toSite = site)
      (h : Ends (markHealthy env) w.tree c) : Step site w ⟨c, w.last, w.requested⟩
  | applyPending {w : World} {c : UpdateTree} (env : Env) (henv : env.toSite = site)
      (h : Ends (applyPending env) w.tree c) (hnone : ∀ pre tx, ¬ Begins env w.tree pre tx c) :
      Step site w ⟨c, w.last, w.requested⟩
  | update {w : World} {pre c : UpdateTree} {tx : Transaction} (env : Env)
      (henv : env.toSite = site) (h : Begins env w.tree pre tx c) :
      Step site w ⟨c, some (pre, tx), false⟩

/-- An installation that never saw the updater. -/
structure Fresh (site : Site) (t : UpdateTree) : Prop where
  dirs : OwnDirs site t
  noJournal : t.node site.journalFile = none
  noMarker : t.node site.runtimePending = none

/-- The worlds that runs reach through worlds that all satisfy `ok`. -/
inductive Reachable (site : Site) (ok : World → Prop) : World → Prop
  | fresh {t : UpdateTree} (h : Fresh site t) : Reachable site ok ⟨t, none, false⟩
  | step {w w' : World} (h : Reachable site ok w) (hstep : Step site w w') (hok : ok w') :
      Reachable site ok w'

/-- `mark_healthy` has written `healthy`. -/
def Confirmed (site : Site) (t : UpdateTree) : Prop :=
  ∃ journal, Holds site journal t ∧ journal.status = .healthy

/-- The journal says `pending_health` and there is no marker yet. -/
def BetweenWrites (site : Site) (t : UpdateTree) : Prop :=
  ∃ journal, Holds site journal t ∧ journal.status = .pendingHealth ∧ t.node site.runtimePending = none

/-- The last update's paths are reached through no link. -/
def World.LinkFree (site : Site) (w : World) : Prop :=
  ∀ pre tx, w.last = some (pre, tx) → Update.LinkFree site pre tx

/-- No power cut fell between `pending_health` and the marker. -/
structure Gated (site : Site) (w : World) : Prop where
  linkFree : w.LinkFree site
  marked : ¬ BetweenWrites site w.tree

/-- No power cut fell between `healthy` and the removal of the marker, or between the
marker and the removal of the request. -/
structure Sealed (site : Site) (w : World) : Prop where
  linkFree : w.LinkFree site
  unmarked : Confirmed site w.tree → w.tree.node site.runtimePending = none
  served : w.requested = false → w.tree.node site.runtimePending ≠ none →
    w.tree.node site.requestFile = none

/-! ### The invariant -/

/-- What is known of the last update: nothing was ever installed, or it is not confirmed,
or it is and recovery leaves it alone. -/
inductive Tracked (site : Site) (last : Option (UpdateTree × Transaction)) (t : UpdateTree) : Prop
  | fresh (none : last = none) (fresh : Fresh site t)
  | progress {pre : UpdateTree} {tx : Transaction} (some : last = some (pre, tx))
      (planned : Planned site pre tx.operations) (progress : Progress site pre tx t)
  | confirmed {pre : UpdateTree} {tx : Transaction} (some : last = some (pre, tx))
      (planned : Planned site pre tx.operations) (standing : Standing site pre tx .healthy t)

/-- The same where there is nothing to recover. -/
inductive Resting (site : Site) (last : Option (UpdateTree × Transaction)) (t : UpdateTree) : Prop
  | fresh (none : last = none) (fresh : Fresh site t)
  | standing {pre : UpdateTree} {tx : Transaction} {status : Status} (some : last = some (pre, tx))
      (planned : Planned site pre tx.operations) (status_ne : status ≠ .applying)
      (standing : Standing site pre tx status t)

/-- Nothing live differs, nor do the journal, the marker and the request. -/
structure Undisturbed (site : Site) (t c : UpdateTree) : Prop where
  dirs : OwnDirs site c
  journal : c.node site.journalFile = t.node site.journalFile
  marker : c.node site.runtimePending = t.node site.runtimePending
  request : c.node site.requestFile = t.node site.requestFile
  live : ∀ q, ¬ site.Own q → c.node q = t.node q

section Invariant

variable {env : Env} {site : Site} {last : Option (UpdateTree × Transaction)}
  {pre t c s : UpdateTree} {tx : Transaction}

theorem Fresh.idle (h : Fresh site t) : Idle site t := ⟨h.dirs, h.noMarker, Or.inl h.noJournal⟩

theorem Resting.idle (h : Resting site last t) : Idle site t := by
  cases h with
  | fresh _ h => exact h.idle
  | standing _ _ hs h => exact h.idle hs

theorem Resting.tracked (h : Resting site last t) : Tracked site last t := by
  cases h with
  | fresh hl h => exact .fresh hl h
  | @standing pre tx status hl P hs h =>
    cases status with
    | applying => exact absurd rfl hs
    | pendingHealth => exact .progress hl P (.between h)
    | healthy => exact .confirmed hl P h
    | rolledBack => exact .progress hl P (.undone h)

theorem Resting.congr (h : Resting site last t) (hc : Undisturbed site t c) :
    Resting site last c := by
  cases h with
  | fresh hl h => exact .fresh hl ⟨hc.dirs, hc.journal.trans h.noJournal, hc.marker.trans h.noMarker⟩
  | standing hl P hs h => exact .standing hl P hs (h.congr P hc.dirs hc.journal hc.marker hc.live)

theorem Tracked.of_kept (h : Tracked site last t) (hc : Kept site t c) : Tracked site last c := by
  cases h with
  | fresh hl h =>
    exact .fresh hl ⟨hc.dirs, hc.journal.trans h.noJournal, hc.marker.trans h.noMarker⟩
  | progress hl P h => exact .progress hl P (h.of_kept P hc)
  | confirmed hl P h => exact .confirmed hl P (h.of_kept P hc)

theorem Progress.dirs (h : Progress site pre tx t) : OwnDirs site t := by
  cases h with
  | pending hj _ => exact hj.dirs
  | between h => exact h.dirs
  | undone h => exact h.dirs

theorem Tracked.dirs (h : Tracked site last t) : OwnDirs site t := by
  cases h with
  | fresh _ h => exact h.dirs
  | progress _ _ h => exact h.dirs
  | confirmed _ _ h => exact h.dirs

theorem Tracked.journaled (h : Tracked site last t) (hm : t.node site.runtimePending ≠ none) :
    ∃ pre tx status, last = some (pre, tx) ∧ Planned site pre tx.operations ∧
      Journaled site pre (tx.journal status) t := by
  cases h with
  | fresh _ h => exact absurd h.noMarker hm
  | progress hl P h =>
    cases h with
    | pending hj _ => exact ⟨_, _, _, hl, P, hj⟩
    | between h => exact absurd h.noMarker hm
    | undone h => exact absurd h.noMarker hm
  | confirmed _ _ h => exact absurd h.noMarker hm

theorem Progress.not_confirmed (h : Progress site pre tx t)
    (hm : t.node site.runtimePending = none) : ¬ Confirmed site t := by
  rintro ⟨journal, hholds, hs⟩
  have hne : ∀ status, Holds site (tx.journal status) t → status ≠ .healthy → False := by
    intro status h hstatus
    obtain rfl := hholds.unique h
    exact hstatus hs
  cases h with
  | pending hj hp => exact hne _ hj.holds (by rw [hp.resolve_right fun h => h hm]; decide)
  | between h => exact hne _ h.holds (by decide)
  | undone h => exact hne _ h.holds (by decide)

theorem Tracked.resting (h : Tracked site last t) (hc : Confirmed site t)
    (hm : t.node site.runtimePending = none) : Resting site last t := by
  cases h with
  | fresh hl h => exact .fresh hl h
  | progress _ _ h => exact absurd hc (h.not_confirmed hm)
  | confirmed hl P h => exact .standing hl P (by decide) h

theorem Unchanged.undisturbed (h : Unchanged site t c) : Undisturbed site t c :=
  ⟨h.dirs, h.state (by decide), h.state (by decide), h.state (by decide),
    fun _ hq => h.outside fun hp => hq (Site.own_of_stateRoot hp)⟩

theorem Prepared.undisturbed (h : Prepared site t c) : Undisturbed site t c :=
  ⟨h.dirs, h.state (List.prefix_append _ _), h.state (List.prefix_append _ _),
    h.state (List.prefix_append _ _), fun _ hq => h.live hq⟩

theorem Undisturbed.trans {d : UpdateTree} (h : Undisturbed site t c) (h' : Undisturbed site c d) :
    Undisturbed site t d :=
  ⟨h'.dirs, h'.journal.trans h.journal, h'.marker.trans h.marker, h'.request.trans h.request,
    fun q hq => (h'.live q hq).trans (h.live q hq)⟩

end Invariant

/-! ### Steps -/

section Steps

variable {env : Env} {site : Site} {last : Option (UpdateTree × Transaction)}
  {pre t c s : UpdateTree} {tx : Transaction} {w w' : World}

/-- No request is served or written, and nothing confirmed. -/
structure Recovering (site : Site) (t c : UpdateTree) : Prop where
  request : c.node site.requestFile = t.node site.requestFile
  confirmed : c.node site.runtimePending = none → Confirmed site c → Confirmed site t

theorem Undisturbed.recovering (h : Undisturbed site t c) : Recovering site t c :=
  ⟨h.request, fun _ hc => hc.imp fun _ hj => ⟨hj.1.congr h.journal.symm, hj.2⟩⟩

theorem Recovering.trans {d : UpdateTree} (h : Recovering site t c) (h' : Undisturbed site c d) :
    Recovering site t d :=
  ⟨h'.request.trans h.request, fun hm hc =>
    h.confirmed (h'.marker.symm.trans hm) (h'.recovering.confirmed hm hc)⟩

theorem wp_enterPending_tracked (h : Tracked env last t) :
    wp (enterPending env) (fun _ c => Resting env last c ∧ Recovering env t c) (fun _ _ => False)
      (fun c => Tracked env last c ∧ Recovering env t c) t := by
  have hidle : ∀ {t}, Resting env last t → wp (enterPending env)
      (fun _ c => Resting env last c ∧ Recovering env t c) (fun _ _ => False)
      (fun c => Tracked env last c ∧ Recovering env t c) t := by
    intro t h
    refine wp_mono (wp_enterPending_idle h.idle) ?_ (fun _ _ h => h) ?_
    · exact fun _ c hc => ⟨h.congr hc.undisturbed, hc.undisturbed.recovering⟩
    · exact fun c hc => ⟨(h.congr hc.undisturbed).tracked, hc.undisturbed.recovering⟩
  cases h with
  | fresh hl h => exact hidle (.fresh hl h)
  | confirmed hl P h => exact hidle (.standing hl P (by decide) h)
  | @progress pre tx hl P h =>
    refine wp_mono (wp_enterPending P h) ?_ (fun _ _ h => h) ?_
    · rintro - c ⟨hc, hreq⟩
      have hp : Progress env pre tx c ∧ Resting env last c := by
        cases hc with
        | between _ hc => exact ⟨.between hc, .standing hl P (by decide) hc⟩
        | undone hc => exact ⟨.undone hc, .standing hl P (by decide) hc⟩
      exact ⟨hp.2, hreq, fun hm hc => absurd hc (hp.1.not_confirmed hm)⟩
    · rintro c ⟨hc, hreq⟩
      exact ⟨.progress hl P hc, hreq, fun hm h => absurd h (hc.not_confirmed hm)⟩

theorem journalWrite_ends {journal : Journal} (h : OwnDirs env t)
    (he : Ends (journalWrite env journal) t c) :
    Unchanged env t c ∨ Returns (journalWrite env journal) t () c := by
  have hwp := wp_atomicJson h (by decide : Visible "runtime-transaction.json") (.journal journal)
  cases he with
  | inl hc =>
    have hstart : Unchanged env t t := ⟨h, fun _ _ => rfl⟩
    exact (cut_of_wp hwp (Or.inl hstart) hc).imp id And.right
  | inr hc =>
    obtain ⟨⟨⟩, d, hd, -⟩ := returns_of_wp hwp
    exact Or.inr ⟨hd.1, hc⟩

/-- The part of `apply_pending` after the recovery, where no update begins. -/
theorem planned_ends (h : Resting env last t)
    (he : Ends (planPending env >>= commitPlanned env) t c)
    (hnone : ∀ pre tx written, Returns (planPending env) t (some tx) pre →
      Returns (journalWrite env (tx.journal .applying)) pre () written →
      ¬ Ends (installRuntime env tx) written c) : Undisturbed env t c := by
  have hwp := wp_planPending h.idle.dirs h.idle.noMarker
  rcases ends_bind he with he | ⟨planned, pre, hplanned, he⟩
  · have hc : Prepared env t c := ends_of_wp hwp (.refl h.idle.dirs) (fun _ _ h => h.1)
      (fun _ _ h => h) (fun _ h => h) he
    exact hc.undisturbed
  · obtain ⟨hprep, -⟩ := wp_returns hwp hplanned
    cases planned with
    | none =>
      have hc : c = pre := by
        simpa [Ends, Cut, commitPlanned, pure, Prog.pure, eq_comm] using he
      exact hc ▸ hprep.undisturbed
    | some tx =>
      have hjournal : Ends (journalWrite env (tx.journal .applying)) pre c → Undisturbed env t c := by
        intro he
        cases journalWrite_ends hprep.dirs he with
        | inl hc => exact hprep.undisturbed.trans hc.undisturbed
        | inr hc => exact absurd (Or.inl (Or.inl rfl)) (hnone pre tx c hplanned hc)
      rcases ends_bind he with he | ⟨_, s, hs, he⟩
      · exact hjournal he
      · exact absurd he (hnone pre tx s hplanned hs)

/-- An `apply_pending` with which no update begins. -/
theorem applyPending_unbegun (h : Tracked env last t) (he : Ends (applyPending env) t c)
    (hnone : ∀ pre tx, ¬ Begins env t pre tx c) :
    Tracked env last c ∧ Recovering env t c := by
  have hwp := wp_enterPending_tracked h
  rw [applyPending_eq] at he
  rcases ends_bind he with he | ⟨_, e, hentered, he⟩
  · exact ends_of_wp (P := fun c => Tracked env last c ∧ Recovering env t c) hwp
      ⟨h, rfl, fun _ h => h⟩ (fun _ _ h => ⟨h.1.tracked, h.2⟩) (fun _ _ h => h.elim) (fun _ h => h) he
  · obtain ⟨hrest, hreq⟩ := wp_returns hwp hentered
    have hc := planned_ends hrest he fun pre tx written h1 h2 h3 =>
      hnone pre tx ⟨e, written, hentered, h1, h2, h3⟩
    exact ⟨(hrest.congr hc).tracked, hreq.trans hc⟩

theorem applyPending_undisturbed (h : Resting env last t) (he : Ends (applyPending env) t c)
    (hnone : ∀ pre tx, ¬ Begins env t pre tx c) : Undisturbed env t c := by
  have hwp := wp_enterPending_idle h.idle
  rw [applyPending_eq] at he
  rcases ends_bind he with he | ⟨_, e, hentered, he⟩
  · have hc : Unchanged env t c := ends_of_wp hwp ⟨h.idle.dirs, fun _ _ => rfl⟩ (fun _ _ h => h)
      (fun _ _ h => h.elim) (fun _ h => h) he
    exact hc.undisturbed
  · have hentered' : Undisturbed env t e := (wp_returns hwp hentered).undisturbed
    exact hentered'.trans (planned_ends (h.congr hentered') he fun pre tx written h1 h2 h3 =>
      hnone pre tx ⟨e, written, hentered, h1, h2, h3⟩)

theorem begins_progress (h : Tracked env last t) (hb : Begins env t pre tx c)
    (hl : LinkFree env pre tx) :
    Planned env pre tx.operations ∧ Progress env pre tx c ∧ t.node env.requestFile ≠ none := by
  obtain ⟨e, s, hentered, hplanned, hwritten, hc⟩ := hb
  obtain ⟨hrest, hreq⟩ := wp_returns (wp_enterPending_tracked h) hentered
  obtain ⟨-, hp⟩ := wp_returns (wp_planPending hrest.idle.dirs hrest.idle.noMarker) hplanned
  obtain ⟨hp, hrequested⟩ := hp tx rfl
  have hs := wp_returns (wp_atomicJson hp.prepared.dirs (by decide) _) hwritten
  have hbegun := hp.begun hrest.idle.noMarker hl hs
  have hstart : Progress env pre tx s := .pending hbegun.journaled (Or.inl rfl)
  have hprogress : Progress env pre tx c := ends_of_wp (wp_installRuntime hbegun) hstart
    (fun _ _ h => h.1.progress) (fun _ _ h => h) (fun _ h => h) hc
  exact ⟨hbegun.planned, hprogress, hreq.request ▸ hrequested⟩

theorem request_ends {path : Text} (h : OwnDirs env t) (he : Ends (request env path) t c) :
    Kept env t c :=
  ends_of_wp (wp_request h path) (.refl h) (fun _ _ h => h) (fun _ _ h => h) (fun _ h => h) he

theorem markHealthy_ends (h : Tracked env last t) (he : Ends (markHealthy env) t c) :
    Marked env t c := by
  have hj : t.node env.runtimePending ≠ none → ∃ journal, Holds env journal t := by
    intro hm
    obtain ⟨_, _, _, -, -, hj⟩ := h.journaled hm
    exact ⟨_, hj.holds⟩
  exact ends_of_wp (wp_markHealthy h.dirs hj) (.refl h.dirs) (fun _ _ h => h) (fun _ _ h => h)
    (fun _ h => h) he

theorem Marked.tracked (h : Tracked site last t) (hc : Marked site t c) : Tracked site last c := by
  rcases hc.change with ⟨hj, hm⟩ | ⟨journal, hholds, hmarker, hhealthy, hm⟩
  · exact h.of_kept ⟨hc.dirs, hc.outside, hj, hm⟩
  · obtain ⟨pre, tx, status, hl, P, hjournaled⟩ := h.journaled hmarker
    obtain rfl := Holds.unique hholds hjournaled.holds
    have hhealthy' : Holds site (tx.journal .healthy) c := hhealthy
    cases hm with
    | inl hm =>
      refine .progress hl P (.pending ⟨hc.dirs, ?_, hhealthy'⟩ (Or.inr (hm ▸ hmarker)))
      exact undoable_of_outside P hjournaled.undoable hc.outside
    | inr hm => exact .confirmed hl P ⟨hc.dirs, hhealthy', hm, fun hs => absurd hs (by decide)⟩

theorem Step.tracked (hs : Step site w w') (h : Tracked site w.last w.tree)
    (hl : w'.LinkFree site) : Tracked site w'.last w'.tree := by
  cases hs with
  | request env henv path he =>
    subst henv
    exact h.of_kept (request_ends h.dirs he)
  | markHealthy env henv he =>
    subst henv
    exact (markHealthy_ends h he).tracked h
  | applyPending env henv he hnone =>
    subst henv
    exact (applyPending_unbegun h he hnone).1
  | update env henv hb =>
    subst henv
    obtain ⟨P, hp, -⟩ := begins_progress h hb (hl _ _ rfl)
    exact .progress rfl P hp

theorem Reachable.tracked {ok : World → Prop} (h : Reachable site ok w)
    (hok : ∀ w, ok w → w.LinkFree site) : Tracked site w.last w.tree := by
  induction h with
  | fresh h => exact .fresh rfl h
  | step _ hstep hw ih => exact hstep.tracked ih (hok _ hw)

end Steps

theorem Reachable.ofRequest {env : Env} {ok : World → Prop} {path : Text} {t requested pre c : UpdateTree}
    {tx : Transaction} (hfresh : Fresh env t) (hrequested : Ends (request env path) t requested)
    (hnew : requested.node env.requestFile ≠ t.node env.requestFile)
    (hbegins : Begins env requested pre tx c) (h1 : ok ⟨requested, none, true⟩)
    (h2 : ok ⟨c, some (pre, tx), false⟩) : Reachable env ok ⟨c, some (pre, tx), false⟩ := by
  have hs : Step env ⟨t, none, false⟩ ⟨requested, none, true⟩ := by
    have hs := Step.request (w := ⟨t, none, false⟩) env rfl path hrequested
    rwa [decide_eq_true hnew, Bool.or_true] at hs
  exact ((Reachable.fresh hfresh).step hs h1).step (.update env rfl hbegins) h2

theorem World.linkFree_of_none {site : Site} {t : UpdateTree} {requested : Bool} :
    World.LinkFree site ⟨t, none, requested⟩ :=
  fun _ _ h => absurd h (by simp)

theorem World.linkFree_of_some {site : Site} {t pre : UpdateTree} {tx : Transaction} {requested : Bool}
    (h : Update.LinkFree site pre tx) : World.LinkFree site ⟨t, some (pre, tx), requested⟩ := by
  intro pre' tx' hlast
  obtain ⟨rfl, rfl⟩ := Prod.mk.inj (Option.some.inj hlast)
  exact h

theorem not_confirmed_of_node {site : Site} {t : UpdateTree} {tx : Transaction} {status : Status}
    {m : ℕ} (h : t.node site.journalFile = some (.file (.record (.journal (tx.journal status))) m))
    (hs : status ≠ .healthy) : ¬ Confirmed site t := by
  rintro ⟨_, hj, hhealthy⟩
  rw [hj.unique ⟨m, h⟩] at hhealthy
  exact hs hhealthy

theorem confirmed_of_node {site : Site} {t : UpdateTree} {tx : Transaction} {m : ℕ}
    (h : t.node site.journalFile = some (.file (.record (.journal (tx.journal .healthy))) m)) :
    Confirmed site t := ⟨_, ⟨m, h⟩, rfl⟩

theorem gated_of_none {site : Site} {t : UpdateTree} {requested : Bool}
    (h : t.node site.journalFile = none) : Gated site ⟨t, none, requested⟩ := by
  refine ⟨World.linkFree_of_none, ?_⟩
  rintro ⟨_, ⟨_, hj⟩, -⟩
  exact absurd (h.symm.trans hj) (by simp)

theorem gated_of_marker {site : Site} {t pre : UpdateTree} {tx : Transaction} {requested : Bool}
    (hl : Update.LinkFree site pre tx) (hm : t.node site.runtimePending ≠ none) :
    Gated site ⟨t, some (pre, tx), requested⟩ :=
  ⟨World.linkFree_of_some hl, fun ⟨_, _, _, h⟩ => hm h⟩

/-! ### A sample run -/

/-- The sample's package is requested, -/
def sampleRequested : UpdateTree := (request sampleEnv sampleName).stateAfter sampleTree

def sampleEntered : UpdateTree := (enterPending sampleEnv).stateAfter sampleRequested

def samplePlanned : UpdateTree := (planPending sampleEnv).stateAfter sampleEntered

def sampleUpdate : Transaction :=
  match (planPending sampleEnv sampleEntered).result with
  | .ok (some tx) => tx
  | _ => ⟨[], [], [], []⟩

def sampleWritten : UpdateTree :=
  (journalWrite sampleEnv (sampleUpdate.journal .applying)).stateAfter samplePlanned

/-- installed, -/
def sampleInstalled : UpdateTree := (installRuntime sampleEnv sampleUpdate).stateAfter sampleWritten

/-- and confirmed. -/
def sampleMarked : UpdateTree := (markHealthy sampleEnv).stateAfter sampleInstalled

theorem sampleTree_fresh : Fresh sampleSite sampleTree :=
  ⟨sampleTree_dirs, by decide +kernel, by decide +kernel⟩

theorem sampleRun : (sampleRequested.node sampleEnv.requestFile ≠
        sampleTree.node sampleEnv.requestFile ∧
      sampleRequested.node sampleEnv.journalFile = none ∧
      sampleRequested.node sampleEnv.runtimePending = none) ∧
    ((enterPending sampleEnv sampleRequested).result = .ok () ∧
      (planPending sampleEnv sampleEntered).result = .ok (some sampleUpdate) ∧
      (journalWrite sampleEnv (sampleUpdate.journal .applying) samplePlanned).result = .ok ()) ∧
    ((∀ op ∈ sampleUpdate.operations,
        NoLinkAbove samplePlanned (sampleEnv.target op.path)) ∧
      ∀ op ∈ sampleUpdate.operations,
        NoLinkAbove samplePlanned (joinPath sampleUpdate.staging op.path)) ∧
    sampleInstalled.node sampleEnv.runtimePending ≠ none ∧
    sampleInstalled.node sampleEnv.requestFile = none ∧
    sampleInstalled.node sampleEnv.journalFile =
      some (.file (.record (.journal (sampleUpdate.journal .pendingHealth))) 0o644) := by
  decide +kernel

theorem sampleRequested_written : sampleRequested.node sampleEnv.requestFile ≠
      sampleTree.node sampleEnv.requestFile ∧
    sampleRequested.node sampleEnv.journalFile = none ∧
    sampleRequested.node sampleEnv.runtimePending = none :=
  sampleRun.1

theorem sampleInstalled_marked : sampleInstalled.node sampleEnv.runtimePending ≠ none ∧
    sampleInstalled.node sampleEnv.requestFile = none ∧
    sampleInstalled.node sampleEnv.journalFile =
      some (.file (.record (.journal (sampleUpdate.journal .pendingHealth))) 0o644) :=
  sampleRun.2.2.2

theorem sampleRequested_ends : Ends (request sampleEnv sampleName) sampleTree sampleRequested := by
  unfold sampleRequested
  exact ends_stateAfter _ _

theorem sampleUpdate_begins {c : UpdateTree}
    (h : Ends (installRuntime sampleEnv sampleUpdate) sampleWritten c) :
    Begins sampleEnv sampleRequested samplePlanned sampleUpdate c := by
  obtain ⟨-, ⟨hentered, hplanned, hwritten⟩, -⟩ := sampleRun
  refine ⟨sampleEntered, sampleWritten, ?_, ?_, ?_, h⟩
  · unfold sampleEntered
    exact returns_stateAfter hentered
  · unfold samplePlanned
    exact returns_stateAfter hplanned
  · unfold sampleWritten
    exact returns_stateAfter hwritten

theorem sampleInstalled_ends :
    Ends (installRuntime sampleEnv sampleUpdate) sampleWritten sampleInstalled := by
  unfold sampleInstalled
  exact ends_stateAfter _ _

theorem sampleMarked_ends : Ends (markHealthy sampleEnv) sampleInstalled sampleMarked := by
  unfold sampleMarked
  exact ends_stateAfter _ _

attribute [irreducible] sampleRequested sampleEntered samplePlanned sampleUpdate sampleWritten
  sampleInstalled sampleMarked

theorem sampleUpdate_linkFree : LinkFree sampleEnv samplePlanned sampleUpdate :=
  ⟨sampleRun.2.2.1.1, sampleRun.2.2.1.2⟩

/-- The sample's run as far as the update's end, which is `c`. -/
theorem sample_reachable {ok : World → Prop} {c : UpdateTree}
    (h1 : ok ⟨sampleRequested, none, true⟩) (h2 : ok ⟨c, some (samplePlanned, sampleUpdate), false⟩)
    (h : Ends (installRuntime sampleEnv sampleUpdate) sampleWritten c) :
    Reachable sampleEnv ok ⟨c, some (samplePlanned, sampleUpdate), false⟩ :=
  Reachable.ofRequest sampleTree_fresh sampleRequested_ends sampleRequested_written.1
    (sampleUpdate_begins h) h1 h2

/-! ### An update that nobody confirmed -/

section Gate

variable {site : Site} {pre : UpdateTree} {tx : Transaction} {w w' : World}

/-- The next `apply_pending` that gets through its recovery has undone an update that is
not confirmed. -/
theorem unconfirmed_restored {env : Env} (h : Reachable site (Gated site) w)
    (hlast : w.last = some (pre, tx)) (hun : ¬ Confirmed site w.tree) (henv : env.toSite = site) :
    ∃ c, Returns (enterPending env) w.tree () c ∧ Restored site pre tx.operations c := by
  subst henv
  have htracked := h.tracked fun _ hw => hw.linkFree
  have hmarked : ¬ BetweenWrites env w.tree := by
    cases h with
    | fresh h => exact fun ⟨_, ⟨_, hm⟩, _⟩ => absurd (h.noJournal ▸ hm) (by simp)
    | step _ _ hok => exact hok.marked
  cases htracked with
  | fresh hl _ => exact absurd (hl.symm.trans hlast) (by simp)
  | confirmed _ _ h => exact absurd ⟨_, h.holds, rfl⟩ hun
  | progress hl P h =>
    obtain ⟨rfl, rfl⟩ := Prod.mk.inj (Option.some.inj (hl.symm.trans hlast))
    obtain ⟨⟨⟩, c, hc, hentered, -⟩ := returns_of_wp (wp_enterPending P h)
    refine ⟨c, hc, ?_⟩
    cases hentered with
    | between hb _ => exact absurd ⟨_, hb.holds, rfl, hb.noMarker⟩ hmarked
    | undone hs => exact hs.restored rfl

end Gate

/-- The sample's update runs to its end and nobody confirms it. -/
theorem unconfirmed_restored_sample : ∃ c, Returns (enterPending sampleEnv) sampleInstalled () c ∧
    Restored sampleEnv samplePlanned sampleUpdate.operations c := by
  -- for a variable end, which the kernel cannot evaluate
  have hrestored : ∀ t, Ends (installRuntime sampleEnv sampleUpdate) sampleWritten t →
      t.node sampleEnv.runtimePending ≠ none → ¬Confirmed sampleEnv t →
      ∃ c, Returns (enterPending sampleEnv) t () c ∧
        Restored sampleEnv samplePlanned sampleUpdate.operations c :=
    fun t ht hmarker hun => unconfirmed_restored (sample_reachable
      (gated_of_none sampleRequested_written.2.1) (gated_of_marker sampleUpdate_linkFree hmarker) ht)
      rfl hun rfl
  exact hrestored sampleInstalled sampleInstalled_ends sampleInstalled_marked.1
    (not_confirmed_of_node sampleInstalled_marked.2.2 (by decide))

/-- The power is cut between the two writes, -/
def sampleBetween : UpdateTree := (installRuntime sampleEnv sampleUpdate).cutAfter 9 sampleWritten

def sampleNextManifest : Manifest :=
  { sampleManifest with
    version := some "1.2.0".toList
    payloadUncompressedBytes := some 5
    files := some [sampleEntry "VERSION" "1.2.0"]
    delete := [] }

def sampleNextName : Text := "/storage/user/updates/plumos-bubble-runtime-1.2.0.tar.gz".toList

def sampleNextArchive : Archive where
  members := [⟨"META/manifest.json".toList, .file []⟩, ⟨"META/manifest.sig".toList, .file []⟩,
    ⟨"payload/VERSION".toList, .file "1.2.0".toList⟩]
  manifest := some sampleNextManifest
  signed := true

/-- a newer package is in the inbox -/
def sampleNextEnv : Env :=
  { sampleEnv with
    package := fun name => if name = sampleNextName then some ⟨"6b".toList, some sampleNextArchive⟩ else none
    underInbox := fun name => name = sampleNextName }

/-- and requested. -/
def sampleNextRequested : UpdateTree := (request sampleNextEnv sampleNextName).stateAfter sampleBetween

def sampleNextEntered : UpdateTree := (enterPending sampleNextEnv).stateAfter sampleNextRequested

def sampleNextApplied : UpdateTree := (applyPending sampleNextEnv).stateAfter sampleNextRequested

theorem sampleNext_applied : sampleNextRequested.node sampleNextEnv.journalFile =
      some (.file (.record (.journal (sampleUpdate.journal .pendingHealth))) 0o644) ∧
    (⟨"lib/x".toList, true, false⟩ : Operation) ∈ sampleUpdate.operations ∧
    (enterPending sampleNextEnv sampleNextRequested).result = .ok () ∧
    sampleNextEntered.node (sampleSite.target "lib/x".toList) ≠
      samplePlanned.node (sampleSite.target "lib/x".toList) ∧
    (applyPending sampleNextEnv sampleNextRequested).result = .ok 0 ∧
    sampleNextApplied.node (sampleSite.target "lib/x".toList) ≠
      samplePlanned.node (sampleSite.target "lib/x".toList) := by decide +kernel

theorem sampleBetween_ends :
    Ends (installRuntime sampleEnv sampleUpdate) sampleWritten sampleBetween := by
  unfold sampleBetween
  exact Or.inl (cut_cutAfter _ 9 _)

theorem sampleNextRequested_ends :
    Ends (request sampleNextEnv sampleNextName) sampleBetween sampleNextRequested := by
  unfold sampleNextRequested
  exact ends_stateAfter _ _

theorem sampleNext_returns : Returns (enterPending sampleNextEnv) sampleNextRequested () sampleNextEntered ∧
    Returns (applyPending sampleNextEnv) sampleNextRequested 0 sampleNextApplied := by
  obtain ⟨-, -, hentered, -, hzero, -⟩ := sampleNext_applied
  unfold sampleNextEntered sampleNextApplied
  exact ⟨returns_stateAfter hentered, returns_stateAfter hzero⟩

attribute [irreducible] sampleBetween sampleNextRequested sampleNextEntered sampleNextApplied

theorem Reachable.requestAgain {env : Env} {path : Text} {t c : UpdateTree} {requested : Bool}
    {last : Option (UpdateTree × Transaction)}
    (h : Reachable env (fun _ => True) ⟨t, last, requested⟩) (hc : Ends (request env path) t c) :
    ∃ requested', Reachable env (fun _ => True) ⟨c, last, requested'⟩ :=
  ⟨_, h.step (.request env rfl path hc) trivial⟩

theorem not_restored {site : Site} {pre c : UpdateTree} {operations : List Operation} {op : Operation}
    (hop : op ∈ operations) (h : c.node (site.target op.path) ≠ pre.node (site.target op.path)) :
    ¬ Restored site pre operations c :=
  fun hr => h (hr.1 op hop)

/-- `lib/x`, which the update deleted, is not put back: the next `apply_pending` returns 0
with the newer package installed over the unconfirmed one. -/
theorem unconfirmed_survives : ∃ t requested pre tx c d,
    Reachable sampleSite (fun _ => True) ⟨t, some (pre, tx), requested⟩ ∧ ¬ Confirmed sampleSite t ∧
      Returns (enterPending sampleNextEnv) t () c ∧ ¬ Restored sampleSite pre tx.operations c ∧
      Returns (applyPending sampleNextEnv) t 0 d ∧ ¬ Restored sampleSite pre tx.operations d := by
  obtain ⟨hjournal, hop, -, hentered, -, hend⟩ := sampleNext_applied
  have h2 : Reachable sampleNextEnv (fun _ => True)
      ⟨sampleBetween, some (samplePlanned, sampleUpdate), false⟩ :=
    sample_reachable trivial trivial sampleBetween_ends
  obtain ⟨requested, h3⟩ := Reachable.requestAgain h2 sampleNextRequested_ends
  refine ⟨sampleNextRequested, requested, samplePlanned, sampleUpdate, sampleNextEntered,
    sampleNextApplied, h3, ?_, sampleNext_returns.1, ?_, sampleNext_returns.2, ?_⟩
  · exact not_confirmed_of_node hjournal (by decide)
  · exact not_restored hop hentered
  · exact not_restored hop hend

/-! ### An update that was confirmed -/

section Durable

variable {site : Site} {w w' : World}

theorem Reachable.served (h : Reachable site (Sealed site) w) (hr : w.requested = false)
    (hm : w.tree.node site.runtimePending ≠ none) : w.tree.node site.requestFile = none := by
  cases h with
  | fresh h => exact absurd h.noMarker hm
  | step _ _ hok => exact hok.served hr hm

theorem Reachable.unmarked (h : Reachable site (Sealed site) w) (hc : Confirmed site w.tree) :
    w.tree.node site.runtimePending = none := by
  cases h with
  | fresh h => exact h.noMarker
  | step _ _ hok => exact hok.unmarked hc

theorem Reachable.noStaleRequest (h : Reachable site (Sealed site) w) (hc : Confirmed site w.tree)
    (hr : w.requested = false) : w.tree.node site.requestFile = none := by
  induction h with
  | fresh h =>
    obtain ⟨_, ⟨_, hm⟩, _⟩ := hc
    exact absurd (h.noJournal ▸ hm) (by simp)
  | @step w w' hw hstep hok ih =>
    have htracked := hw.tracked fun _ hw => hw.linkFree
    cases hstep with
    | request env henv path he =>
      subst henv
      have hkept := request_ends htracked.dirs he
      simp only [Bool.or_eq_false_iff, decide_eq_false_iff_not, ne_eq, not_not] at hr
      have hbefore : Confirmed env w.tree :=
        hc.imp fun _ hj => ⟨hj.1.congr hkept.journal.symm, hj.2⟩
      exact hr.2.trans (ih hbefore hr.1)
    | markHealthy env henv he =>
      subst henv
      have hm := markHealthy_ends htracked he
      refine hm.request.trans ?_
      rcases hm.change with ⟨hj, -⟩ | ⟨_, -, hmarker, -⟩
      · exact ih (hc.imp fun _ h => ⟨h.1.congr hj.symm, h.2⟩) hr
      · exact hw.served hr hmarker
    | applyPending env henv he hnone =>
      subst henv
      obtain ⟨-, hrec⟩ := applyPending_unbegun htracked he hnone
      exact hrec.request.trans (ih (hrec.confirmed (hok.unmarked hc) hc) hr)
    | update env henv hb =>
      subst henv
      obtain ⟨-, hp, -⟩ := begins_progress htracked hb (hok.linkFree _ _ rfl)
      exact absurd hc (hp.not_confirmed (hok.unmarked hc))

/-- A step in which no request is applied that was written after the last update began. -/
def Calm (site : Site) (w w' : World) : Prop :=
  Step site w w' ∧ Sealed site w' ∧
    (w.requested = true → ∀ env pre tx, env.toSite = site → ¬ Begins env w.tree pre tx w'.tree)

/-- Nothing live differs, nor does the journal. -/
structure Durable (site : Site) (w w' : World) : Prop where
  last : w'.last = w.last
  journal : w'.tree.node site.journalFile = w.tree.node site.journalFile
  live : ∀ q, ¬ site.Own q → w'.tree.node q = w.tree.node q

theorem Calm.durable (h : Reachable site (Sealed site) w) (hc : Confirmed site w.tree)
    (hs : Calm site w w') : Durable site w w' := by
  have htracked := h.tracked fun _ hw => hw.linkFree
  have hlive : ∀ {t c : UpdateTree}, (∀ q, ¬ site.stateRoot <+: q → c.node q = t.node q) →
      ∀ q, ¬ site.Own q → c.node q = t.node q :=
    fun ho q hq => ho q fun hp => hq (Site.own_of_stateRoot hp)
  obtain ⟨hstep, -, hnewer⟩ := hs
  cases hstep with
  | request env henv path he =>
    subst henv
    have hkept := request_ends htracked.dirs he
    exact ⟨rfl, hkept.journal, hlive hkept.outside⟩
  | markHealthy env henv he =>
    subst henv
    have hm := markHealthy_ends htracked he
    refine ⟨rfl, ?_, hlive hm.outside⟩
    exact (hm.change.resolve_right fun ⟨_, _, hmarker, _⟩ => hmarker (h.unmarked hc)).1
  | applyPending env henv he hnone =>
    subst henv
    have hu := applyPending_undisturbed (htracked.resting hc (h.unmarked hc)) he hnone
    exact ⟨rfl, hu.journal, hu.live⟩
  | update env henv hb =>
    subst henv
    cases hr : w.requested with
    | true => exact absurd hb (hnewer hr env _ _ rfl)
    | false =>
      obtain ⟨e, s, hentered, hplanned, -⟩ := hb
      have hrest := htracked.resting hc (h.unmarked hc)
      have hu := (wp_returns (wp_enterPending_idle hrest.idle) hentered).undisturbed
      have hidle := (hrest.congr hu).idle
      obtain ⟨-, hp⟩ := wp_returns (wp_planPending hidle.dirs hidle.noMarker) hplanned
      exact absurd (hu.request.trans (h.noStaleRequest hc hr)) (hp _ rfl).2

/-- A confirmed update stays as it is until a newer request is applied. -/
theorem confirmed_durable (h : Reachable site (Sealed site) w) (hc : Confirmed site w.tree)
    (hrun : Relation.ReflTransGen (Calm site) w w') :
    Durable site w w' ∧ ∀ journal, Holds site journal w.tree → ∀ op ∈ journal.operations,
      w'.tree.node (site.target op.path) = w.tree.node (site.target op.path) := by
  have key : Reachable site (Sealed site) w' ∧ Durable site w w' := by
    induction hrun with
    | refl => exact ⟨h, rfl, rfl, fun _ _ => rfl⟩
    | @tail v _ _ hs ih =>
      obtain ⟨hw, hd⟩ := ih
      have hc' : Confirmed site v.tree := hc.imp fun _ hj => ⟨hj.1.congr hd.journal, hj.2⟩
      have hd' := hs.durable hw hc'
      exact ⟨hw.step hs.1 hs.2.1, hd'.last.trans hd.last, hd'.journal.trans hd.journal,
        fun q hq => (hd'.live q hq).trans (hd.live q hq)⟩
  refine ⟨key.2, fun journal hj op hop => key.2.live _ ?_⟩
  have htracked := h.tracked fun _ hw => hw.linkFree
  cases htracked.resting hc (h.unmarked hc) with
  | fresh _ hf =>
    obtain ⟨_, hm⟩ := hj
    exact absurd (hf.noJournal.symm.trans hm) (by simp)
  | standing _ P _ hs =>
    rw [hj.unique hs.holds] at hop
    exact Site.not_own_target (P.admitted op hop)

end Durable

def sampleIdle : UpdateTree := (applyPending sampleEnv).stateAfter sampleMarked

/-- The power is cut between the journal's `healthy` and the removal of the marker. -/
def sampleHalfMarked : UpdateTree := (markHealthy sampleEnv).cutAfter 2 sampleInstalled

def sampleUndone : UpdateTree := (applyPending sampleEnv).stateAfter sampleHalfMarked

theorem sampleMarked_facts : (sampleMarked.node sampleEnv.journalFile =
        some (.file (.record (.journal (sampleUpdate.journal .healthy))) 0o644) ∧
      sampleMarked.node sampleEnv.runtimePending = none ∧
      (planPending sampleEnv ((enterPending sampleEnv).stateAfter sampleMarked)).result = .ok none ∧
      sampleIdle.node sampleEnv.runtimePending = none) ∧
    sampleHalfMarked.node sampleEnv.journalFile =
      some (.file (.record (.journal (sampleUpdate.journal .healthy))) 0o644) ∧
    (⟨"lib/x/y".toList, false, true⟩ : Operation) ∈ sampleUpdate.operations ∧
    (planPending sampleEnv ((enterPending sampleEnv).stateAfter sampleHalfMarked)).result = .ok none ∧
    sampleUndone.node (sampleSite.target "lib/x/y".toList) ≠
      sampleHalfMarked.node (sampleSite.target "lib/x/y".toList) := by
  decide +kernel

theorem sampleIdle_ends : Ends (applyPending sampleEnv) sampleMarked sampleIdle := by
  unfold sampleIdle
  exact ends_stateAfter _ _

attribute [irreducible] sampleIdle

theorem not_begins_of_none {env : Env} {t pre c : UpdateTree} {tx : Transaction}
    (h : (planPending env ((enterPending env).stateAfter t)).result = .ok none) :
    ¬ Begins env t pre tx c := by
  rintro ⟨e, s, ⟨-, rfl⟩, ⟨hp, -⟩, -, -⟩
  exact absurd (h.symm.trans hp) (by simp)

/-- `mark_healthy` in a sealed run. -/
theorem Reachable.confirm {env : Env} {t c : UpdateTree} {last : Option (UpdateTree × Transaction)}
    {requested : Bool} {ok : World → Prop} (h : Reachable env ok ⟨t, last, requested⟩)
    (hc : Ends (markHealthy env) t c) (hok : ok ⟨c, last, requested⟩) :
    Reachable env ok ⟨c, last, requested⟩ :=
  h.step (.markHealthy env rfl hc) hok

theorem Calm.ofIdle {env : Env} {t c pre : UpdateTree} {tx : Transaction}
    (hc : Ends (applyPending env) t c)
    (hnone : (planPending env ((enterPending env).stateAfter t)).result = .ok none)
    (hl : LinkFree env pre tx) (hm : c.node env.runtimePending = none) :
    Calm env ⟨t, some (pre, tx), false⟩ ⟨c, some (pre, tx), false⟩ :=
  ⟨.applyPending env rfl hc fun _ _ => not_begins_of_none hnone,
    ⟨World.linkFree_of_some hl, fun _ => hm, fun _ h => absurd hm h⟩, fun h => absurd h (by simp)⟩

theorem sealed_of_unmarked {site : Site} {t pre : UpdateTree} {tx : Transaction}
    (hl : LinkFree site pre tx) (hm : t.node site.runtimePending = none) :
    Sealed site ⟨t, some (pre, tx), false⟩ :=
  ⟨World.linkFree_of_some hl, fun _ => hm, fun _ h => absurd hm h⟩

theorem sealed_of_awaiting {site : Site} {t pre : UpdateTree} {tx : Transaction}
    (hl : LinkFree site pre tx) (hc : ¬ Confirmed site t) (hr : t.node site.requestFile = none) :
    Sealed site ⟨t, some (pre, tx), false⟩ :=
  ⟨World.linkFree_of_some hl, fun h => absurd h hc, fun _ _ => hr⟩

theorem sealed_of_none {site : Site} {t : UpdateTree} (hm : t.node site.runtimePending = none) :
    Sealed site ⟨t, none, true⟩ :=
  ⟨World.linkFree_of_none, fun _ => hm, fun h => absurd h (by simp)⟩

/-- The confirmed sample and an `apply_pending` that finds no request. -/
theorem confirmed_durable_sample :
    Durable sampleEnv ⟨sampleMarked, some (samplePlanned, sampleUpdate), false⟩
      ⟨sampleIdle, some (samplePlanned, sampleUpdate), false⟩ ∧
    ∀ journal, Holds sampleEnv journal sampleMarked → ∀ op ∈ journal.operations,
      sampleIdle.node (sampleSite.target op.path) = sampleMarked.node (sampleSite.target op.path) := by
  obtain ⟨hjournal, hmarker, hplanned, hafter⟩ := sampleMarked_facts.1
  have hawait : ¬ Confirmed sampleEnv sampleInstalled :=
    not_confirmed_of_node sampleInstalled_marked.2.2 (by decide)
  have h2 : Reachable sampleEnv (Sealed sampleEnv)
      ⟨sampleInstalled, some (samplePlanned, sampleUpdate), false⟩ :=
    sample_reachable (sealed_of_none sampleRequested_written.2.2)
      (sealed_of_awaiting sampleUpdate_linkFree hawait sampleInstalled_marked.2.1) sampleInstalled_ends
  have h3 : Reachable sampleEnv (Sealed sampleEnv)
      ⟨sampleMarked, some (samplePlanned, sampleUpdate), false⟩ :=
    Reachable.confirm h2 sampleMarked_ends (sealed_of_unmarked sampleUpdate_linkFree hmarker)
  have hdurable : ∀ {t c : UpdateTree}, Reachable sampleEnv (Sealed sampleEnv)
        ⟨t, some (samplePlanned, sampleUpdate), false⟩ → Confirmed sampleEnv t →
      Calm sampleEnv ⟨t, some (samplePlanned, sampleUpdate), false⟩
        ⟨c, some (samplePlanned, sampleUpdate), false⟩ →
      Durable sampleEnv ⟨t, some (samplePlanned, sampleUpdate), false⟩
          ⟨c, some (samplePlanned, sampleUpdate), false⟩ ∧
        ∀ journal, Holds sampleEnv journal t → ∀ op ∈ journal.operations,
          c.node (sampleSite.target op.path) = t.node (sampleSite.target op.path) :=
    fun h hc hcalm => confirmed_durable h hc (.single hcalm)
  exact hdurable h3 (confirmed_of_node hjournal)
    (.ofIdle sampleIdle_ends hplanned sampleUpdate_linkFree hafter)

theorem sampleHalfMarked_ends : Ends (markHealthy sampleEnv) sampleInstalled sampleHalfMarked := by
  unfold sampleHalfMarked
  exact Or.inl (cut_cutAfter _ 2 _)

theorem sampleUndone_ends : Ends (applyPending sampleEnv) sampleHalfMarked sampleUndone := by
  unfold sampleUndone
  exact ends_stateAfter _ _

attribute [irreducible] sampleHalfMarked sampleUndone

/-- The next `apply_pending`, with no request at all, removes what the update installed. -/
theorem confirmed_undone : ∃ t c pre tx,
    Reachable sampleSite (fun _ => True) ⟨t, some (pre, tx), false⟩ ∧ Confirmed sampleSite t ∧
      Ends (applyPending sampleEnv) t c ∧ (∀ pre tx, ¬ Begins sampleEnv t pre tx c) ∧
      ∃ op ∈ tx.operations, c.node (sampleSite.target op.path) ≠ t.node (sampleSite.target op.path) := by
  obtain ⟨-, hjournal, hop, hplanned, hgone⟩ := sampleMarked_facts
  have h2 : Reachable sampleEnv (fun _ => True)
      ⟨sampleInstalled, some (samplePlanned, sampleUpdate), false⟩ :=
    sample_reachable trivial trivial sampleInstalled_ends
  have h3 := Reachable.confirm h2 sampleHalfMarked_ends trivial
  exact ⟨sampleHalfMarked, sampleUndone, samplePlanned, sampleUpdate, h3, confirmed_of_node hjournal,
    sampleUndone_ends, fun _ _ => not_begins_of_none hplanned, _, hop, hgone⟩

end PlumosBubble.Update
