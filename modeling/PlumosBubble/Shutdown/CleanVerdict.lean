import PlumosBubble.Shutdown.Transaction

/-! When the verdict of a boot on the session before it is sound, for any interleaving of the
scripts of a session and a power cut at any point: a finalizer takes the p3 marker for its own
as long as it has the claim, and the power must not be lost in the time between the markers and
what they stand for. -/

namespace PlumosBubble.Shutdown

open Scripts Script Transition
open Update (Text)

section Protocol

/-- The invariant of a session: a p3 marker on a read-only `/storage` is on the card, and the
user partition is unmounted. -/
structure Kept (s : Machine) : Prop where
  flushed : s.readOnly = true → s.p3Marker.stored = s.p3Marker.cached
  released : s.readOnly = true → s.p3Marker.cached = true → s.user = none
  held : s.readOnly = true → s.off = false → s.claim.isSome

/-- What the others leave to the holder of the claim. -/
structure Leave (s t : Machine) : Prop where
  readOnly : t.readOnly = s.readOnly
  user : s.user = none → t.user = none
  marker : s.p3Marker.cached = false → t.p3Marker.cached = false

/-- What process `i` knows of the steps of the others. -/
structure Others (i : ℕ) (s t : Machine) : Prop where
  claim : t.claim = some i ↔ s.claim = some i
  mine : s.claim = some i → Leave s t

/-- What it promises. -/
structure Own (i : ℕ) (s t : Machine) : Prop where
  inv : Kept t
  claim : ∀ j, j ≠ i → (t.claim = some j ↔ s.claim = some j)
  theirs : ∀ j, j ≠ i → s.claim = some j → Leave s t

/-- The protocol of the scripts. -/
def protocol : Protocol ℕ Machine where
  inv := Kept
  rely := Others
  guar := Own
  rely_refl _ _ := ⟨Iff.rfl, fun _ => ⟨rfl, id, id⟩⟩
  rely_trans {i s t u} h h' := by
    refine ⟨h'.claim.trans h.claim, fun hmine => ?_⟩
    have hleave := h.mine hmine
    have hleave' := h'.mine (h.claim.mpr hmine)
    exact ⟨hleave'.readOnly.trans hleave.readOnly, fun hu => hleave'.user (hleave.user hu),
      fun hm => hleave'.marker (hleave.marker hm)⟩
  keeps _ h := h.inv
  others {i j s t} hij _ h := ⟨h.claim j (Ne.symm hij), h.theirs j (Ne.symm hij)⟩

/-- The power is on, and no p3 marker is written while the claim is held. -/
def NoLateMarker (_ : ℕ) (s t : Machine) : Prop :=
  s.off = false ∧ (s.p3Marker.cached = false → t.p3Marker.cached = true → s.claim = none)

end Protocol

section Calm

variable {α β : Type} {i : ℕ} {s t : Machine}

/-- The protocol's triples. -/
def Does (i : ℕ) (pre : Machine → Prop) (m : Sh α) (Q : α → Machine → Prop)
    (E : ℕ → Machine → Prop) : Prop :=
  Triple protocol (NoLateMarker i) i pre m Q E

/-- What the others leave true. -/
abbrev Lasting (i : ℕ) (pre : Machine → Prop) : Prop := Stable protocol i pre

/-- A process without the claim. -/
def Out (i : ℕ) (s : Machine) : Prop := s.claim ≠ some i

theorem lasting_out : Lasting i (Out i) :=
  fun _ _ _ hs hrely _ h => hs (hrely.claim.mp h)

theorem lasting_true : Lasting i fun _ => True := fun _ _ _ _ _ _ => trivial

/-- A step that any process may take. -/
structure Calm (s t : Machine) : Prop where
  claim : t.claim = s.claim
  readOnly : t.readOnly = s.readOnly
  user : s.user = none → t.user = none
  marker : s.readOnly = true → t.p3Marker = s.p3Marker
  off : t.off = s.off

theorem Calm.refl (s : Machine) : Calm s s := ⟨rfl, rfl, id, fun _ => rfl, rfl⟩

theorem Calm.kept (h : Calm s t) (hs : Kept s) : Kept t := by
  constructor
  · intro hro
    have hro' := h.readOnly.symm.trans hro
    rw [h.marker hro']
    exact hs.flushed hro'
  · intro hro hmarker
    have hro' := h.readOnly.symm.trans hro
    rw [h.marker hro'] at hmarker
    exact h.user (hs.released hro' hmarker)
  · intro hro hon
    rw [h.claim]
    exact hs.held (h.readOnly.symm.trans hro) (h.off.symm.trans hon)

theorem Calm.own (h : Calm s t) (hs : Kept s) (hlate : NoLateMarker i s t) : Own i s t := by
  refine ⟨h.kept hs, fun j _ => by rw [h.claim], fun j _ hj => ⟨h.readOnly, h.user, ?_⟩⟩
  intro hmarker
  by_contra hwritten
  have hfree := hlate.2 hmarker (by simpa using hwritten)
  rw [hj] at hfree
  cases hfree

theorem Marker.flush_eq {m : Marker} (h : m.stored = m.cached) : m.flush = m := by
  cases m
  cases h
  rfl

theorem calm_flush (hs : Kept s) : Calm s s.flush := by
  exact ⟨rfl, rfl, id, fun hro => Marker.flush_eq (hs.flushed hro), rfl⟩

theorem calm_touchP3 (h : s.touchP3 = some t) : Calm s t := by
  unfold Machine.touchP3 at h
  split at h
  · cases h
  · rename_i hrw
    cases h
    exact ⟨rfl, rfl, id, fun hro => absurd hro hrw, rfl⟩

theorem calm_touchP4 (h : s.touchP4 = some t) : Calm s t := by
  unfold Machine.touchP4 at h
  split at h
  · cases h
    exact ⟨rfl, rfl, id, fun _ => rfl, rfl⟩
  · split at h
    · cases h
    · cases h
      exact Calm.refl s

theorem calm_removeP3 (h : s.removeP3 = some t) : Calm s t := by
  unfold Machine.removeP3 at h
  split at h
  · cases h
    exact Calm.refl s
  · split at h
    · cases h
    · rename_i hrw
      cases h
      exact ⟨rfl, rfl, id, fun hro => absurd hro hrw, rfl⟩

theorem calm_removeP4 (h : s.removeP4 = some t) : Calm s t := by
  unfold Machine.removeP4 at h
  split at h
  · cases h
    exact ⟨rfl, rfl, id, fun _ => rfl, rfl⟩
  · cases h
    exact Calm.refl s

theorem calm_umountUser (h : s.umountUser = some t) : Calm s t := by
  unfold Machine.umountUser at h
  split at h
  · cases h
    exact ⟨rfl, rfl, fun _ => rfl, fun _ => rfl, rfl⟩
  · cases h

end Calm

section Rules

variable {α β : Type} {i : ℕ} {pre : Machine → Prop} {Q : α → Machine → Prop}
  {E : ℕ → Machine → Prop} {fails : Bool} {f : Machine → Option Machine} {s t : Machine}

theorem own_refl (hs : Kept s) : Own i s s :=
  ⟨hs, fun _ _ => Iff.rfl, fun _ _ _ => ⟨rfl, id, id⟩⟩

theorem does_read {g : Machine → α} (hpre : Lasting i pre) (hQ : ∀ a, Lasting i (Q a))
    (h : ∀ s, pre s → Q (g s) s) : Does i pre (Script.read g) Q E :=
  Triple.read (fun _ => own_refl) hpre hQ fun s _ hp => h s hp

theorem does_command {Q : Bool → Machine → Prop} (hpre : Lasting i pre)
    (hQ : ∀ b, Lasting i (Q b))
    (hok : ∀ s t, Kept s → pre s → NoLateMarker i s t → fails = false → f s = some t →
      Own i s t ∧ Q true t)
    (hno : ∀ s, pre s → fails = true ∨ f s = none → Q false s) :
    Does i pre (command fails f) Q E := by
  apply Triple.run hpre hQ
  intro s hs hp o ho hlate
  have hs : Kept s := hs
  cases hfails : fails with
  | true =>
    rw [hfails] at ho
    rw [List.mem_singleton.mp ho]
    exact ⟨own_refl hs, hno s hp (Or.inl hfails)⟩
  | false =>
    rw [hfails] at ho
    cases hf : f s with
    | none =>
      rw [hf] at ho
      rw [List.mem_singleton.mp ho]
      exact ⟨own_refl hs, hno s hp (Or.inr hf)⟩
    | some t =>
      rw [hf] at ho
      rw [List.mem_singleton.mp ho] at hlate ⊢
      exact hok s t hs hp hlate hfails hf

theorem does_ignoring {Q : Unit → Machine → Prop} (hpre : Lasting i pre) (hQ : Lasting i (Q ()))
    (hok : ∀ s t, Kept s → pre s → NoLateMarker i s t → fails = false → f s = some t →
      Own i s t ∧ Q () t)
    (hno : ∀ s, pre s → fails = true ∨ f s = none → Q () s) :
    Does i pre (ignoring fails f) Q E := by
  apply Triple.bind (does_command hpre (fun _ => hQ) hok hno)
  exact fun _ => Triple.pure _ hQ fun _ _ h => h

theorem does_sync {Q : Unit → Machine → Prop} (hpre : Lasting i pre) (hQ : Lasting i (Q ()))
    (h : ∀ s, Kept s → pre s → Q () s.flush) : Does i pre sync Q E := by
  apply Triple.run hpre fun _ => hQ
  intro s hs hp o ho hlate
  rw [List.mem_singleton.mp ho] at hlate ⊢
  exact ⟨(calm_flush hs).own hs hlate, h s hs hp⟩

end Rules

section SafeShutdown

variable {α β : Type} {m : Sh α} {fails : Bool} {f : Machine → Option Machine} (fate : Fate)
  (action : PowerAction)

/-- All commands of the script may be taken by any process. -/
def IsCalm (m : Sh α) : Prop := ∀ i, Does i (Out i) m (fun _ => Out i) fun _ => Out i

theorem isCalm_pure (a : α) : IsCalm (pure a : Sh α) :=
  fun _ => Triple.pure a lasting_out fun _ _ h => h

theorem isCalm_raise (rc : ℕ) : IsCalm (.raise rc : Sh α) :=
  fun _ => Triple.raise rc lasting_out fun _ _ h => h

theorem isCalm_bind {next : α → Sh β} (hm : IsCalm m) (hnext : ∀ a, IsCalm (next a)) :
    IsCalm (m >>= next) :=
  fun i => Triple.bind (hm i) fun a => hnext a i

theorem isCalm_ite {c : Prop} [Decidable c] {m' : Sh α} (hm : IsCalm m) (hm' : IsCalm m') :
    IsCalm (if c then m else m') :=
  fun i => Triple.ite (fun _ => hm i) fun _ => hm' i

theorem isCalm_read (g : Machine → α) : IsCalm (Script.read g) :=
  fun _ => does_read lasting_out (fun _ => lasting_out) fun _ h => h

theorem isCalm_command (hf : ∀ s t, f s = some t → Calm s t) : IsCalm (command fails f) := by
  intro i
  apply does_command lasting_out fun _ => lasting_out
  · intro s t hs hout hlate _ ht
    have hcalm := hf s t ht
    exact ⟨hcalm.own hs hlate, by rw [Out, hcalm.claim]; exact hout⟩
  · exact fun _ hout _ => hout

theorem isCalm_ask : IsCalm (command fails some) :=
  isCalm_command fun _ _ h => by cases h; exact Calm.refl _

theorem isCalm_ignoring (hf : ∀ s t, f s = some t → Calm s t) : IsCalm (ignoring fails f) :=
  isCalm_bind (isCalm_command hf) fun _ => isCalm_pure ()

theorem isCalm_require (hf : ∀ s t, f s = some t → Calm s t) : IsCalm (require fails f) :=
  isCalm_bind (isCalm_command hf) fun _ => isCalm_ite (isCalm_pure ()) (isCalm_raise 1)

theorem isCalm_requireAsk : IsCalm (require fails some) :=
  isCalm_require fun _ _ h => by cases h; exact Calm.refl _

theorem isCalm_sync : IsCalm sync :=
  fun _ => does_sync lasting_out lasting_out fun _ _ h => h

theorem calm_setRequest (request : Option PowerAction) (s t : Machine)
    (h : some (s.setRequest request) = some t) : Calm s t := by
  cases h
  exact ⟨rfl, rfl, id, fun _ => rfl, rfl⟩

theorem isCalm_removeMarkers : IsCalm (removeMarkers fate) :=
  isCalm_bind (isCalm_ignoring fun _ _ => calm_removeP3) fun _ =>
    isCalm_ignoring fun _ _ => calm_removeP4

theorem isCalm_recordSource : IsCalm (recordSource fate) := by
  apply isCalm_bind (isCalm_read _)
  intro source
  cases source with
  | none => exact isCalm_pure ()
  | some device =>
    apply isCalm_ite _ (isCalm_pure ())
    apply isCalm_bind isCalm_ask
    intro staged
    apply isCalm_ite _ (isCalm_pure ())
    exact isCalm_ignoring fun _ _ h => by cases h; exact ⟨rfl, rfl, id, fun _ => rfl, rfl⟩

theorem isCalm_writeMarkers : IsCalm (writeMarkers fate) := by
  have htouch : IsCalm (touchMarkers fate) := by
    apply isCalm_bind isCalm_ask
    intro directory
    apply isCalm_ite _ (isCalm_pure false)
    apply isCalm_bind (isCalm_command fun _ _ => calm_touchP3)
    intro p3
    apply isCalm_bind (isCalm_command fun _ _ => calm_touchP4)
    exact fun p4 => isCalm_pure _
  apply isCalm_bind htouch
  intro written
  apply isCalm_ite
  · exact isCalm_bind isCalm_sync fun _ => isCalm_pure true
  · exact isCalm_bind (isCalm_removeMarkers fate) fun _ => isCalm_pure false

theorem isCalm_cleanUser : IsCalm (cleanUser fate) := by
  have hrelease : IsCalm (releaseUser fate) := by
    apply isCalm_bind (isCalm_recordSource fate)
    intro _
    apply isCalm_bind (isCalm_writeMarkers fate)
    intro written
    apply isCalm_ite _ (isCalm_pure false)
    apply isCalm_bind (isCalm_command fun _ _ => calm_umountUser)
    intro unmounted
    apply isCalm_ite (isCalm_pure true)
    apply isCalm_bind (isCalm_removeMarkers fate)
    exact fun _ => isCalm_bind isCalm_sync fun _ => isCalm_pure false
  apply isCalm_bind (isCalm_read _)
  intro mounted
  apply isCalm_ite hrelease
  exact isCalm_bind (isCalm_ignoring fun _ _ => calm_removeP3) fun _ => isCalm_pure false

theorem isCalm_commitRequest : IsCalm (commitRequest fate action) := by
  have hremove : ∀ {m : Sh Unit}, IsCalm m →
      IsCalm (do ignoring (fate.fails .removeP3) Machine.removeP3; m) :=
    fun hm => isCalm_bind (isCalm_ignoring fun _ _ => calm_removeP3) fun _ => hm
  apply isCalm_bind isCalm_sync
  intro _
  apply isCalm_bind isCalm_ask
  intro terminated
  apply isCalm_ite _ (hremove (isCalm_raise 1))
  apply isCalm_bind (isCalm_command (calm_setRequest _))
  intro committed
  apply isCalm_ite (isCalm_raise 0)
  exact hremove (isCalm_bind isCalm_sync fun _ => isCalm_raise 1)

theorem isCalm_transact : IsCalm (transact fate action) := by
  apply isCalm_bind isCalm_requireAsk
  intro _
  apply isCalm_bind (isCalm_cleanUser fate)
  intro clean
  apply isCalm_ite (isCalm_commitRequest fate action)
  exact isCalm_bind isCalm_sync fun _ => isCalm_raise 1

theorem isCalm_reuseRequest (pending : PowerAction) :
    IsCalm (reuseRequest fate action pending) := by
  have hrestage : IsCalm (restage fate action pending) := by
    apply isCalm_ite (isCalm_pure ())
    exact isCalm_bind isCalm_requireAsk fun _ => isCalm_require (calm_setRequest _)
  apply isCalm_bind hrestage
  exact fun _ => isCalm_bind isCalm_sync fun _ => isCalm_raise 0

theorem isCalm_safeShutdown : IsCalm (safeShutdown fate action) := by
  have hterminal : IsCalm (terminal fate action) := by
    apply isCalm_bind isCalm_requireAsk
    intro _
    apply isCalm_bind (isCalm_read _)
    intro pending
    apply isCalm_bind (isCalm_read _)
    intro mounted
    cases mounted with
    | true => exact isCalm_transact fate action
    | false =>
      cases pending with
      | none => exact isCalm_transact fate action
      | some pending => exact isCalm_reuseRequest fate action pending
  apply isCalm_bind isCalm_sync
  intro _
  apply isCalm_bind isCalm_requireAsk
  intro _
  apply isCalm_bind isCalm_requireAsk
  intro _
  exact isCalm_bind isCalm_sync fun _ => hterminal

end SafeShutdown

section Finalizers

variable {i : ℕ} {fate : Fate} {action : PowerAction} {s t : Machine} {fails : Bool}
  {f : Machine → Option Machine} {E : ℕ → Machine → Prop}

/-- A process that has the claim, with `/storage` read-write. -/
def In (i : ℕ) (s : Machine) : Prop := s.claim = some i ∧ s.readOnly = false

/-- Where no p3 marker stands for a user partition that is mounted. -/
def InProof (i : ℕ) (s : Machine) : Prop :=
  In i s ∧ (s.user = none ∨ s.p3Marker.cached = false)

/-- With `/storage` read-only. -/
def InReadOnly (i : ℕ) (s : Machine) : Prop := s.claim = some i ∧ s.readOnly = true

theorem lasting_in : Lasting i (In i) := by
  intro s t _ hs hrely _
  exact ⟨hrely.claim.mpr hs.1, (hrely.mine hs.1).readOnly.trans hs.2⟩

theorem lasting_inProof : Lasting i (InProof i) := by
  intro s t hs hp hrely ht
  have hleave := hrely.mine hp.1.1
  exact ⟨lasting_in s t hs hp.1 hrely ht, hp.2.imp hleave.user hleave.marker⟩

theorem lasting_inReadOnly : Lasting i (InReadOnly i) := by
  intro s t _ hs hrely _
  exact ⟨hrely.claim.mpr hs.1, (hrely.mine hs.1).readOnly.trans hs.2⟩

theorem kept_of_readWrite (h : s.readOnly = false) : Kept s := by
  constructor
  · intro hro
    simp [h] at hro
  · intro hro
    simp [h] at hro
  · intro hro
    simp [h] at hro

/-- The holder of the claim may do what keeps the invariant. -/
theorem own_of_holder (hs : s.claim = some i) (ht : Kept t)
    (hclaim : t.claim = some i ∨ t.claim = none) : Own i s t := by
  refine ⟨ht, fun j hj => ?_, fun j hj hheld => ?_⟩
  · have hne : s.claim ≠ some j := by
      rw [hs]
      exact fun h => hj (Option.some.inj h).symm
    have hne' : t.claim ≠ some j := by
      rcases hclaim with h | h
      · rw [h]
        exact fun h => hj (Option.some.inj h).symm
      · rw [h]
        exact fun h => by cases h
    exact iff_of_false hne' hne
  · rw [hs] at hheld
    exact absurd (Option.some.inj hheld).symm hj

/-- A command of the holder that leaves `/storage` and the claim as they are. -/
theorem does_holder {pre : Machine → Prop} {Q : Bool → Machine → Prop} (hpre : Lasting i pre)
    (hQ : ∀ b, Lasting i (Q b)) (hin : ∀ s, pre s → In i s)
    (hf : ∀ s t, f s = some t → t.readOnly = s.readOnly ∧ t.claim = s.claim)
    (hok : ∀ s t, pre s → fails = false → f s = some t → Q true t)
    (hno : ∀ s, pre s → fails = true ∨ f s = none → Q false s) :
    Does i pre (command fails f) Q E := by
  apply does_command hpre hQ
  · intro s t _ hp _ hfails ht
    obtain ⟨hreadOnly, hclaim⟩ := hf s t ht
    have hkept : Kept t := kept_of_readWrite (hreadOnly.trans (hin s hp).2)
    have hheld := hclaim.trans (hin s hp).1
    exact ⟨own_of_holder (hin s hp).1 hkept (Or.inl hheld), hok s t hp hfails ht⟩
  · exact hno

theorem does_in (hf : ∀ s t, f s = some t → t.readOnly = s.readOnly ∧ t.claim = s.claim) :
    Does i (In i) (ignoring fails f) (fun _ => In i) E := by
  apply Triple.bind (Q := fun _ => In i)
  · apply does_holder lasting_in (fun _ => lasting_in) (fun _ h => h) hf
    · intro s t hp _ ht
      exact ⟨(hf s t ht).2.trans hp.1, (hf s t ht).1.trans hp.2⟩
    · exact fun _ hp _ => hp
  · exact fun _ => Triple.pure _ lasting_in fun _ _ h => h

theorem removeP3_frame (s t : Machine) (h : s.removeP3 = some t) :
    t.readOnly = s.readOnly ∧ t.claim = s.claim := by
  have hcalm := calm_removeP3 h
  exact ⟨hcalm.readOnly, hcalm.claim⟩

theorem removeP4_frame (s t : Machine) (h : s.removeP4 = some t) :
    t.readOnly = s.readOnly ∧ t.claim = s.claim := by
  have hcalm := calm_removeP4 h
  exact ⟨hcalm.readOnly, hcalm.claim⟩

theorem does_removeClaim (fails : Bool) :
    Does i (In i) (ignoring fails Machine.removeClaim) (fun _ _ => True) fun _ _ => True := by
  apply does_ignoring lasting_in lasting_true
  · intro s t _ hp _ _ ht
    cases ht
    exact ⟨own_of_holder hp.1 (kept_of_readWrite hp.2) (Or.inr rfl), trivial⟩
  · exact fun _ _ _ => trivial

theorem does_raise (rc : ℕ) :
    Does i (fun _ => True) (.raise rc : Sh Unit) (fun _ _ => True) fun _ _ => True :=
  Triple.raise rc lasting_true fun _ _ _ => trivial

theorem does_refuse : Does i (In i) (refuse fate) (fun _ _ => True) fun _ _ => True := by
  apply Triple.bind (does_in removeP3_frame)
  intro _
  apply Triple.bind (does_sync (Q := fun _ => In i) lasting_in lasting_in fun _ _ h => h)
  intro _
  apply Triple.bind (Q := fun _ => In i)
  · apply Triple.bind (does_read (Q := fun _ => In i) lasting_in (fun _ => lasting_in) fun _ h => h)
    intro source
    apply Triple.bind (does_read (Q := fun _ => In i) lasting_in (fun _ => lasting_in) fun _ h => h)
    intro mounted
    apply Triple.ite
    · exact fun _ => Triple.pure _ lasting_in fun _ _ h => h
    · exact fun _ => does_in fun _ _ h => by cases h; exact ⟨rfl, rfl⟩
  intro _
  apply Triple.bind (does_in removeP4_frame)
  intro _
  exact Triple.bind (does_removeClaim _) fun _ => does_raise 1

theorem does_consumeRequest (hproof : fate.fails .dropProof = false) :
    Does i (In i) (consumeRequest fate) (fun _ => InProof i) E := by
  apply Triple.bind (does_in fun _ _ h => by cases h; exact ⟨rfl, rfl⟩)
  intro _
  apply Triple.bind (does_sync (Q := fun _ => In i) lasting_in lasting_in fun _ _ h => h)
  intro _
  have hread : ∀ mounted : Bool, Lasting i fun s => In i s ∧ (mounted = false → s.user = none) := by
    intro mounted s t hs hp hrely ht
    exact ⟨lasting_in s t hs hp.1 hrely ht, fun h => (hrely.mine hp.1.1).user (hp.2 h)⟩
  apply Triple.bind (does_read (Q := fun mounted s => In i s ∧ (mounted = false → s.user = none))
    lasting_in hread fun s hp => ⟨hp, fun h => by simpa using h⟩)
  intro mounted
  cases mounted with
  | false => exact Triple.pure _ (hread false) fun s _ hp => ⟨hp.1, Or.inl (hp.2 rfl)⟩
  | true =>
    apply Triple.bind (Q := fun _ => InProof i)
    · apply does_holder (hread true) (fun _ => lasting_inProof) (fun _ hp => hp.1) removeP3_frame
      · intro s t hp _ ht
        have hframe := removeP3_frame s t ht
        refine ⟨⟨hframe.2.trans hp.1.1, hframe.1.trans hp.1.2⟩, Or.inr ?_⟩
        unfold Machine.removeP3 at ht
        split at ht
        · rename_i hgone
          cases ht
          exact hgone
        · split at ht
          · cases ht
          · cases ht
            rfl
      · intro s hp hno
        -- on a read-write `/storage` it does not fail by itself
        have hnone := hno.resolve_left (by simp [hproof])
        unfold Machine.removeP3 at hnone
        split at hnone
        · cases hnone
        · simp [hp.1.2] at hnone
    · exact fun _ => Triple.pure _ lasting_inProof fun _ _ h => h

theorem does_askProof : Does i (InProof i) (command fails some) (fun _ => InProof i) E := by
  apply does_holder lasting_inProof (fun _ => lasting_inProof) (fun _ hp => hp.1)
  · intro s t h
    cases h
    exact ⟨rfl, rfl⟩
  · intro s t hp _ h
    cases h
    exact hp
  · exact fun _ hp _ => hp

theorem does_removeProof :
    Does i (InProof i) (ignoring fails Machine.removeP3) (fun _ => InProof i) E := by
  apply Triple.bind (Q := fun _ => InProof i)
  · apply does_holder lasting_inProof (fun _ => lasting_inProof) (fun _ hp => hp.1) removeP3_frame
    · intro s t hp _ ht
      have hframe := removeP3_frame s t ht
      refine ⟨⟨hframe.2.trans hp.1.1, hframe.1.trans hp.1.2⟩, ?_⟩
      unfold Machine.removeP3 at ht
      split at ht
      · cases ht
        exact hp.2
      · split at ht
        · cases ht
        · cases ht
          exact Or.inr rfl
    · exact fun _ hp _ => hp
  · exact fun _ => Triple.pure _ lasting_inProof fun _ _ h => h

theorem does_remountQuiet (quiet : Bool) :
    Does i (InProof i) (remountQuiet fate quiet)
      (fun ok s => if ok then InReadOnly i s else In i s) E := by
  have hpost : ∀ ok : Bool, Lasting i fun s => if ok then InReadOnly i s else In i s := by
    intro ok
    cases ok with
    | true => exact lasting_inReadOnly
    | false => exact lasting_in
  cases quiet with
  | false => exact Triple.pure _ lasting_inProof fun _ _ hp => hp.1
  | true =>
    apply does_command lasting_inProof hpost
    · intro s t _ hp _ _ ht
      cases ht
      refine ⟨own_of_holder hp.1.1 ⟨fun _ => rfl, fun _ hmarker => ?_, fun _ _ => ?_⟩
        (Or.inl hp.1.1), hp.1.1, rfl⟩
      · exact hp.2.resolve_right fun h => by
          have hmarker : s.p3Marker.cached = true := hmarker
          rw [h] at hmarker
          cases hmarker
      · have hheld : s.claim = some i := hp.1.1
        simp [hheld]
    · exact fun _ hp _ => hp.1

theorem does_backend (hbackend : fate.fails .backend = false) :
    Does i (InReadOnly i) (backend fate) (fun returned _ => returned = false) E := by
  apply Triple.run lasting_inReadOnly
  · exact fun _ _ _ _ h _ _ => h
  · intro s hs hp o ho _
    have hs : Kept s := hs
    rw [hbackend] at ho
    rw [List.mem_singleton.mp ho]
    refine ⟨own_of_holder hp.1 ⟨hs.flushed, hs.released, fun _ hon => ?_⟩ (Or.inl hp.1), rfl⟩
    cases hon

theorem does_end (hbackend : fate.fails .backend = false) {last : Bool → Sh Unit} {rc : ℕ}
    (hlast : last false = .raise rc) :
    Does i (InReadOnly i)
      (do
        sync
        let returned ← backend fate
        last returned)
      (fun _ _ => True) fun _ _ => True := by
  apply Triple.bind (does_sync (Q := fun _ => InReadOnly i) lasting_inReadOnly lasting_inReadOnly
    fun _ _ h => h)
  intro _
  apply Triple.bind (does_backend hbackend)
  intro returned s hs hreturned
  rw [hreturned, hlast]
  exact fun _ _ _ => trivial

theorem does_finalizeClaimed (hproof : fate.fails .dropProof = false)
    (hbackend : fate.fails .backend = false) :
    Does i (In i) (finalizeClaimed fate) (fun _ _ => True) fun _ _ => True := by
  apply Triple.bind (does_consumeRequest hproof)
  intro _
  apply Triple.bind (Q := fun _ => InProof i)
  · apply Triple.bind does_askProof
    intro quiet
    apply Triple.ite
    · exact fun _ => does_askProof
    · exact fun _ => Triple.pure _ lasting_inProof fun _ _ h => h
  intro quiet
  apply Triple.bind (does_remountQuiet quiet)
  intro remounted
  cases remounted with
  | true => exact does_end hbackend rfl
  | false => exact does_refuse

theorem does_finalizePowerClaimed (hproof : fate.fails .dropProof = false)
    (hbackend : fate.fails .backend = false) :
    Does i (In i) (finalizePowerClaimed fate) (fun _ _ => True) fun _ _ => True := by
  apply Triple.bind (does_consumeRequest hproof)
  intro _
  apply Triple.bind (Q := fun _ => InProof i)
  · apply Triple.bind does_askProof
    intro quiet
    apply Triple.ite
    · exact fun _ => Triple.pure _ lasting_inProof fun _ _ h => h
    · intro _
      apply Triple.bind does_removeProof
      exact fun _ => Triple.pure _ lasting_inProof fun _ _ h => h
  intro quiet
  apply Triple.bind (does_sync (Q := fun _ => InProof i) lasting_inProof lasting_inProof
    fun _ _ h => h)
  intro _
  apply Triple.bind (does_remountQuiet quiet)
  intro remounted
  cases remounted with
  | true => exact does_end hbackend rfl
  | false => exact does_refuse

/-- A claim is free only while `/storage` is read-write. -/
theorem does_makeClaim :
    Does i (Out i) (command (fate.fails .claim) (Machine.makeClaim i))
      (fun claimed s => if claimed then In i s else Out i s) E := by
  have hpost : ∀ claimed : Bool, Lasting i fun s => if claimed then In i s else Out i s := by
    intro claimed
    cases claimed with
    | true => exact lasting_in
    | false => exact lasting_out
  apply does_command lasting_out hpost
  · intro s t hs _ hlate _ ht
    unfold Machine.makeClaim at ht
    split at ht
    · cases ht
    · rename_i hfree
      cases ht
      have hrw : s.readOnly = false := by
        by_contra hro
        exact hfree (hs.held (by simpa using hro) hlate.1)
      have hnone : s.claim = none := by simpa using hfree
      refine ⟨⟨kept_of_readWrite hrw, fun j hj => ?_, fun j _ hheld => ?_⟩, rfl, hrw⟩
      · rw [hnone]
        exact iff_of_false (fun h => hj (Option.some.inj h).symm) fun h => by cases h
      · rw [hnone] at hheld
        cases hheld
  · exact fun _ hp _ => hp

theorem does_finalizer (hproof : fate.fails .dropProof = false)
    (hbackend : fate.fails .backend = false) :
    Does i (Out i) (finalizer i fate action) (fun _ _ => True) fun _ _ => True := by
  have hexit : ∀ {pre : Machine → Prop}, Lasting i pre →
      Does i pre (.raise 0 : Sh Unit) (fun _ _ => True) fun _ _ => True :=
    fun hpre => Triple.raise 0 hpre fun _ _ _ => trivial
  apply Triple.bind (does_read (Q := fun _ => Out i) lasting_out (fun _ => lasting_out) fun _ h => h)
  intro request
  apply Triple.ite
  · intro _
    apply Triple.bind does_makeClaim
    intro claimed
    cases claimed with
    | false => exact hexit lasting_out
    | true =>
      apply Triple.bind (does_read (Q := fun _ => In i) lasting_in (fun _ => lasting_in)
        fun _ h => h)
      intro request
      apply Triple.ite
      · exact fun _ => does_finalizeClaimed hproof hbackend
      · intro _
        exact Triple.bind (does_removeClaim _) fun _ => does_raise 0
  · exact fun _ => hexit lasting_out

theorem does_powerWatch (hproof : fate.fails .dropProof = false)
    (hbackend : fate.fails .backend = false) :
    Does i (Out i) (powerWatch i fate) (fun _ _ => True) fun _ _ => True := by
  have hexit : Does i (Out i) (.raise 0 : Sh Unit) (fun _ _ => True) fun _ _ => True :=
    Triple.raise 0 lasting_out fun _ _ _ => trivial
  apply Triple.bind (does_read (Q := fun _ => Out i) lasting_out (fun _ => lasting_out) fun _ h => h)
  intro request
  apply Triple.ite
  · intro _
    apply Triple.bind does_makeClaim
    intro claimed
    cases claimed with
    | false => exact hexit
    | true => exact does_finalizePowerClaimed hproof hbackend
  · exact fun _ => hexit

end Finalizers

section Boots

/-- What the card may hold of a marker when the power is lost. -/
def Marker.Survives (m : Marker) (there : Bool) : Prop := there = m.cached ∨ there = m.stored

/-- No trace of the marker. -/
def Marker.Gone (m : Marker) : Prop := m.cached = false ∧ m.stored = false

/-- A boot: the markers that its initramfs finds, whether it can remove them, and the session
after it. -/
structure Boot where
  p3 : Bool
  p4 : Bool
  removed : Bool
  device : Text
  programs : ℕ → Program

/-- `previous_shutdown=clean`. -/
def Boot.clean (b : Boot) : Bool := b.p3 && b.p4

def Boot.machine (b : Boot) : Machine where
  user := some b.device
  readOnly := false
  p3Marker := ⟨b.p3 && !b.removed, b.p3⟩
  p4Marker := ⟨b.p4 && !b.removed, b.p4⟩
  request := none
  userSource := none
  claim := none
  off := false

abbrev Session := Pool ℕ Machine ℕ Unit

def Boot.session (b : Boot) : Session := ⟨b.machine, fun i => (b.programs i).script i⟩

/-- A command of a process, or a boot after the power was lost. -/
inductive Event where
  | command (i : ℕ)
  | boot (b : Boot)

inductive Step (p : Session) : Event → Session → Prop
  | command {i : ℕ} {q : Session} : p.shared.off = false → p.Step i q → Step p (.command i) q
  | boot {b : Boot} : p.shared.p3Marker.Survives b.p3 → p.shared.p4Marker.Survives b.p4 →
      Step p (.boot b) b.session

/-- The removal of a p3 marker next to a mounted user partition succeeds, and the power backend
does not return. -/
def Program.Careful : Program → Prop
  | .safeShutdown _ _ => True
  | .finalizer fate _ => fate.fails .dropProof = false ∧ fate.fails .backend = false
  | .powerWatch fate => fate.fails .dropProof = false ∧ fate.fails .backend = false

def Boot.Careful (b : Boot) : Prop := b.removed = true ∧ ∀ i, (b.programs i).Careful

/-- The power is lost only while `/storage` is read-only or a marker is gone, and no p3 marker is
written while the claim is held. -/
def CarefulStep (p : Session) (e : Event) (q : Session) : Prop :=
  Step p e q ∧
    match e with
    | .command i => NoLateMarker i p.shared q.shared
    | .boot b => (p.shared.readOnly = true ∨ p.shared.p3Marker.Gone ∨ p.shared.p4Marker.Gone) ∧
      b.Careful

variable {b b₀ : Boot} {p q : Session} {es : List Event}

theorem Boot.Careful.sound (hb : b.Careful) : Pool.Sound protocol NoLateMarker b.session := by
  have hkept : Kept b.machine := kept_of_readWrite rfl
  refine ⟨hkept, fun i => ?_⟩
  have hout : Out i b.machine := fun h => by cases h
  have hdoes : Does i (Out i) ((b.programs i).script i) (fun _ _ => True) fun _ _ => True := by
    have hcareful := hb.2 i
    cases hprogram : b.programs i with
    | safeShutdown fate action =>
      exact Triple.conseq (isCalm_safeShutdown fate action i) (fun _ _ h => h)
        (fun _ _ _ _ => trivial) fun _ _ _ _ => trivial
    | finalizer fate action =>
      rw [hprogram] at hcareful
      exact does_finalizer hcareful.1 hcareful.2
    | powerWatch fate =>
      rw [hprogram] at hcareful
      exact does_powerWatch hcareful.1 hcareful.2
  exact hdoes b.machine hkept hout

theorem careful_sound (hb₀ : b₀.Careful) (hrun : Run CarefulStep b₀.session es p) :
    Pool.Sound protocol NoLateMarker p := by
  apply hrun.keeps hb₀.sound
  rintro p e q hp ⟨hstep, hcareful⟩
  cases hstep with
  | command hon hcommand => exact Pool.StepIn.sound ⟨hcommand, hcareful⟩ hp
  | boot hp3 hp4 => exact hcareful.2.sound

instance (i : ℕ) (s t : Machine) : Decidable (NoLateMarker i s t) :=
  inferInstanceAs (Decidable (_ ∧ (_ → _ → _)))

/-- A reboot is requested, and its finalizers are armed. -/
def rebootRequest : Boot where
  p3 := false
  p4 := false
  removed := true
  device := "/dev/mmcblk1p4".toList
  programs i := if i = 0 then .safeShutdown .smooth .reboot else .finalizer .smooth .reboot

/-- The next boot, with the markers of the last session on the card. -/
def nextBoot : Boot := { rebootRequest with p3 := true, p4 := true }

theorem rebootRequest_careful : rebootRequest.Careful := by
  refine ⟨rfl, fun i => ?_⟩
  by_cases hi : i = 0
  · simp [rebootRequest, hi, Program.Careful]
  · simp [rebootRequest, hi, Program.Careful, Fate.smooth]

/-- Process 0 requests the reboot and process 1 carries it out. -/
def rebooted : Session :=
  Pool.playIn NoLateMarker (List.replicate 20 (0, 0) ++ List.replicate 11 (1, 0))
    rebootRequest.session

/-- Process 0 has written its markers and not unmounted the user partition yet. -/
def marked : Session :=
  Pool.playIn (fun _ s _ => s.off = false) (List.replicate 16 (0, 0)) rebootRequest.session

end Boots

end PlumosBubble.Shutdown
