import PlumosBubble.Shutdown.Transaction
import PlumosBubble.Transition.Run

/-! After which runs a power action can still be requested: how each script ends is told by the
commands that fail, and from that which failures after the unmount leave a dead end. -/

namespace PlumosBubble.Shutdown

open Scripts Script Transition
open Update (Text)

section Rules

variable {α β : Type} {Q : α → Machine → Prop} {R : β → Machine → Prop} {E : ℕ → Machine → Prop}
  {m : Sh α} {f : Machine → Option Machine} {fails : Bool} {s t : Machine}

/-- How a run can end. -/
abbrev Ends (Q : α → Machine → Prop) (E : ℕ → Machine → Prop) (m : Sh α) (s : Machine) : Prop :=
  wp (fun _ => True) Q E m s

theorem ends_bind {next : α → Sh β} (hm : Ends Q E m s)
    (hnext : ∀ a t, Q a t → Ends R E (next a) t) : Ends R E (m >>= next) s :=
  (wp_bind m next).mpr (wp_mono hm (fun _ h => h) hnext fun _ _ h => h)

theorem ends_mono {Q' : α → Machine → Prop} {E' : ℕ → Machine → Prop} (hm : Ends Q' E' m s)
    (hQ : ∀ a t, Q' a t → Q a t) (hE : ∀ e t, E' e t → E e t) : Ends Q E m s :=
  wp_mono hm (fun _ h => h) hQ hE

theorem ends_read {g : Machine → α} (h : Q (g s) s) : Ends Q E (Script.read g) s :=
  (wp_read g).mpr ⟨trivial, h⟩

theorem ends_sync {Q : Unit → Machine → Prop} (h : Q () s.flush) : Ends Q E sync s := by
  refine ⟨by simp, fun o ho => ⟨trivial, ?_⟩⟩
  rw [List.mem_singleton.mp ho]
  exact h

theorem ends_command {Q : Bool → Machine → Prop}
    (hok : ∀ t, fails = false → f s = some t → Q true t)
    (hno : fails = true ∨ f s = none → Q false s) : Ends Q E (command fails f) s := by
  unfold command
  refine (wp_run _).mpr ?_
  cases fails with
  | true =>
    refine ⟨by simp, fun o ho => ⟨trivial, ?_⟩⟩
    rw [List.mem_singleton.mp ho]
    exact hno (Or.inl rfl)
  | false =>
    cases hf : f s with
    | none =>
      refine ⟨by simp, fun o ho => ⟨trivial, ?_⟩⟩
      rw [List.mem_singleton.mp ho]
      exact hno (Or.inr hf)
    | some t =>
      refine ⟨by simp, fun o ho => ⟨trivial, ?_⟩⟩
      rw [List.mem_singleton.mp ho]
      exact hok t rfl hf

theorem ends_ignoring {Q : Unit → Machine → Prop}
    (hok : ∀ t, fails = false → f s = some t → Q () t)
    (hno : fails = true ∨ f s = none → Q () s) : Ends Q E (ignoring fails f) s := by
  apply ends_bind (Q := fun _ => Q ())
  · exact ends_command hok hno
  · exact fun _ _ h => h

theorem ends_require {Q : Unit → Machine → Prop}
    (hok : ∀ t, fails = false → f s = some t → Q () t)
    (hno : fails = true ∨ f s = none → E 1 s) : Ends Q E (require fails f) s := by
  apply ends_bind (Q := fun ok t => (ok = true → Q () t) ∧ (ok = false → E 1 t))
  · apply ends_command
    · exact fun t hfails ht => ⟨fun _ => hok t hfails ht, fun h => by cases h⟩
    · exact fun h => ⟨fun h => (by cases h), fun _ => hno h⟩
  · intro ok t h
    cases ok with
    | true => exact h.1 rfl
    | false => exact h.2 rfl

theorem ends_ask {Q : Bool → Machine → Prop} (h : ∀ ok : Bool, (ok = true ↔ fails = false) → Q ok s) :
    Ends Q E (command fails some) s := by
  apply ends_command
  · rintro t hfails ht
    cases ht
    exact h true (by simp [hfails])
  · rintro (hfails | hnone)
    · exact h false (by simp [hfails])
    · cases hnone

end Rules

section Alike

variable {s t u : Machine}

/-- The states are the same but for the markers and the recorded source. -/
structure Alike (s t : Machine) : Prop where
  user : t.user = s.user
  readOnly : t.readOnly = s.readOnly
  request : t.request = s.request
  claim : t.claim = s.claim
  off : t.off = s.off

theorem Alike.refl (s : Machine) : Alike s s := ⟨rfl, rfl, rfl, rfl, rfl⟩

theorem Alike.trans (h : Alike s t) (h' : Alike t u) : Alike s u :=
  ⟨h'.user.trans h.user, h'.readOnly.trans h.readOnly, h'.request.trans h.request,
    h'.claim.trans h.claim, h'.off.trans h.off⟩

theorem alike_flush (s : Machine) : Alike s s.flush := ⟨rfl, rfl, rfl, rfl, rfl⟩

theorem alike_touchP3 (h : s.touchP3 = some t) : Alike s t := by
  unfold Machine.touchP3 at h
  split at h
  · cases h
  · cases h
    exact ⟨rfl, rfl, rfl, rfl, rfl⟩

theorem alike_touchP4 (h : s.touchP4 = some t) : Alike s t := by
  unfold Machine.touchP4 at h
  split at h
  · cases h
    exact ⟨rfl, rfl, rfl, rfl, rfl⟩
  · split at h
    · cases h
    · cases h
      exact Alike.refl s

theorem alike_removeP3 (h : s.removeP3 = some t) : Alike s t := by
  unfold Machine.removeP3 at h
  split at h
  · cases h
    exact Alike.refl s
  · split at h
    · cases h
    · cases h
      exact ⟨rfl, rfl, rfl, rfl, rfl⟩

theorem alike_removeP4 (h : s.removeP4 = some t) : Alike s t := by
  unfold Machine.removeP4 at h
  split at h
  · cases h
    exact ⟨rfl, rfl, rfl, rfl, rfl⟩
  · cases h
    exact Alike.refl s

variable {E : ℕ → Machine → Prop} {f : Machine → Option Machine} {fails : Bool}

theorem ends_ignoring_alike (hf : ∀ t, f s = some t → Alike s t) :
    Ends (fun _ => Alike s) E (ignoring fails f) s :=
  ends_ignoring (fun t _ ht => hf t ht) fun _ => Alike.refl s

theorem ends_removeMarkers (fate : Fate) : Ends (fun _ => Alike s) E (removeMarkers fate) s := by
  apply ends_bind (ends_ignoring_alike fun t => alike_removeP3)
  intro _ t ht
  exact ends_mono (ends_ignoring_alike fun u => alike_removeP4) (fun _ u hu => ht.trans hu)
    fun _ _ h => h

theorem ends_recordSource (fate : Fate) : Ends (fun _ => Alike s) E (recordSource fate) s := by
  apply ends_bind (Q := fun source t => t = s)
  · exact ends_read rfl
  · rintro source t rfl
    cases source with
    | none => exact Alike.refl _
    | some device =>
      dsimp only
      split
      · apply ends_bind (Q := fun _ u => u = t)
        · exact ends_ask fun _ _ => rfl
        · rintro staged u rfl
          cases staged with
          | false => exact Alike.refl _
          | true => exact ends_ignoring_alike fun v hv => by cases hv; exact ⟨rfl, rfl, rfl, rfl, rfl⟩
      · exact Alike.refl _

end Alike

section Fates

variable (fate : Fate)

/-- The commands before the transaction succeed. -/
def Fate.Begins : Prop :=
  fate.fails .terminateActive = false ∧ fate.fails .terminateUserStorage = false ∧
    fate.fails .requestDirectory = false

/-- The markers are written. -/
def Fate.Marks : Prop :=
  fate.fails .markerDirectory = false ∧ fate.fails .touchP3 = false ∧ fate.fails .touchP4 = false

/-- The user partition is marked and unmounted. -/
def Fate.Unmounts : Prop :=
  fate.fails .stage = false ∧ fate.Marks ∧ fate.fails .umountUser = false

/-- What follows the unmount succeeds. -/
def Fate.Commits : Prop := fate.fails .terminateStorage = false ∧ fate.fails .commit = false

/-- An earlier request can be changed to this one. -/
def Fate.Restages (action pending : PowerAction) : Prop :=
  pending = action ∨ fate.fails .stage = false ∧ fate.fails .commit = false

instance : Decidable fate.Begins := inferInstanceAs (Decidable (_ ∧ _))
instance : Decidable fate.Marks := inferInstanceAs (Decidable (_ ∧ _))
instance : Decidable fate.Unmounts := inferInstanceAs (Decidable (_ ∧ _))
instance : Decidable fate.Commits := inferInstanceAs (Decidable (_ ∧ _))

end Fates

section SafeShutdown

variable {fate : Fate} {action : PowerAction} {s t : Machine} {E : ℕ → Machine → Prop}

theorem ends_touchMarkers (huser : s.user.isSome) (hrw : s.readOnly = false) :
    Ends (fun ok t => Alike s t ∧ (ok = true ↔ fate.Marks)) E (touchMarkers fate) s := by
  apply ends_bind (Q := fun ok t => t = s ∧ (ok = true ↔ fate.fails .markerDirectory = false))
  · exact ends_ask fun ok hok => ⟨rfl, hok⟩
  · rintro directory t ⟨rfl, hdirectory⟩
    cases directory with
    | false =>
      have hno : ¬ fate.Marks := fun h => by simpa using hdirectory.mpr h.1
      exact ⟨Alike.refl _, by simpa using hno⟩
    | true =>
      apply ends_bind (Q := fun p3 u => Alike t u ∧ (p3 = true ↔ fate.fails .touchP3 = false))
      · apply ends_command
        · exact fun u hfails hu => ⟨alike_touchP3 hu, by simp [hfails]⟩
        · intro hno
          have hfails : fate.fails .touchP3 = true :=
            hno.resolve_right (by simp [Machine.touchP3, hrw])
          exact ⟨Alike.refl _, by simp [hfails]⟩
      · rintro p3 u ⟨hu, hp3⟩
        have huser' : u.user.isSome := by rw [hu.user]; exact huser
        apply ends_bind (Q := fun p4 v => Alike t v ∧ (p4 = true ↔ fate.fails .touchP4 = false))
        · apply ends_command
          · exact fun v hfails hv => ⟨hu.trans (alike_touchP4 hv), by simp [hfails]⟩
          · intro hno
            have hfails : fate.fails .touchP4 = true :=
              hno.resolve_right (by simp [Machine.touchP4, huser'])
            exact ⟨hu, by simp [hfails]⟩
        · rintro p4 v ⟨hv, hp4⟩
          refine ⟨hv, ?_⟩
          rw [Bool.and_eq_true, hp3, hp4]
          exact (and_iff_right (hdirectory.mp rfl)).symm

theorem ends_writeMarkers (huser : s.user.isSome) (hrw : s.readOnly = false) :
    Ends (fun ok t => Alike s t ∧ (ok = true ↔ fate.Marks)) E (writeMarkers fate) s := by
  apply ends_bind (ends_touchMarkers huser hrw)
  rintro written t ⟨ht, hwritten⟩
  cases written with
  | true =>
    apply ends_bind (Q := fun _ => Alike s)
    · exact ends_sync (ht.trans (alike_flush t))
    · exact fun _ u hu => ⟨hu, hwritten⟩
  | false =>
    apply ends_bind (ends_removeMarkers fate)
    exact fun _ u hu => ⟨ht.trans hu, hwritten⟩

theorem alike_umountUser (h : s.umountUser = some t) : Alike { s with user := none } t := by
  unfold Machine.umountUser at h
  split at h
  · cases h
    exact ⟨rfl, rfl, rfl, rfl, rfl⟩
  · cases h

theorem ends_releaseUser (huser : s.user.isSome) (hrw : s.readOnly = false) :
    Ends (fun ok t => Alike (if ok then { s with user := none } else s) t ∧
      (ok = true ↔ fate.Marks ∧ fate.fails .umountUser = false)) E (releaseUser fate) s := by
  apply ends_bind (ends_recordSource fate)
  intro _ t ht
  have huser' : t.user.isSome := by rw [ht.user]; exact huser
  apply ends_bind (ends_writeMarkers huser' (ht.readOnly.trans hrw))
  rintro written u ⟨hu, hwritten⟩
  have hsu := ht.trans hu
  cases written with
  | false => exact ⟨hsu, by simpa using fun h => absurd (hwritten.mpr h) (by simp)⟩
  | true =>
    have hmarks := hwritten.mp rfl
    apply ends_bind (Q := fun ok v => Alike (if ok then { s with user := none } else s) v ∧
      (ok = true ↔ fate.fails .umountUser = false))
    · apply ends_command
      · intro v hfails hv
        have hsame : Alike { s with user := none } { u with user := none } :=
          ⟨rfl, hsu.readOnly, hsu.request, hsu.claim, hsu.off⟩
        exact ⟨hsame.trans (alike_umountUser hv), by simp [hfails]⟩
      · intro hno
        have huser'' : u.user.isSome := by rw [hsu.user]; exact huser
        have hfails : fate.fails .umountUser = true :=
          hno.resolve_right (by simp [Machine.umountUser, huser''])
        exact ⟨hsu, by simp [hfails]⟩
    · rintro unmounted v ⟨hv, hunmounted⟩
      cases unmounted with
      | true => exact ⟨hv, by simp [hmarks, hunmounted.mp rfl]⟩
      | false =>
        have hfails : ¬ fate.fails .umountUser = false := fun h => by
          simpa using hunmounted.mpr h
        apply ends_bind (ends_removeMarkers fate)
        intro _ w hw
        apply ends_bind (Q := fun _ => Alike s)
        · exact ends_sync ((hv.trans hw).trans (alike_flush w))
        · exact fun _ x hx => ⟨hx, by simp [hfails]⟩

theorem ends_commitRequest :
    Ends (fun _ _ => False)
      (fun rc t => Alike (if rc = 0 then s.setRequest (some action) else s) t ∧
        (rc = 0 ↔ fate.Commits)) (commitRequest fate action) s := by
  apply ends_bind (Q := fun _ => Alike s)
  · exact ends_sync (alike_flush s)
  · intro _ t ht
    apply ends_bind (Q := fun ok u => u = t ∧ (ok = true ↔ fate.fails .terminateStorage = false))
    · exact ends_ask fun ok hok => ⟨rfl, hok⟩
    · rintro terminated t ⟨rfl, hterminated⟩
      cases terminated with
      | false =>
        have hno : ¬ fate.Commits := fun h => by simpa using hterminated.mpr h.1
        apply ends_bind (ends_ignoring_alike fun u => alike_removeP3)
        exact fun _ u hu => ⟨ht.trans hu, by simpa using hno⟩
      | true =>
        apply ends_bind (Q := fun ok u =>
          Alike (if ok then s.setRequest (some action) else s) u ∧
            (ok = true ↔ fate.fails .commit = false))
        · apply ends_command
          · intro u hfails hu
            cases hu
            exact ⟨⟨ht.user, ht.readOnly, rfl, ht.claim, ht.off⟩, by simp [hfails]⟩
          · intro hno
            have hfails : fate.fails .commit = true := hno.resolve_right (by simp)
            exact ⟨ht, by simp [hfails]⟩
        · rintro committed u ⟨hu, hcommitted⟩
          cases committed with
          | true => exact ⟨hu, by simp [Fate.Commits, hterminated.mp rfl, hcommitted.mp rfl]⟩
          | false =>
            have hno : ¬ fate.Commits := fun h => by simpa using hcommitted.mpr h.2
            apply ends_bind (ends_ignoring_alike fun v => alike_removeP3)
            intro _ v hv
            apply ends_bind (Q := fun _ => Alike s)
            · exact ends_sync ((hu.trans hv).trans (alike_flush v))
            · exact fun _ w hw => ⟨hw, by simpa using hno⟩

/-- The state that a transaction leaves where the user partition is mounted: unmounted or not,
and with its request committed or not. -/
def settled (unmounts : Prop) [Decidable unmounts] (fate : Fate) (action : PowerAction)
    (s : Machine) : Machine :=
  if unmounts then
    if fate.Commits then { s with user := none, request := some action }
    else { s with user := none }
  else s

theorem ends_transact (huser : s.user.isSome) (hrw : s.readOnly = false) :
    Ends (fun _ _ => False)
      (fun rc t => Alike (settled fate.Unmounts fate action s) t ∧
        (rc = 0 ↔ fate.Unmounts ∧ fate.Commits)) (transact fate action) s := by
  apply ends_bind (Q := fun _ t => t = s ∧ fate.fails .stage = false)
  · apply ends_require
    · rintro t hfails ht
      cases ht
      exact ⟨rfl, hfails⟩
    · intro hno
      have hfails : fate.fails .stage = true := hno.resolve_right (by simp)
      have hkept : ¬ fate.Unmounts := fun h => by simpa [hfails] using h.1
      exact ⟨by rw [settled, if_neg hkept]; exact Alike.refl s, by simp [hkept]⟩
  · rintro _ t ⟨rfl, hstage⟩
    apply ends_bind (Q := fun ok u => Alike (if ok then { t with user := none } else t) u ∧
      (ok = true ↔ fate.Unmounts))
    · apply ends_bind (Q := fun mounted u => u = t ∧ mounted = true)
      · exact ends_read ⟨rfl, huser⟩
      · rintro mounted u ⟨rfl, rfl⟩
        apply ends_mono (ends_releaseUser huser hrw) _ fun _ _ h => h
        rintro ok v ⟨hv, hok⟩
        exact ⟨hv, by rw [hok, Fate.Unmounts]; simp [hstage]⟩
    · rintro clean u ⟨hu, hclean⟩
      cases clean with
      | false =>
        have hkept : ¬ fate.Unmounts := fun h => by simpa using hclean.mpr h
        apply ends_bind (Q := fun _ => Alike t)
        · exact ends_sync (hu.trans (alike_flush u))
        · exact fun _ v hv => ⟨by rw [settled, if_neg hkept]; exact hv, by simp [hkept]⟩
      | true =>
        have hunmounts := hclean.mp rfl
        apply ends_mono ends_commitRequest (fun _ _ h => h)
        rintro rc v ⟨hv, hrc⟩
        refine ⟨?_, by simp [hunmounts, hrc]⟩
        rw [settled, if_pos hunmounts]
        by_cases hcommits : fate.Commits
        · rw [if_pos (hrc.mpr hcommits)] at hv
          rw [if_pos hcommits]
          exact ⟨hv.user.trans hu.user, hv.readOnly.trans hu.readOnly, hv.request,
            hv.claim.trans hu.claim, hv.off.trans hu.off⟩
        · rw [if_neg fun h => hcommits (hrc.mp h)] at hv
          rw [if_neg hcommits]
          exact hu.trans hv

theorem ends_reuseRequest {pending : PowerAction} (hrequest : s.request = some pending) :
    Ends (fun _ _ => False)
      (fun rc t => Alike (if rc = 0 then s.setRequest (some action) else s) t ∧
        (rc = 0 ↔ fate.Restages action pending)) (reuseRequest fate action pending) s := by
  apply ends_bind (Q := fun _ t => Alike (s.setRequest (some action)) t ∧
    fate.Restages action pending)
  · unfold restage
    split
    · rename_i hsame
      exact ⟨⟨rfl, rfl, hrequest.trans (congrArg some hsame), rfl, rfl⟩, Or.inl hsame⟩
    · rename_i hother
      have hno : ∀ site, site = .stage ∨ site = .commit → fate.fails site = true →
          ¬ fate.Restages action pending := by
        rintro site (rfl | rfl) hfails (h | h)
        · exact hother h
        · simp [hfails] at h
        · exact hother h
        · simp [hfails] at h
      apply ends_bind (Q := fun _ t => t = s ∧ fate.fails .stage = false)
      · apply ends_require
        · rintro t hfails ht
          cases ht
          exact ⟨rfl, hfails⟩
        · intro h
          have hfails := h.resolve_right (by simp)
          exact ⟨Alike.refl s, by simpa using hno _ (Or.inl rfl) hfails⟩
      · rintro _ t ⟨rfl, hstage⟩
        apply ends_require
        · rintro u hfails hu
          cases hu
          exact ⟨Alike.refl _, Or.inr ⟨hstage, hfails⟩⟩
        · intro h
          have hfails := h.resolve_right (by simp)
          exact ⟨Alike.refl _, by simpa using hno _ (Or.inr rfl) hfails⟩
  · rintro _ t ⟨ht, hrestages⟩
    apply ends_bind (Q := fun _ => Alike (s.setRequest (some action)))
    · exact ends_sync (ht.trans (alike_flush t))
    · exact fun _ u hu => ⟨hu, by simpa using hrestages⟩

theorem ends_begin (hgo : ∀ t, Alike s t → fate.Begins →
      Ends (fun _ _ => False) E (if t.user.isSome then transact fate action
        else match t.request with
          | some pending => reuseRequest fate action pending
          | none => transact fate action) t)
    (hno : ∀ t, Alike s t → ¬ fate.Begins → E 1 t) :
    Ends (fun _ _ => False) E (safeShutdown fate action) s := by
  apply ends_bind (Q := fun _ => Alike s)
  · exact ends_sync (alike_flush s)
  intro _ t ht
  apply ends_bind (Q := fun _ u => u = t ∧ fate.fails .terminateActive = false)
  · apply ends_require
    · rintro u hfails hu
      cases hu
      exact ⟨rfl, hfails⟩
    · intro h
      have hfails := h.resolve_right (by simp)
      exact hno t ht fun hbegins => by simp [hbegins.1] at hfails
  rintro _ t ⟨rfl, hactive⟩
  apply ends_bind (Q := fun _ u => u = t ∧ fate.fails .terminateUserStorage = false)
  · apply ends_require
    · rintro u hfails hu
      cases hu
      exact ⟨rfl, hfails⟩
    · intro h
      have hfails := h.resolve_right (by simp)
      exact hno t ht fun hbegins => by simp [hbegins.2.1] at hfails
  rintro _ t ⟨rfl, huserStorage⟩
  apply ends_bind (Q := fun _ => Alike s)
  · exact ends_sync (ht.trans (alike_flush t))
  intro _ u hu
  apply ends_bind (Q := fun _ v => v = u ∧ fate.fails .requestDirectory = false)
  · apply ends_require
    · rintro v hfails hv
      cases hv
      exact ⟨rfl, hfails⟩
    · intro h
      have hfails := h.resolve_right (by simp)
      exact hno u hu fun hbegins => by simp [hbegins.2.2] at hfails
  rintro _ u ⟨rfl, hdirectory⟩
  apply ends_bind (Q := fun pending v => v = u ∧ pending = u.request)
  · exact ends_read ⟨rfl, rfl⟩
  rintro pending u ⟨rfl, rfl⟩
  apply ends_bind (Q := fun mounted v => v = u ∧ mounted = u.user.isSome)
  · exact ends_read ⟨rfl, rfl⟩
  rintro mounted u ⟨rfl, rfl⟩
  have hend := hgo u hu ⟨hactive, huserStorage, hdirectory⟩
  cases huser : u.user.isSome with
  | true =>
    rw [huser, if_pos rfl] at hend
    exact hend
  | false =>
    rw [huser, if_neg (by simp)] at hend
    cases hrequest : u.request with
    | none =>
      rw [hrequest] at hend
      exact hend
    | some pending =>
      rw [hrequest] at hend
      exact hend

/-- `plumos-safe-shutdown` where the user partition is mounted. -/
theorem ends_safeShutdown_mounted (huser : s.user.isSome) (hrw : s.readOnly = false) :
    Ends (fun _ _ => False)
      (fun rc t => Alike (settled (fate.Begins ∧ fate.Unmounts) fate action s) t ∧
        (rc = 0 ↔ fate.Begins ∧ fate.Unmounts ∧ fate.Commits)) (safeShutdown fate action) s := by
  apply ends_begin
  · intro t ht hbegins
    have huser' : t.user.isSome := by rw [ht.user]; exact huser
    rw [if_pos huser']
    apply ends_mono (ends_transact huser' (ht.readOnly.trans hrw)) (fun _ _ h => h)
    rintro rc u ⟨hu, hrc⟩
    refine ⟨?_, by simp [hbegins, hrc]⟩
    have hsame : Alike (settled (fate.Begins ∧ fate.Unmounts) fate action s)
        (settled fate.Unmounts fate action t) := by
      unfold settled
      by_cases hunmounts : fate.Unmounts
      · rw [if_pos ⟨hbegins, hunmounts⟩, if_pos hunmounts]
        split
        · exact ⟨rfl, ht.readOnly, rfl, ht.claim, ht.off⟩
        · exact ⟨rfl, ht.readOnly, ht.request, ht.claim, ht.off⟩
      · rw [if_neg fun h => hunmounts h.2, if_neg hunmounts]
        exact ht
    exact hsame.trans hu
  · intro t ht hno
    refine ⟨?_, by simp [hno]⟩
    rw [settled, if_neg fun h => hno h.1]
    exact ht

theorem ends_safeShutdown_pending {pending : PowerAction} (huser : s.user = none)
    (hrequest : s.request = some pending) :
    Ends (fun _ _ => False)
      (fun rc t => Alike (if rc = 0 then s.setRequest (some action) else s) t ∧
        (rc = 0 ↔ fate.Begins ∧ fate.Restages action pending)) (safeShutdown fate action) s := by
  apply ends_begin
  · intro t ht hbegins
    have hrequest' := ht.request.trans hrequest
    rw [if_neg (by simp [ht.user, huser]), hrequest']
    apply ends_mono (ends_reuseRequest hrequest') (fun _ _ h => h)
    rintro rc u ⟨hu, hrc⟩
    refine ⟨?_, by simp [hbegins, hrc]⟩
    split at hu
    · rename_i hzero
      rw [if_pos hzero]
      exact ⟨hu.user.trans ht.user, hu.readOnly.trans ht.readOnly, hu.request,
        hu.claim.trans ht.claim, hu.off.trans ht.off⟩
    · rename_i hfailed
      rw [if_neg hfailed]
      exact ht.trans hu
  · intro t ht hno
    exact ⟨ht, by simp [hno]⟩

end SafeShutdown

section Finalizers

variable {fate : Fate} {action : PowerAction} {i : ℕ} {s t u : Machine} {E : ℕ → Machine → Prop}

/-- A power action can be requested from here. -/
def Resumable (s : Machine) : Prop :=
  s.user = none ∧ s.request.isSome ∨ s.user.isSome ∧ s.readOnly = false

/-- What a finalizer with the claim must not meet: a backend that returns once `/storage` is
read-only, or a user partition that cannot be mounted again, unless the request stays. -/
def Fate.Spares (fate : Fate) (s : Machine) (remounts : Prop) : Prop :=
  (remounts → fate.fails .backend = true → s.user = none ∧ fate.fails .removeRequest = true) ∧
    (¬ remounts → s.user = none → (fate.fails .remountUser = false → s.readOnly = false) ∧
      (fate.fails .remountUser = true → fate.fails .removeRequest = true))

/-- The state once the request has been consumed. -/
def consumed (fate : Fate) (s : Machine) : Machine :=
  if fate.fails .removeRequest then s else s.setRequest none

theorem consumed_user : (consumed fate s).user = s.user := by
  unfold consumed
  split <;> rfl

theorem consumed_readOnly : (consumed fate s).readOnly = s.readOnly := by
  unfold consumed
  split <;> rfl

theorem consumed_off : (consumed fate s).off = s.off := by
  unfold consumed
  split <;> rfl

theorem consumed_request (hs : Resumable s) (huser : s.user = none) :
    (consumed fate s).request.isSome ↔ fate.fails .removeRequest = true := by
  have hrequest : s.request.isSome := by
    rcases hs with hs | hs
    · exact hs.2
    · simp [huser] at hs
  unfold consumed
  split
  · rename_i hfails
    simp [hrequest, hfails]
  · rename_i hfails
    simp [Machine.setRequest, hfails]

theorem ends_consumeRequest : Ends (fun _ => Alike (consumed fate s)) E (consumeRequest fate) s := by
  apply ends_bind (Q := fun _ => Alike (consumed fate s))
  · unfold consumed
    apply ends_ignoring
    · intro t hfails ht
      cases ht
      rw [if_neg (by simp [hfails])]
      exact Alike.refl _
    · intro h
      rw [if_pos (h.resolve_right (by simp))]
      exact Alike.refl s
  intro _ t ht
  apply ends_bind (Q := fun _ => Alike (consumed fate s))
  · exact ends_sync (ht.trans (alike_flush t))
  intro _ u hu
  apply ends_bind (Q := fun _ v => v = u)
  · exact ends_read rfl
  rintro mounted u rfl
  split
  · exact ends_mono (ends_ignoring_alike fun v => alike_removeP3) (fun _ v hv => hu.trans hv)
      fun _ _ h => h
  · exact hu

theorem ends_refuse :
    Ends (fun _ _ => False)
      (fun _ t => t.off = s.off ∧ t.readOnly = s.readOnly ∧ t.request = s.request ∧
        (t.user.isSome ↔ s.user.isSome ∨ fate.fails .remountUser = false)) (refuse fate) s := by
  apply ends_bind (ends_ignoring_alike fun t => alike_removeP3)
  intro _ t ht
  apply ends_bind (Q := fun _ => Alike s)
  · exact ends_sync (ht.trans (alike_flush t))
  intro _ u hu
  apply ends_bind (Q := fun _ v => v.off = s.off ∧ v.readOnly = s.readOnly ∧
    v.request = s.request ∧ (v.user.isSome ↔ s.user.isSome ∨ fate.fails .remountUser = false))
  · apply ends_bind (Q := fun _ v => v = u)
    · exact ends_read rfl
    rintro source u rfl
    apply ends_bind (Q := fun mounted v => v = u ∧ mounted = u.user.isSome)
    · exact ends_read ⟨rfl, rfl⟩
    rintro mounted u ⟨rfl, rfl⟩
    rw [← hu.user]
    split
    · rename_i hmounted
      exact ⟨hu.off, hu.readOnly, hu.request, by simp [hmounted]⟩
    · rename_i hunmounted
      apply ends_ignoring
      · intro v hfails hv
        cases hv
        exact ⟨hu.off, hu.readOnly, hu.request, by simp [hfails]⟩
      · intro h
        have hfails := h.resolve_right (by simp [Machine.mountUser])
        exact ⟨hu.off, hu.readOnly, hu.request, by simp [hfails, hunmounted]⟩
  rintro _ v ⟨hoff, hreadOnly, hrequest, huser⟩
  apply ends_bind (ends_ignoring_alike fun w => alike_removeP4)
  intro _ w hw
  apply ends_bind (Q := fun _ x => x.user = w.user ∧ x.readOnly = w.readOnly ∧
    x.request = w.request ∧ x.off = w.off)
  · apply ends_ignoring
    · intro x _ hx
      cases hx
      exact ⟨rfl, rfl, rfl, rfl⟩
    · exact fun _ => ⟨rfl, rfl, rfl, rfl⟩
  rintro _ x ⟨hxuser, hxreadOnly, hxrequest, hxoff⟩
  refine ⟨hxoff.trans (hw.off.trans hoff), hxreadOnly.trans (hw.readOnly.trans hreadOnly),
    hxrequest.trans (hw.request.trans hrequest), ?_⟩
  rw [hxuser, hw.user]
  exact huser

theorem ends_remountQuiet {quiet : Bool} :
    Ends (fun ok t => Alike (if ok then { s with readOnly := true } else s) t ∧
      (ok = true ↔ quiet = true ∧ fate.fails .remountStorage = false)) E
      (remountQuiet fate quiet) s := by
  cases quiet with
  | false => exact ⟨Alike.refl s, by simp⟩
  | true =>
    apply ends_command
    · intro t hfails ht
      cases ht
      exact ⟨⟨rfl, rfl, rfl, rfl, rfl⟩, by simp [hfails]⟩
    · intro h
      have hfails := h.resolve_right (by simp [Machine.remountStorage])
      exact ⟨Alike.refl s, by simp [hfails]⟩

theorem ends_backend :
    Ends (fun returned t => (returned = true ↔ fate.fails .backend = true) ∧
      t = { s with off := s.off || !returned }) E (backend fate) s := by
  refine (wp_run _).mpr ?_
  split
  · rename_i hfails
    refine ⟨by simp, fun o ho => ⟨trivial, ?_⟩⟩
    rw [List.mem_singleton.mp ho]
    simp [hfails]
  · rename_i hfails
    refine ⟨by simp, fun o ho => ⟨trivial, ?_⟩⟩
    rw [List.mem_singleton.mp ho]
    simp [hfails]

/-- A finalizer that cannot make `/storage` read-only refuses. -/
theorem resumable_refused {remounts : Prop} (hno : ¬ remounts) (hs : Resumable s)
    (hon : s.off = false) (ht : Alike (consumed fate s) t) (hoff : u.off = t.off)
    (hreadOnly : u.readOnly = t.readOnly) (hrequest : u.request = t.request)
    (huser : u.user.isSome ↔ t.user.isSome ∨ fate.fails .remountUser = false) :
    u.off = true ∨ Resumable u ↔ fate.Spares s remounts := by
  have hon' : ¬ u.off = true := by
    rw [hoff, ht.off, consumed_off, hon]
    simp
  rw [or_iff_right hon']
  rw [ht.user, consumed_user] at huser
  have hreadOnly := hreadOnly.trans (ht.readOnly.trans consumed_readOnly)
  have hrequest := hrequest.trans ht.request
  unfold Resumable Fate.Spares
  rw [hreadOnly, hrequest]
  cases hsuser : s.user with
  | some device =>
    -- it was mounted all the time, and `/storage` is still read-write
    have hrw : s.readOnly = false := by
      rcases hs with hs | hs
      · simp [hsuser] at hs
      · exact hs.2
    have huser' : u.user.isSome := huser.mpr (Or.inl (by simp [hsuser]))
    exact iff_of_true (Or.inr ⟨huser', hrw⟩)
      ⟨fun h => absurd h hno, fun _ h => by cases h⟩
  | none =>
    rw [hsuser] at huser
    have hstays : (consumed fate s).request.isSome ↔ fate.fails .removeRequest = true :=
      consumed_request hs hsuser
    cases hremount : fate.fails .remountUser with
    | true =>
      have hunmounted : u.user = none := by simpa [hremount] using huser
      rw [hunmounted, hstays]
      simp [hno]
    | false =>
      have hmounted : u.user.isSome := huser.mpr (Or.inr hremount)
      have hsome : u.user ≠ none := by
        intro h
        simp [h] at hmounted
      simp [hno, hmounted, hsome]

theorem resumable_returned {remounts : Prop} (hremounts : remounts) (hs : Resumable s)
    (hon : s.off = false) (hbackend : fate.fails .backend = true) (hoff : u.off = s.off)
    (hreadOnly : u.readOnly = true) (huser : u.user = s.user)
    (hrequest : u.request = (consumed fate s).request) :
    u.off = true ∨ Resumable u ↔ fate.Spares s remounts := by
  unfold Resumable Fate.Spares
  rw [hoff, hon, hreadOnly, huser, hrequest]
  have hstays : s.user = none ∧ (consumed fate s).request.isSome ↔
      s.user = none ∧ fate.fails .removeRequest = true :=
    and_congr_right fun h => consumed_request hs h
  rw [hstays]
  simp [hremounts, hbackend]

theorem spares_off {remounts : Prop} (hremounts : remounts)
    (hbackend : fate.fails .backend = false) (hoff : u.off = true) :
    u.off = true ∨ Resumable u ↔ fate.Spares s remounts :=
  iff_of_true (Or.inl hoff) ⟨fun _ h => by simp [hbackend] at h, fun h => absurd hremounts h⟩

/-- The finalizer gets `/storage` read-only. -/
def Fate.FinalizerRemounts (fate : Fate) : Prop :=
  fate.fails .terminateStorage = false ∧ fate.fails .stopSd2 = false ∧
    fate.fails .remountStorage = false

/-- PID 1 does. -/
def Fate.InitRemounts (fate : Fate) : Prop :=
  fate.fails .terminateStorage = false ∧ fate.fails .remountStorage = false

theorem ends_finalizeClaimed (hs : Resumable s) (hon : s.off = false) :
    Ends (fun _ _ => False)
      (fun _ t => t.off = true ∨ Resumable t ↔ fate.Spares s fate.FinalizerRemounts)
      (finalizeClaimed fate) s := by
  apply ends_bind ends_consumeRequest
  intro _ t ht
  apply ends_bind (Q := fun quiet u => u = t ∧ (quiet = true ↔
    fate.fails .terminateStorage = false ∧ fate.fails .stopSd2 = false))
  · apply ends_bind (Q := fun quiet u => u = t ∧
      (quiet = true ↔ fate.fails .terminateStorage = false))
    · exact ends_ask fun ok hok => ⟨rfl, hok⟩
    rintro quiet u ⟨rfl, hquiet⟩
    cases quiet with
    | true =>
      have hterminated := hquiet.mp rfl
      exact ends_ask fun ok hok => ⟨rfl, by simp [hok, hterminated]⟩
    | false =>
      have hterminated : ¬ fate.fails .terminateStorage = false := fun h => by
        simpa using hquiet.mpr h
      exact ⟨rfl, by simp [hterminated]⟩
  rintro quiet t ⟨rfl, hquiet⟩
  apply ends_bind ends_remountQuiet
  rintro remounted u ⟨hu, hremounted⟩
  have hremounts : remounted = true ↔ fate.FinalizerRemounts := by
    rw [hremounted, hquiet, Fate.FinalizerRemounts, and_assoc]
  cases remounted with
  | false =>
    have hno : ¬ fate.FinalizerRemounts := fun h => by simpa using hremounts.mpr h
    apply ends_mono ends_refuse (fun _ _ h => h)
    rintro rc v ⟨hoff, hreadOnly, hrequest, huser⟩
    exact resumable_refused hno hs hon (ht.trans hu) hoff hreadOnly hrequest huser
  | true =>
    have hsame : Alike { consumed fate s with readOnly := true } u :=
      ⟨hu.user.trans ht.user, hu.readOnly, hu.request.trans ht.request,
        hu.claim.trans ht.claim, hu.off.trans ht.off⟩
    apply ends_bind (Q := fun _ => Alike { consumed fate s with readOnly := true })
    · exact ends_sync (hsame.trans (alike_flush u))
    intro _ v hv
    apply ends_bind ends_backend
    rintro returned w ⟨hreturned, rfl⟩
    cases returned with
    | true =>
      apply ends_bind (Q := fun _ x => x.user = v.user ∧ x.readOnly = v.readOnly ∧
        x.request = v.request ∧ x.off = v.off)
      · apply ends_ignoring
        · intro x _ hx
          cases hx
          exact ⟨rfl, rfl, rfl, by simp⟩
        · exact fun _ => ⟨rfl, rfl, rfl, by simp⟩
      rintro _ x ⟨huser, hreadOnly, hrequest, hoff⟩
      exact resumable_returned (hremounts.mp rfl) hs hon (hreturned.mp rfl)
        (hoff.trans (hv.off.trans consumed_off)) (hreadOnly.trans hv.readOnly)
        (huser.trans (hv.user.trans consumed_user)) (hrequest.trans hv.request)
    | false =>
      have hbackend : fate.fails .backend = false := by simpa using hreturned
      exact spares_off (hremounts.mp rfl) hbackend (by simp)

theorem ends_endWriters :
    Ends (fun quiet t => Alike s t ∧ (quiet = true ↔ fate.fails .terminateStorage = false)) E
      (endWriters fate) s := by
  apply ends_bind (Q := fun quiet t => t = s ∧
    (quiet = true ↔ fate.fails .terminateStorage = false))
  · exact ends_ask fun ok hok => ⟨rfl, hok⟩
  rintro quiet s ⟨rfl, hquiet⟩
  cases quiet with
  | true => exact ⟨Alike.refl s, hquiet⟩
  | false =>
    apply ends_bind (ends_ignoring_alike fun t => alike_removeP3)
    exact fun _ t ht => ⟨ht, hquiet⟩

theorem ends_finalizePowerClaimed (hs : Resumable s) (hon : s.off = false) :
    Ends (fun _ _ => False)
      (fun _ t => t.off = true ∨ Resumable t ↔ fate.Spares s fate.InitRemounts)
      (finalizePowerClaimed fate) s := by
  apply ends_bind ends_consumeRequest
  intro _ t ht
  apply ends_bind ends_endWriters
  rintro quiet u ⟨hu, hquiet⟩
  apply ends_bind (Q := fun _ => Alike (consumed fate s))
  · exact ends_sync ((ht.trans hu).trans (alike_flush u))
  intro _ v hv
  apply ends_bind ends_remountQuiet
  rintro remounted w ⟨hw, hremounted⟩
  have hremounts : remounted = true ↔ fate.InitRemounts := by
    rw [hremounted, hquiet, Fate.InitRemounts]
  cases remounted with
  | false =>
    have hno : ¬ fate.InitRemounts := fun h => by simpa using hremounts.mpr h
    apply ends_mono ends_refuse (fun _ _ h => h)
    rintro rc x ⟨hoff, hreadOnly, hrequest, huser⟩
    exact resumable_refused hno hs hon (hv.trans hw) hoff hreadOnly hrequest huser
  | true =>
    apply ends_bind (Q := fun _ => Alike w)
    · exact ends_sync (alike_flush w)
    intro _ x hx
    apply ends_bind ends_backend
    rintro returned y ⟨hreturned, rfl⟩
    cases returned with
    | true =>
      exact resumable_returned (hremounts.mp rfl) hs hon (hreturned.mp rfl)
        (by simp [hx.off, hw.off, hv.off, consumed_off]) (hx.readOnly.trans hw.readOnly)
        (hx.user.trans (hw.user.trans (hv.user.trans consumed_user)))
        (hx.request.trans (hw.request.trans hv.request))
    | false =>
      have hbackend : fate.fails .backend = false := by simpa using hreturned
      exact spares_off (hremounts.mp rfl) hbackend (by simp)

end Finalizers

section Runs

variable {i : ℕ} {s t : Machine} {p : Program}

/-- What a run must not meet, by its inputs and the state it starts in. -/
def Program.Spares (s : Machine) : Program → Prop
  | .safeShutdown fate _ => s.user.isSome → fate.Begins → fate.Unmounts →
    s.request.isSome ∨ fate.Commits
  | .finalizer fate action => s.request = some action → s.claim = none →
    fate.fails .claim = false → fate.Spares s fate.FinalizerRemounts
  | .powerWatch fate => s.request.isSome → s.claim = none →
    fate.fails .claim = false → fate.Spares s fate.InitRemounts

theorem resumable_safeShutdown {fate : Fate} {action : PowerAction} (hs : Resumable s)
    (hon : s.off = false) :
    Ends (fun _ _ => False)
      (fun _ t => t.off = true ∨ Resumable t ↔ (Program.safeShutdown fate action).Spares s)
      (safeShutdown fate action) s := by
  rcases hs with ⟨huser, hrequest⟩ | ⟨huser, hrw⟩
  · obtain ⟨pending, hpending⟩ := Option.isSome_iff_exists.mp hrequest
    apply ends_mono (ends_safeShutdown_pending huser hpending) (fun _ _ h => h)
    rintro rc t ⟨ht, -⟩
    have hresumable : Resumable t := by
      split at ht
      · exact Or.inl ⟨ht.user.trans huser, by rw [ht.request]; rfl⟩
      · exact Or.inl ⟨ht.user.trans huser, by rw [ht.request]; exact hrequest⟩
    exact iff_of_true (Or.inr hresumable) fun h => by simp [huser] at h
  · apply ends_mono (ends_safeShutdown_mounted huser hrw) (fun _ _ h => h)
    rintro rc t ⟨ht, -⟩
    have hoff : t.off = s.off := by
      rw [ht.off]
      unfold settled
      split
      · split <;> rfl
      · rfl
    rw [hoff, hon]
    unfold settled at ht
    by_cases hunmounts : fate.Begins ∧ fate.Unmounts
    · rw [if_pos hunmounts] at ht
      have hspares : (Program.safeShutdown fate action).Spares s ↔
          s.request.isSome ∨ fate.Commits :=
        ⟨fun h => h huser hunmounts.1 hunmounts.2, fun h _ _ _ => h⟩
      rw [hspares]
      unfold Resumable
      by_cases hcommits : fate.Commits
      · rw [if_pos hcommits] at ht
        rw [ht.user, ht.request]
        simp [hcommits]
      · rw [if_neg hcommits] at ht
        rw [ht.user, ht.request]
        simp [hcommits]
    · rw [if_neg hunmounts] at ht
      have hresumable : Resumable t :=
        Or.inr ⟨by rw [ht.user]; exact huser, ht.readOnly.trans hrw⟩
      exact iff_of_true (Or.inr hresumable) fun _ hbegins h => absurd ⟨hbegins, h⟩ hunmounts

theorem ends_claim {fate : Fate} {E : ℕ → Machine → Prop} :
    Ends (fun claimed t => if claimed then
        t = { s with claim := some i } ∧ s.claim = none ∧ fate.fails .claim = false
      else t = s ∧ ¬ (s.claim = none ∧ fate.fails .claim = false)) E
      (command (fate.fails .claim) (Machine.makeClaim i)) s := by
  apply ends_command
  · intro t hfails ht
    unfold Machine.makeClaim at ht
    split at ht
    · cases ht
    · rename_i hfree
      cases ht
      exact ⟨rfl, by simpa using hfree, hfails⟩
  · rintro (hfails | hnone)
    · exact ⟨rfl, by simp [hfails]⟩
    · unfold Machine.makeClaim at hnone
      split at hnone
      · rename_i hheld
        refine ⟨rfl, fun h => ?_⟩
        simp [h.1] at hheld
      · cases hnone

theorem resumable_finalizer {fate : Fate} {action : PowerAction} (hs : Resumable s)
    (hon : s.off = false) :
    Ends (fun _ _ => False)
      (fun _ t => t.off = true ∨ Resumable t ↔ (Program.finalizer fate action).Spares s)
      (finalizer i fate action) s := by
  have hidle : ¬ (s.request = some action ∧ s.claim = none ∧ fate.fails .claim = false) →
      (s.off = true ∨ Resumable s ↔ (Program.finalizer fate action).Spares s) := by
    intro hno
    exact iff_of_true (Or.inr hs) fun hrequest hclaim hfails =>
      absurd ⟨hrequest, hclaim, hfails⟩ hno
  apply ends_bind (Q := fun request t => t = s ∧ request = s.request)
  · exact ends_read ⟨rfl, rfl⟩
  rintro request s ⟨rfl, rfl⟩
  split
  · rename_i hrequest
    apply ends_bind ends_claim
    rintro claimed t ht
    cases claimed with
    | false =>
      obtain ⟨rfl, hno⟩ := ht
      exact hidle fun h => hno h.2
    | true =>
      obtain ⟨rfl, hfree, hfails⟩ := ht
      have hclaimed : Resumable { s with claim := some i } := hs
      apply ends_bind (Q := fun request t => t = { s with claim := some i } ∧
        request = s.request)
      · exact ends_read ⟨rfl, rfl⟩
      rintro request t ⟨rfl, rfl⟩
      rw [if_pos hrequest]
      apply ends_mono (ends_finalizeClaimed hclaimed hon) (fun _ _ h => h)
      intro rc t ht
      exact ht.trans ⟨fun h _ _ _ => h, fun h => h hrequest hfree hfails⟩
  · rename_i hrequest
    exact hidle fun h => hrequest h.1

theorem resumable_powerWatch {fate : Fate} (hs : Resumable s) (hon : s.off = false) :
    Ends (fun _ _ => False)
      (fun _ t => t.off = true ∨ Resumable t ↔ (Program.powerWatch fate).Spares s)
      (powerWatch i fate) s := by
  have hidle : ¬ (s.request.isSome ∧ s.claim = none ∧ fate.fails .claim = false) →
      (s.off = true ∨ Resumable s ↔ (Program.powerWatch fate).Spares s) := by
    intro hno
    exact iff_of_true (Or.inr hs) fun hrequest hclaim hfails =>
      absurd ⟨hrequest, hclaim, hfails⟩ hno
  apply ends_bind (Q := fun request t => t = s ∧ request = s.request)
  · exact ends_read ⟨rfl, rfl⟩
  rintro request s ⟨rfl, rfl⟩
  split
  · rename_i hrequest
    apply ends_bind ends_claim
    rintro claimed t ht
    cases claimed with
    | false =>
      obtain ⟨rfl, hno⟩ := ht
      exact hidle fun h => hno h.2
    | true =>
      obtain ⟨rfl, hfree, hfails⟩ := ht
      have hclaimed : Resumable { s with claim := some i } := hs
      apply ends_mono (ends_finalizePowerClaimed hclaimed hon) (fun _ _ h => h)
      intro rc t ht
      exact ht.trans ⟨fun h _ _ _ => h, fun h => h hrequest hfree hfails⟩
  · rename_i hrequest
    exact hidle fun h => hrequest h.1

/-- From a state in which a power action can be requested, a run leaves such a state or the
power off, exactly if it is spared what it must not meet. -/
theorem resumable_run_iff (hs : Resumable s) (hon : s.off = false) {rc : ℕ}
    (hrun : (p.script i).Raises s rc t) : t.off = true ∨ Resumable t ↔ p.Spares s := by
  have hends : Ends (fun _ _ => False) (fun _ t => t.off = true ∨ Resumable t ↔ p.Spares s)
      (p.script i) s := by
    cases p with
    | safeShutdown fate action => exact resumable_safeShutdown hs hon
    | finalizer fate action => exact resumable_finalizer hs hon
    | powerWatch fate => exact resumable_powerWatch hs hon
  exact raises_of_wp (E := fun _ t => t.off = true ∨ Resumable t ↔ p.Spares s) hends trivial hrun

/-- Complete runs of the three scripts, by their processes. -/
def Completes (s : Machine) (e : ℕ × Program) (t : Machine) : Prop :=
  s.off = false ∧ ∃ rc, (e.2.script e.1).Raises s rc t

/-- Those that are spared. -/
def CompletesSpared (s : Machine) (e : ℕ × Program) (t : Machine) : Prop :=
  Completes s e t ∧ e.2.Spares s

/-- There is no dead end: a run of `plumos-safe-shutdown` in which each command succeeds ends
with status 0 and its request committed. -/
structure Requestable (s : Machine) : Prop where
  left : s.user.isSome ∨ s.request.isSome
  ends : ∀ action, ∃ rest t, Leads (safeShutdown .smooth action) s rest t ∧ rest.Ended
  succeeds : ∀ action rest t, Leads (safeShutdown .smooth action) s rest t → rest.Ended →
    rest = .raise 0 ∧ t.request = some action

theorem Resumable.requestable (hs : Resumable s) : Requestable s := by
  have hwp : ∀ action, Ends (fun _ _ => False) (fun rc t => rc = 0 ∧ t.request = some action)
      (safeShutdown .smooth action) s := by
    intro action
    have hbegins : Fate.smooth.Begins := ⟨rfl, rfl, rfl⟩
    rcases hs with ⟨huser, hrequest⟩ | ⟨huser, hrw⟩
    · obtain ⟨pending, hpending⟩ := Option.isSome_iff_exists.mp hrequest
      apply ends_mono (ends_safeShutdown_pending huser hpending) (fun _ _ h => h)
      rintro rc t ⟨ht, hrc⟩
      have hzero : rc = 0 := hrc.mpr ⟨hbegins, Or.inr ⟨rfl, rfl⟩⟩
      rw [if_pos hzero] at ht
      exact ⟨hzero, ht.request⟩
    · have hunmounts : Fate.smooth.Unmounts := ⟨rfl, ⟨rfl, rfl, rfl⟩, rfl⟩
      have hcommits : Fate.smooth.Commits := ⟨rfl, rfl⟩
      apply ends_mono (ends_safeShutdown_mounted huser hrw) (fun _ _ h => h)
      rintro rc t ⟨ht, hrc⟩
      rw [settled, if_pos ⟨hbegins, hunmounts⟩, if_pos hcommits] at ht
      exact ⟨hrc.mpr ⟨hbegins, hunmounts, hcommits⟩, ht.request⟩
  refine ⟨hs.symm.imp And.left And.right, fun action => ends_of_wp (hwp action), ?_⟩
  intro action rest t hlead hend
  obtain ⟨rc, hrest, hzero, hrequest⟩ := exit_of_wp (hwp action) trivial hlead hend
  exact ⟨hrest.trans (congrArg _ hzero), hrequest⟩

/-- Whatever fails in runs that are spared, a power action can be requested after them. -/
theorem spared_runs_leave_no_dead_end {es : List (ℕ × Program)} (huser : s.user.isSome)
    (hrw : s.readOnly = false) (hrun : Run CompletesSpared s es t) :
    t.off = true ∨ Requestable t := by
  have hinv : t.off = true ∨ Resumable t := by
    apply hrun.keeps (I := fun t => t.off = true ∨ Resumable t)
    · exact Or.inr (Or.inr ⟨huser, hrw⟩)
    · rintro t ⟨j, p⟩ u ht ⟨⟨hon, rc, hraises⟩, hspares⟩
      have hs := ht.resolve_left (by simp [hon])
      exact (resumable_run_iff hs hon hraises).mpr hspares
  exact hinv.imp_right Resumable.requestable

/-- A machine in use. -/
def inUse : Machine where
  user := some "/dev/mmcblk1p4".toList
  readOnly := false
  p3Marker := ⟨false, false⟩
  p4Marker := ⟨false, false⟩
  request := none
  userSource := none
  claim := none
  off := false

/-- One command fails. -/
def Fate.failing (site : Site) : Fate := ⟨fun other => other = site, 0⟩

def firstChoices : List ℕ := List.replicate 40 0

/-- The request of a reboot is committed, and PID 1 cannot make `/storage` read-only. -/
theorem spared_runs_leave_no_dead_end_sample :
    let requested := (play firstChoices (safeShutdown .smooth .reboot) inUse).2
    let refused := (play firstChoices (powerWatch 1 (.failing .remountStorage)) requested).2
    refused.off = true ∨ Requestable refused := by
  intro requested refused
  have hrequested : Completes inUse (0, .safeShutdown .smooth .reboot) requested :=
    ⟨rfl, 0, raises_play rfl⟩
  have hrefused : Completes requested (1, .powerWatch (.failing .remountStorage)) refused :=
    ⟨rfl, 1, raises_play rfl⟩
  have hspared : (Program.safeShutdown .smooth .reboot).Spares inUse :=
    fun _ _ _ => Or.inr ⟨rfl, rfl⟩
  have hspared' : (Program.powerWatch (.failing .remountStorage)).Spares requested :=
    fun _ _ _ => ⟨fun h => (by cases h.2), fun _ _ => ⟨fun _ => rfl, fun h => (by cases h)⟩⟩
  have hfirst : Run CompletesSpared inUse _ requested := Run.single ⟨hrequested, hspared⟩
  have hrun := hfirst.concat ⟨hrefused, hspared'⟩
  exact spared_runs_leave_no_dead_end rfl rfl hrun

/-- The user partition is unmounted, and a writer of `/storage` cannot be ended. -/
theorem failed_request_is_dead_end :
    ¬ ∀ (s t : Machine) (es : List (ℕ × Program)), s.user.isSome → s.readOnly = false →
      Run Completes s es t → t.off = true ∨ Requestable t := by
  intro hclaim
  have hfailed : Completes inUse (0, .safeShutdown (.failing .terminateStorage) .reboot)
      (play firstChoices (safeShutdown (.failing .terminateStorage) .reboot) inUse).2 :=
    ⟨rfl, 1, raises_play rfl⟩
  rcases hclaim inUse _ _ rfl rfl (Run.single hfailed) with hoff | hrequestable
  · revert hoff
    decide +kernel
  · have hleft := hrequestable.left
    revert hleft
    decide +kernel

end Runs

end PlumosBubble.Shutdown
