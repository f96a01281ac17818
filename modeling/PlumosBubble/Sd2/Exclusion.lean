import PlumosBubble.Sd2.Repair

/-! Repairs that do not take the lock of each other away exclude each other: while one is past
the lock no other changes the mounts, so the checker of that one finds SD2 unmounted. -/

namespace PlumosBubble.Sd2

open Scripts Transition

section Protocol

/-- SD2 is mounted nowhere. -/
def Unmounted (s : State) : Prop :=
  s.media = none ∧ s.roms = false ∧ s.bios = false ∧ s.elsewhere = false

/-- The invariant of all invocations. -/
structure Exclusive (s : State) : Prop where
  held : ∀ i, s.inside i = true → s.lock = true
  one : ∀ i j, s.inside i = true → s.inside j = true → i = j
  checker : ∀ i, s.checking i = true → s.inside i = true ∧ Unmounted s
  rw : ∀ e ∈ s.rwMounts, e.2 = some 0 ∨ e.2 = some 1
  nowhere : s.elsewhere = false

/-- What invocation `i` knows of the steps of the others: they do not touch what is its own,
nor the mounts while it is past the lock. -/
structure Others (i : ℕ) (s t : State) : Prop where
  inside : t.inside i = s.inside i
  checking : t.checking i = s.checking i
  checked : t.checked i = s.checked i
  mounts : s.inside i = true → t.media = s.media ∧ t.roms = s.roms ∧ t.bios = s.bios

/-- What it promises. -/
structure Own (i : ℕ) (s t : State) : Prop where
  inv : Exclusive t
  others : ∀ j, j ≠ i → t.inside j = s.inside j ∧ t.checking j = s.checking j ∧
    t.checked j = s.checked j
  mounts : s.inside i = false → t.media = s.media ∧ t.roms = s.roms ∧ t.bios = s.bios

/-- The protocol of the repairs. -/
def protocol : Protocol ℕ State where
  inv := Exclusive
  rely := Others
  guar := Own
  rely_refl _ _ := ⟨rfl, rfl, rfl, fun _ => ⟨rfl, rfl, rfl⟩⟩
  rely_trans {i s t u} h h' := by
    refine ⟨h'.inside.trans h.inside, h'.checking.trans h.checking, h'.checked.trans h.checked,
      fun hinside => ?_⟩
    have hmounts := h.mounts hinside
    have hmounts' := h'.mounts (h.inside.trans hinside)
    exact ⟨hmounts'.1.trans hmounts.1, hmounts'.2.1.trans hmounts.2.1,
      hmounts'.2.2.trans hmounts.2.2⟩
  keeps _ h := h.inv
  others {i j s t} hij hinv h := by
    obtain ⟨hinside, hchecking, hchecked⟩ := h.others j (Ne.symm hij)
    refine ⟨hinside, hchecking, hchecked, fun hj => h.mounts ?_⟩
    by_contra hi
    exact hij (hinv.one i j (by simpa using hi) hj)

/-- Invocation `i` does not remove the lock while another one is past it. -/
def LeavesLock (i : ℕ) (s t : State) : Prop :=
  ∀ j, j ≠ i → s.inside j = true → t.lock = true

end Protocol

section Rules

variable {i : ℕ} {pre : State → Prop} {Q : Bool → State → Prop} {s t : State}

/-- The protocol's triples. -/
def Does {α : Type} (i : ℕ) (pre : State → Prop) (m : Sh α) (Q : α → State → Prop)
    (E : Stop → State → Prop) : Prop :=
  Triple protocol (LeavesLock i) i pre m Q E

/-- An invocation that is not past the lock. -/
def Out (i : ℕ) (s : State) : Prop := s.inside i = false ∧ s.checking i = false

/-- One that is, and does not run the checker now. -/
def In (i : ℕ) (s : State) : Prop := s.inside i = true ∧ s.checking i = false

/-- What the others leave true. -/
abbrev Lasting (i : ℕ) (pre : State → Prop) : Prop := Stable protocol i pre

theorem lasting_out : Lasting i (Out i) := by
  intro s t _ hs hrely _
  exact ⟨hrely.inside.trans hs.1, hrely.checking.trans hs.2⟩

theorem lasting_in : Lasting i (In i) := by
  intro s t _ hs hrely _
  exact ⟨hrely.inside.trans hs.1, hrely.checking.trans hs.2⟩

theorem lasting_view (P : Option ℕ → Option Access → Bool → Bool → Prop) :
    Lasting i fun s => In i s ∧ P (s.checked i) s.media s.roms s.bios := by
  intro s t hs hp hrely ht
  obtain ⟨hmedia, hroms, hbios⟩ := hrely.mounts hp.1.1
  refine ⟨lasting_in s t hs hp.1 hrely ht, ?_⟩
  rw [hrely.checked, hmedia, hroms, hbios]
  exact hp.2

theorem own_refl (h : Exclusive s) : Own i s s :=
  ⟨h, fun _ _ => ⟨rfl, rfl, rfl⟩, fun _ => ⟨rfl, rfl, rfl⟩⟩

theorem own_of_in (hs : Exclusive s) (hin : In i s) (hlock : t.lock = s.lock)
    (hinside : t.inside = s.inside) (hchecking : t.checking = s.checking)
    (hchecked : t.checked = s.checked) (helsewhere : t.elsewhere = s.elsewhere)
    (hrw : ∀ e ∈ t.rwMounts, e.2 = some 0 ∨ e.2 = some 1) : Own i s t := by
  refine ⟨⟨?_, ?_, ?_, hrw, helsewhere.trans hs.nowhere⟩, fun j _ => ?_, fun hout => ?_⟩
  · intro j hj
    rw [hlock]
    exact hs.held j (hinside ▸ hj)
  · intro j k hj hk
    exact hs.one j k (hinside ▸ hj) (hinside ▸ hk)
  · intro j hj
    -- only this invocation could run the checker, and it does not
    rw [hchecking] at hj
    have hinside' := (hs.checker j hj).1
    rw [hs.one j i hinside' hin.1, hin.2] at hj
    cases hj
  · rw [hinside, hchecking, hchecked]
    exact ⟨rfl, rfl, rfl⟩
  · rw [hin.1] at hout
    cases hout

theorem own_setMedia (hs : Exclusive s) (hin : In i s) (media : Option Access) :
    Own i s (s.setMedia media) :=
  own_of_in hs hin rfl rfl rfl rfl rfl hs.rw

theorem own_setRoms (hs : Exclusive s) (hin : In i s) (bound : Bool) :
    Own i s (s.setRoms bound) :=
  own_of_in hs hin rfl rfl rfl rfl rfl hs.rw

theorem own_setBios (hs : Exclusive s) (hin : In i s) (bound : Bool) :
    Own i s (s.setBios bound) :=
  own_of_in hs hin rfl rfl rfl rfl rfl hs.rw

theorem own_mountAs (hs : Exclusive s) (hin : In i s) {access : Access}
    (haccess : access = .rw → s.checked i = some 0 ∨ s.checked i = some 1) :
    Own i s (s.mountAs i access) := by
  refine @own_of_in i s (s.mountAs i access) hs hin rfl rfl rfl rfl rfl fun e he => ?_
  unfold State.mountAs at he
  dsimp only at he
  split at he
  · rename_i hrw
    rcases List.mem_append.mp he with he | he
    · exact hs.rw e he
    · rw [List.mem_singleton.mp he]
      exact haccess hrw
  · exact hs.rw e he

variable {α : Type} {R : α → State → Prop} {E : Stop → State → Prop}

theorem does_look {outcomes : State → List (α × State)} (hpre : Lasting i pre)
    (hR : ∀ a, Lasting i (R a))
    (h : ∀ s, Exclusive s → pre s → ∀ o ∈ outcomes s, o.2 = s ∧ R o.1 s) :
    Does i pre (Script.run outcomes) R E :=
  Triple.look (fun _ => own_refl) hpre hR h

theorem does_read {f : State → α} (hpre : Lasting i pre) (hR : ∀ a, Lasting i (R a))
    (h : ∀ s, Exclusive s → pre s → R (f s) s) : Does i pre (Script.read f) R E :=
  Triple.read (fun _ => own_refl) hpre hR h

theorem does_choice (hpre : Lasting i pre) : Does i pre choice (fun _ => pre) E := by
  apply does_look hpre fun _ => hpre
  intro s _ hp o ho
  simp only [List.mem_cons, List.not_mem_nil, or_false] at ho
  rcases ho with rfl | rfl
  · exact ⟨rfl, hp⟩
  · exact ⟨rfl, hp⟩

theorem does_signalPoint (hpre : Lasting i pre) (mounted : Bool)
    (hE : ∀ s, Exclusive s → pre s → E (.exit mounted) s) :
    Does i pre (signalPoint mounted) (fun _ => pre) E := by
  apply Triple.bind (does_choice hpre)
  intro caught
  apply Triple.ite
  · intro _
    exact Triple.raise _ hpre hE
  · intro _
    exact Triple.pure _ hpre fun _ _ hp => hp

theorem does_tryCommand {f : State → State} (hpre : Lasting i pre) (hQ : ∀ b, Lasting i (Q b))
    (hf : ∀ s, Exclusive s → pre s → Own i s (f s) ∧ In i (f s) ∧ Q true (f s))
    (hno : ∀ s, Exclusive s → pre s → In i s ∧ Q false s) :
    Does i pre (tryCommand f) Q fun _ => In i := by
  have hresult : ∀ r : Option Bool, Lasting i fun s => In i s ∧ ∀ b, r = some b → Q b s := by
    intro r s t hs hp hrely ht
    exact ⟨lasting_in s t hs hp.1 hrely ht, fun b hb => hQ b s t hs (hp.2 b hb) hrely ht⟩
  apply Triple.bind (Q := fun r s => In i s ∧ ∀ b, r = some b → Q b s)
  · apply Triple.run hpre hresult
    intro s hs hp o ho _
    obtain ⟨hown, hin, hpost⟩ := hf s hs hp
    obtain ⟨hin', hpost'⟩ := hno s hs hp
    simp only [List.mem_cons, List.not_mem_nil, or_false] at ho
    rcases ho with rfl | rfl | rfl | rfl
    · exact ⟨hown, hin, fun b hb => by cases hb; exact hpost⟩
    · exact ⟨own_refl hs, hin', fun b hb => by cases hb; exact hpost'⟩
    · exact ⟨hown, hin, fun b hb => by cases hb⟩
    · exact ⟨own_refl hs, hin', fun b hb => by cases hb⟩
  · intro r
    cases r with
    | some ok => exact Triple.pure _ (hresult _) fun s _ hp => hp.2 ok rfl
    | none => exact Triple.raise _ (hresult _) fun s _ hp => hp.1

end Rules

section Helpers

variable {i : ℕ}

/-- What a successful `stop_sd2` leaves. -/
def Stopped (i : ℕ) (s : State) : Prop :=
  In i s ∧ s.media = none ∧ s.roms = false ∧ s.bios = false

theorem lasting_stopped : Lasting i (Stopped i) :=
  lasting_view fun _ media roms bios => media = none ∧ roms = false ∧ bios = false

/-- The leave to mount SD2 as `access`. -/
def MayMount (i : ℕ) (access : Access) (s : State) : Prop :=
  In i s ∧ (access = .rw → s.checked i = some 0 ∨ s.checked i = some 1)

theorem lasting_mayMount (access : Access) : Lasting i (MayMount i access) :=
  lasting_view fun checked _ _ _ => access = .rw → checked = some 0 ∨ checked = some 1

variable {pre : State → Prop} {Q : Bool → State → Prop}

theorem does_unbindContentDir {bound : State → Bool} {clear : State → State}
    (hpre : ∀ b, Lasting i fun s => pre s ∧ bound s = b) (hpre' : Lasting i pre)
    (hQ : ∀ b, Lasting i (Q b))
    (hclear : ∀ s, Exclusive s → pre s → Own i s (clear s) ∧ In i (clear s) ∧ Q true (clear s))
    (hbound : ∀ s, pre s → bound s = false → Q true s) (hno : ∀ s, pre s → In i s ∧ Q false s) :
    Does i pre (unbindContentDir bound clear) Q fun _ => In i := by
  apply Triple.bind (Q := fun b s => pre s ∧ bound s = b)
  · exact does_read hpre' hpre fun _ _ hp => ⟨hp, rfl⟩
  · intro there
    apply Triple.ite
    · intro _
      apply Triple.bind (Q := fun _ => pre)
      · exact does_read (hpre there) (fun _ => hpre') fun _ _ hp => hp.1
      · intro source
        apply Triple.ite
        · intro _
          exact does_tryCommand hpre' hQ hclear fun s _ hp => hno s hp
        · intro _
          exact Triple.pure _ hpre' fun s _ hp => (hno s hp).2
    · intro hthere
      have hnot : there = false := by simpa using hthere
      apply (does_look (hpre there) hQ _ : Does i _ choice Q fun _ => In i)
      intro s _ hp o ho
      simp only [List.mem_cons, List.not_mem_nil, or_false] at ho
      rcases ho with rfl | rfl
      · exact ⟨rfl, hbound s hp.1 (hp.2.trans hnot)⟩
      · exact ⟨rfl, (hno s hp.1).2⟩

theorem does_unmountSd2 :
    Does i (fun s => In i s ∧ s.roms = false ∧ s.bios = false) unmountSd2
      (fun ok s => In i s ∧ (ok = true → Stopped i s)) fun _ => In i := by
  have hclear : Lasting i fun s => In i s ∧ s.roms = false ∧ s.bios = false :=
    lasting_view fun _ _ roms bios => roms = false ∧ bios = false
  have hpost : ∀ ok : Bool, Lasting i fun s => In i s ∧ (ok = true → Stopped i s) := by
    intro ok s t hs hp hrely ht
    exact ⟨lasting_in s t hs hp.1 hrely ht, fun hok => lasting_stopped s t hs (hp.2 hok) hrely ht⟩
  have hunmount : Does i (fun s => In i s ∧ s.roms = false ∧ s.bios = false)
      (tryCommand (·.setMedia none)) (fun ok s => In i s ∧ (ok = true → Stopped i s))
      fun _ => In i := by
    apply does_tryCommand hclear hpost
    · intro s hs hp
      exact ⟨own_setMedia hs hp.1 none, hp.1, hp.1, fun _ => ⟨hp.1, rfl, hp.2.1, hp.2.2⟩⟩
    · exact fun s _ hp => ⟨hp.1, hp.1, fun hok => by cases hok⟩
  apply Triple.bind (Q := fun access s =>
    In i s ∧ s.media = access ∧ s.roms = false ∧ s.bios = false)
  · exact does_read hclear
      (fun access => lasting_view fun _ media roms bios => media = access ∧ roms = false ∧
        bios = false) fun s _ hp => ⟨hp.1, rfl, hp.2⟩
  · intro access
    have hread : Lasting i fun s => In i s ∧ s.media = access ∧ s.roms = false ∧
        s.bios = false :=
      lasting_view fun _ media roms bios => media = access ∧ roms = false ∧ bios = false
    cases access with
    | none => exact Triple.pure _ hread fun s _ hp => ⟨hp.1, fun _ => hp⟩
    | some access =>
      match access with
      | .ro =>
        exact Triple.conseq hunmount (fun s _ hp => ⟨hp.1, hp.2.2⟩) (fun _ _ _ h => h)
          fun _ _ _ h => h
      | .rw =>
        apply Triple.bind (Q := fun _ s => In i s ∧ s.roms = false ∧ s.bios = false)
        · apply does_tryCommand hread fun _ => hclear
          · exact fun s hs hp => ⟨own_setMedia hs hp.1 _, hp.1, hp.1, hp.2.2⟩
          · exact fun s _ hp => ⟨hp.1, hp.1, hp.2.2⟩
        · intro remounted
          apply Triple.ite
          · exact fun _ => hunmount
          · intro _
            exact Triple.pure _ hclear fun s _ hp => ⟨hp.1, fun hok => by cases hok⟩

theorem does_stopSd2 :
    Does i (In i) stopSd2 (fun ok s => In i s ∧ (ok = true → Stopped i s)) fun _ => In i := by
  have hbios : ∀ ok : Bool, Lasting i fun s => In i s ∧ (ok = true → s.bios = false) :=
    fun ok => lasting_view fun _ _ _ bios => ok = true → bios = false
  have hboth : ∀ bios roms : Bool, Lasting i fun s => In i s ∧ (bios = true → s.bios = false) ∧
      (roms = true → s.roms = false) :=
    fun bios roms => lasting_view fun _ _ roms' bios' => (bios = true → bios' = false) ∧
      (roms = true → roms' = false)
  apply Triple.bind (Q := fun ok s => In i s ∧ (ok = true → s.bios = false))
  · apply does_unbindContentDir (fun b => lasting_view fun _ _ _ bios => bios = b) lasting_in hbios
    · exact fun s hs hp => ⟨own_setBios hs hp false, hp, hp, fun _ => rfl⟩
    · exact fun s hp hbound => ⟨hp, fun _ => hbound⟩
    · exact fun s hp => ⟨hp, hp, fun hok => by cases hok⟩
  · intro bios
    apply Triple.bind (Q := fun roms s => In i s ∧ (bios = true → s.bios = false) ∧
      (roms = true → s.roms = false))
    · apply @does_unbindContentDir i fun s => In i s ∧ (bios = true → s.bios = false)
      · intro b s t hs hp hrely ht
        have hview := lasting_view (i := i) (fun _ _ roms bios' => (bios = true → bios' = false) ∧
          roms = b) s t hs ⟨hp.1.1, hp.1.2, hp.2⟩ hrely ht
        exact ⟨⟨hview.1, hview.2.1⟩, hview.2.2⟩
      · exact hbios bios
      · exact hboth bios
      · exact fun s hs hp => ⟨own_setRoms hs hp.1 false, hp.1, hp.1, hp.2, fun _ => rfl⟩
      · exact fun s hp hbound => ⟨hp.1, hp.2, fun _ => hbound⟩
      · exact fun s hp => ⟨hp.1, hp.1, hp.2, fun hok => by cases hok⟩
    · intro roms
      apply Triple.ite
      · intro hdone
        obtain ⟨hb, hr⟩ := Bool.and_eq_true_iff.mp hdone
        exact Triple.conseq does_unmountSd2 (fun s _ hp => ⟨hp.1, hp.2.2 hr, hp.2.1 hb⟩)
          (fun _ _ _ h => h) fun _ _ _ h => h
      · intro _
        exact Triple.pure _ (hboth bios roms) fun s _ hp => ⟨hp.1, fun hok => by cases hok⟩

variable {access : Access}

/-- A command of `start_sd2`. -/
theorem does_mount {f : State → State}
    (hf : ∀ s, Exclusive s → MayMount i access s → Own i s (f s) ∧ MayMount i access (f s)) :
    Does i (MayMount i access) (tryCommand f) (fun _ => MayMount i access) fun _ => In i :=
  does_tryCommand (lasting_mayMount access) (fun _ => lasting_mayMount access)
    (fun s hs hp => ⟨(hf s hs hp).1, (hf s hs hp).2.1, (hf s hs hp).2⟩)
    fun _ _ hp => ⟨hp.1, hp⟩

theorem does_bindContentDir {bound : State → Bool} {bind : State → State}
    (hf : ∀ s, Exclusive s → MayMount i access s →
      Own i s (bind s) ∧ MayMount i access (bind s)) :
    Does i (MayMount i access) (bindContentDir bound bind) (fun _ => MayMount i access)
      fun _ => In i := by
  have hlasting := @lasting_mayMount i access
  apply Triple.bind (does_choice hlasting)
  intro there
  apply Triple.ite
  · intro _
    apply Triple.bind (Q := fun _ => MayMount i access)
    · exact does_read hlasting (fun _ => hlasting) fun _ _ hp => hp
    · intro already
      apply Triple.ite
      · exact fun _ => does_mount fun s hs hp => ⟨own_refl hs, hp⟩
      · exact fun _ => does_mount hf
  · intro _
    exact Triple.pure _ hlasting fun _ _ hp => hp

theorem does_startSd2 :
    Does i (MayMount i access) (startSd2 i access) (fun _ => In i) fun _ => In i := by
  have hlasting := @lasting_mayMount i access
  have hpure : ∀ ok : Bool, Does i (MayMount i access) (pure ok) (fun _ => MayMount i access)
      fun _ => In i := fun ok => Triple.pure ok hlasting fun _ _ hp => hp
  have hmountAs : Does i (MayMount i access) (tryCommand (·.mountAs i access))
      (fun _ => MayMount i access) fun _ => In i :=
    does_mount fun s hs hp => ⟨own_mountAs hs hp.1 hp.2, hp.1, hp.2⟩
  have hmountRo : Does i (MayMount i access) (tryCommand (·.mountAs i .ro))
      (fun _ => MayMount i access) fun _ => In i :=
    does_mount fun s hs hp => ⟨own_mountAs hs hp.1 (fun h => by cases h), hp.1, hp.2⟩
  have hbind : Does i (MayMount i access) bindContent (fun _ => MayMount i access)
      fun _ => In i := by
    apply Triple.bind (does_bindContentDir fun s hs hp => ⟨own_setRoms hs hp.1 true, hp.1, hp.2⟩)
    intro roms
    apply Triple.bind (does_bindContentDir fun s hs hp => ⟨own_setBios hs hp.1 true, hp.1, hp.2⟩)
    exact fun bios => hpure _
  have hweak : ∀ {m : Sh Bool}, Does i (MayMount i access) m (fun _ => MayMount i access)
      (fun _ => In i) → Does i (MayMount i access) m (fun _ => In i) fun _ => In i :=
    fun h => Triple.conseq h (fun _ _ hp => hp) (fun _ _ _ hp => hp.1) fun _ _ _ h => h
  apply hweak
  apply Triple.bind (does_choice hlasting)
  intro resolved
  apply Triple.ite
  · intro _
    apply Triple.bind (Q := fun _ => MayMount i access)
    · exact does_read hlasting (fun _ => hlasting) fun _ _ hp => hp
    · intro media
      have hafter : ∀ mounted : Bool, Does i (MayMount i access)
          (if mounted then bindContent else pure false) (fun _ => MayMount i access)
          fun _ => In i :=
        fun mounted => Triple.ite (fun _ => hbind) fun _ => hpure false
      cases media with
      | some current =>
        refine Triple.bind ?_ hafter
        apply Triple.bind (does_choice hlasting)
        intro own
        apply Triple.ite
        · intro _
          apply Triple.ite
          · exact fun _ => hpure true
          · intro _
            exact Triple.bind hmountAs fun _ => hpure true
        · exact fun _ => hpure false
      | none =>
        refine Triple.bind ?_ hafter
        apply Triple.bind hmountAs
        intro ok
        apply Triple.ite
        · exact fun _ => hpure true
        · intro _
          match access with
          | .rw => exact hmountRo
          | .ro => exact hpure false
  · exact fun _ => hpure true

end Helpers

section Invocation

variable {i : ℕ} {pre : State → Prop} {Q : Bool → State → Prop}

/-- How an invocation comes to its exit trap: with SD2 unmounted only past the lock. -/
def Leaving (i : ℕ) (mounted : Bool) (s : State) : Prop :=
  (In i s ∨ Out i s) ∧ (mounted = false → In i s)

theorem leaving_of_in {mounted : Bool} {s : State} (h : In i s) : Leaving i mounted s :=
  ⟨Or.inl h, fun _ => h⟩

theorem lasting_leaving (mounted : Bool) : Lasting i (Leaving i mounted) := by
  intro s t hs hp hrely ht
  refine ⟨hp.1.imp (fun h => lasting_in s t hs h hrely ht) fun h => ?_,
    fun hm => lasting_in s t hs (hp.2 hm) hrely ht⟩
  exact lasting_out s t hs h hrely ht

/-- The same for an early end. -/
def LeavingBy (i : ℕ) : Stop → State → Prop
  | .exit mounted => Leaving i mounted
  | .helperFailed => Leaving i true

theorem does_callHelper {m : Sh Bool} (hm : Does i pre m Q fun _ => In i)
    (hno : ∀ s, Exclusive s → In i s → Q false s) :
    Does i pre (callHelper m) Q (LeavingBy i) := by
  apply Triple.handle hm
  intro stop
  cases stop with
  | helperFailed => exact Triple.pure _ lasting_in hno
  | exit mounted => exact Triple.raise _ lasting_in fun s _ hp => leaving_of_in hp

theorem does_mkdirLock : Does i (Out i) (mkdirLock i)
    (fun locked s => (locked = true → In i s) ∧ (locked = false → Out i s)) (LeavingBy i) := by
  have hpost : ∀ locked : Bool, Lasting i fun s => (locked = true → In i s) ∧
      (locked = false → Out i s) := by
    intro locked s t hs hp hrely ht
    exact ⟨fun h => lasting_in s t hs (hp.1 h) hrely ht,
      fun h => lasting_out s t hs (hp.2 h) hrely ht⟩
  apply Triple.run lasting_out hpost
  intro s hs hp o ho _
  have hs : Exclusive s := hs
  have hstay : protocol.guar i s s ∧ (false = true → In i s) ∧ (false = false → Out i s) :=
    ⟨own_refl hs, fun h => (by cases h), fun _ => hp⟩
  split at ho
  · rw [List.mem_singleton.mp ho]
    exact hstay
  · rename_i hfree
    rcases List.mem_cons.mp ho with rfl | ho
    · -- nobody is past a lock that is free
      have hnobody : ∀ j, s.inside j = false := by
        intro j
        by_contra hj
        exact hfree (hs.held j (by simpa using hj))
      have hinside : ∀ j, Function.update s.inside i true j = true → j = i := by
        intro j hj
        by_contra hne
        rw [Function.update_of_ne hne, hnobody j] at hj
        cases hj
      refine ⟨⟨⟨fun _ _ => rfl, fun j k hj hk => ?_, fun j hj => ?_, hs.rw, hs.nowhere⟩,
        fun j hj => ?_, fun _ => ⟨rfl, rfl, rfl⟩⟩, fun _ => ⟨?_, hp.2⟩, fun h => (by cases h)⟩
      · exact (hinside j hj).trans (hinside k hk).symm
      · have hj' := (hs.checker j hj).1
        rw [hnobody j] at hj'
        cases hj'
      · exact ⟨Function.update_of_ne hj _ _, rfl, rfl⟩
      · exact Function.update_self i true s.inside
    · rw [List.mem_singleton.mp ho]
      exact hstay

/-- Past the lock and running the checker. -/
def Checking (i : ℕ) (s : State) : Prop := s.inside i = true ∧ s.checking i = true

theorem lasting_checking : Lasting i (Checking i) := by
  intro s t _ hs hrely _
  exact ⟨hrely.inside.trans hs.1, hrely.checking.trans hs.2⟩

theorem lasting_checked (rc : ℕ) : Lasting i fun s => In i s ∧ s.checked i = some rc :=
  lasting_view fun checked _ _ _ => checked = some rc

theorem does_runChecker : Does i (Stopped i) (runChecker i)
    (fun rc s => In i s ∧ s.checked i = some rc) (LeavingBy i) := by
  apply Triple.bind (Q := fun _ => Checking i)
  · apply Triple.run lasting_stopped fun _ => lasting_checking
    intro s hs hp o ho _
    have hs : Exclusive s := hs
    rw [List.mem_singleton.mp ho]
    obtain ⟨hin, hmedia, hroms, hbios⟩ := hp
    refine ⟨⟨⟨hs.held, hs.one, fun j hj => ?_, hs.rw, hs.nowhere⟩, fun j hj => ?_, fun hout => ?_⟩,
      hin.1, Function.update_self i true s.checking⟩
    · have hji : j = i := by
        by_contra hne
        have hj : Function.update s.checking i true j = true := hj
        rw [Function.update_of_ne hne] at hj
        exact hne (hs.one j i (hs.checker j hj).1 hin.1)
      subst hji
      exact ⟨hin.1, hmedia, hroms, hbios, hs.nowhere⟩
    · exact ⟨rfl, Function.update_of_ne hj _ _, rfl⟩
    · exact ⟨rfl, rfl, rfl⟩
  · intro _
    apply Triple.run lasting_checking lasting_checked
    intro s hs hp o ho _
    have hs : Exclusive s := hs
    obtain ⟨rc, -, rfl⟩ := List.mem_map.mp ho
    refine ⟨⟨⟨hs.held, hs.one, fun j hj => ?_, hs.rw, hs.nowhere⟩, fun j hj => ?_, fun hout => ?_⟩,
      ⟨hp.1, Function.update_self i false s.checking⟩, Function.update_self i _ s.checked⟩
    · have hj : Function.update s.checking i false j = true := hj
      have hne : j ≠ i := by
        rintro rfl
        rw [Function.update_self] at hj
        cases hj
      rw [Function.update_of_ne hne] at hj
      exact hs.checker j hj
    · exact ⟨rfl, Function.update_of_ne hj _ _, Function.update_of_ne hj _ _⟩
    · exact ⟨rfl, rfl, rfl⟩

theorem does_checkAndRemount :
    Does i (Stopped i) (checkAndRemount i) (fun _ => In i) (LeavingBy i) := by
  apply Triple.bind (does_signalPoint lasting_stopped false fun s _ hp => leaving_of_in hp.1)
  intro _
  apply Triple.bind does_runChecker
  intro rc
  apply Triple.bind (does_signalPoint (lasting_checked rc) false fun s _ hp => leaving_of_in hp.1)
  intro _
  apply Triple.bind (Q := fun _ => In i)
  · apply does_callHelper _ fun _ _ h => h
    apply Triple.conseq does_startSd2 _ (fun _ _ _ h => h) fun _ _ _ h => h
    rintro s - ⟨hin, hchecked⟩
    refine ⟨hin, fun haccess => ?_⟩
    unfold accessFor at haccess
    split at haccess
    · rename_i hrc
      rw [hchecked]
      exact hrc.imp (congrArg some) (congrArg some)
    · cases haccess
  · intro started
    apply Triple.bind (does_signalPoint lasting_in false fun s _ hp => leaving_of_in hp)
    intro _
    apply Triple.ite
    · exact fun _ => does_signalPoint lasting_in true fun s _ hp => leaving_of_in hp
    · exact fun _ => Triple.raise _ lasting_in fun s _ hp => leaving_of_in hp

theorem does_pastLock : Does i (In i) (pastLock i) (fun _ => In i) (LeavingBy i) := by
  have hsignal : ∀ mounted, Does i (In i) (signalPoint mounted) (fun _ => In i) (LeavingBy i) :=
    fun mounted => does_signalPoint lasting_in mounted fun s _ hp => leaving_of_in hp
  have hexit : Does i (In i) (.raise (.exit true) : Sh Unit) (fun _ => In i) (LeavingBy i) :=
    Triple.raise _ lasting_in fun s _ hp => leaving_of_in hp
  apply Triple.bind (hsignal true)
  intro _
  apply Triple.bind (Q := fun _ => In i)
  · exact does_read lasting_in (fun _ => lasting_in) fun _ _ hp => hp
  · intro mounted
    apply Triple.bind (does_choice lasting_in)
    intro accepted
    apply Triple.ite
    · intro _
      have hstopped : ∀ ok : Bool, Lasting i fun s => In i s ∧ (ok = true → Stopped i s) := by
        intro ok s t hs hp hrely ht
        exact ⟨lasting_in s t hs hp.1 hrely ht,
          fun hok => lasting_stopped s t hs (hp.2 hok) hrely ht⟩
      apply Triple.bind (does_callHelper does_stopSd2
        fun s _ hin => ⟨hin, fun h => by cases h⟩)
      intro ok
      apply Triple.bind (does_signalPoint (hstopped ok) true fun s _ hp => leaving_of_in hp.1)
      intro _
      apply Triple.ite
      · intro hok
        exact Triple.conseq does_checkAndRemount (fun s _ hp => hp.2 hok) (fun _ _ _ h => h)
          fun _ _ _ h => h
      · intro _
        exact Triple.conseq hexit (fun s _ hp => hp.1) (fun _ _ _ h => h) fun _ _ _ h => h
    · exact fun _ => hexit

theorem does_body : Does i (Out i) (body i) (fun _ => In i) (LeavingBy i) := by
  have hout : ∀ s, Out i s → Leaving i true s := fun s hp => ⟨Or.inr hp, fun h => by cases h⟩
  apply Triple.bind (does_signalPoint lasting_out true fun s _ hp => hout s hp)
  intro _
  apply Triple.bind does_mkdirLock
  intro locked
  cases locked with
  | true =>
    exact Triple.conseq does_pastLock (fun s _ hp => hp.1 rfl) (fun _ _ _ h => h) fun _ _ _ h => h
  | false =>
    have hpost : Does i (Out i) (.raise (.exit true) : Sh Unit) (fun _ => In i) (LeavingBy i) :=
      Triple.raise _ lasting_out fun s _ hp => hout s hp
    exact Triple.conseq hpost (fun s _ hp => hp.2 rfl) (fun _ _ _ h => h) fun _ _ _ h => h

theorem does_bodyMounted {E : Stop → State → Prop} :
    Does i (Out i) (bodyMounted i) (Leaving i) E := by
  have hbody : Does i (Out i) (body i >>= fun _ => pure true) (Leaving i) (LeavingBy i) := by
    apply Triple.bind does_body
    intro _
    exact Triple.pure _ lasting_in fun s _ hp => leaving_of_in hp
  apply Triple.handle hbody
  intro stop
  cases stop with
  | helperFailed => exact Triple.pure _ (lasting_leaving true) fun s _ hp => hp
  | exit mounted => exact Triple.pure _ (lasting_leaving mounted) fun s _ hp => hp

theorem does_rmdirLock : Does i (Leaving i true) (rmdirLock i) (fun _ _ => True)
    fun _ _ => True := by
  apply Triple.run (lasting_leaving true) fun _ _ _ _ _ _ _ => trivial
  intro s hs hp o ho hleaves
  have hs : Exclusive s := hs
  have hchecking : s.checking i = false := hp.1.elim And.right And.right
  have hothers : ∀ j, Function.update s.inside i false j = true → j ≠ i ∧ s.inside j = true := by
    intro j hj
    have hne : j ≠ i := by
      rintro rfl
      rw [Function.update_self] at hj
      cases hj
    exact ⟨hne, by rwa [Function.update_of_ne hne] at hj⟩
  have hcheck : ∀ j, s.checking j = true →
      Function.update s.inside i false j = true ∧ Unmounted s := by
    intro j hj
    have hne : j ≠ i := by
      rintro rfl
      rw [hchecking] at hj
      cases hj
    exact ⟨by rw [Function.update_of_ne hne]; exact (hs.checker j hj).1, (hs.checker j hj).2⟩
  have hone : ∀ j k, Function.update s.inside i false j = true →
      Function.update s.inside i false k = true → j = k :=
    fun j k hj hk => hs.one j k (hothers j hj).2 (hothers k hk).2
  have hrest : ∀ j, j ≠ i → Function.update s.inside i false j = s.inside j ∧
      s.checking j = s.checking j ∧ s.checked j = s.checked j :=
    fun j hj => ⟨Function.update_of_ne hj _ _, rfl, rfl⟩
  refine ⟨?_, trivial⟩
  simp only [List.mem_cons, List.not_mem_nil, or_false] at ho
  rcases ho with rfl | rfl
  · refine ⟨⟨fun j hj => ?_, hone, hcheck, hs.rw, hs.nowhere⟩, hrest, fun _ => ⟨rfl, rfl, rfl⟩⟩
    exact hleaves j (hothers j hj).1 (hothers j hj).2
  · refine ⟨⟨fun j hj => ?_, hone, hcheck, hs.rw, hs.nowhere⟩, hrest, fun _ => ⟨rfl, rfl, rfl⟩⟩
    exact hs.held j (hothers j hj).2

theorem does_recover (mounted : Bool) :
    Does i (Leaving i mounted) (recover i mounted) (fun _ => Leaving i true) fun _ _ => True := by
  cases mounted with
  | true => exact Triple.pure _ (lasting_leaving true) fun _ _ hp => hp
  | false =>
    apply Triple.bind (Q := fun _ => In i)
    · have hstart : Does i (In i) (callHelper (startSd2 i .ro)) (fun _ => In i)
          (LeavingBy i) := by
        apply does_callHelper _ fun _ _ h => h
        exact Triple.conseq does_startSd2 (fun s _ hp => ⟨hp, fun h => (by cases h)⟩)
          (fun _ _ _ h => h) fun _ _ _ h => h
      exact Triple.conseq hstart (fun s _ hp => hp.2 rfl) (fun _ _ _ h => h)
        fun _ _ _ _ => trivial
    · intro _
      exact Triple.pure _ lasting_in fun s _ hp => leaving_of_in hp

theorem does_repair : Does i (Out i) (repair i) (fun _ _ => True) fun _ _ => True := by
  apply Triple.bind does_bodyMounted
  intro mounted
  apply Triple.bind (does_recover mounted)
  exact fun _ => does_rmdirLock

end Invocation

section Runs

/-- No invocation has begun. -/
structure Idle (s : State) : Prop where
  inside : ∀ i, s.inside i = false
  checking : ∀ i, s.checking i = false
  rwMounts : s.rwMounts = []

/-- What the lock is there for: one repair at a time, the checker on a device that is mounted
nowhere, and read-write mounts only after it returned 0 or 1. -/
structure Excluded (s : State) : Prop where
  one : ∀ i j, s.inside i = true → s.inside j = true → i = j
  unmounted : ∀ i, s.checking i = true → Unmounted s
  single : ∀ i j, s.checking i = true → s.checking j = true → i = j
  rw : ∀ e ∈ s.rwMounts, e.2 = some 0 ∨ e.2 = some 1

variable {s : State} {is : List ℕ} {q : Pool ℕ State Stop Unit}

theorem Exclusive.excluded (h : Exclusive s) : Excluded s where
  one := h.one
  unmounted i hi := (h.checker i hi).2
  single i j hi hj := h.one i j (h.checker i hi).1 (h.checker j hj).1
  rw := h.rw

theorem Idle.exclusive (hs : Idle s) (hnowhere : s.elsewhere = false) : Exclusive s where
  held i hi := by rw [hs.inside i] at hi; cases hi
  one i _ hi := by rw [hs.inside i] at hi; cases hi
  checker i hi := by rw [hs.checking i] at hi; cases hi
  rw e he := by rw [hs.rwMounts] at he; cases he
  nowhere := hnowhere

theorem invocations_sound (hs : Idle s) (hnowhere : s.elsewhere = false) :
    Pool.Sound protocol LeavesLock (invocations s) := by
  have hinv : protocol.inv s := hs.exclusive hnowhere
  exact ⟨hinv, fun i => does_repair s hinv ⟨hs.inside i, hs.checking i⟩⟩

/-- SD2 with its content bound, the lock free. -/
def insertedCard : State where
  lock := false
  media := some .rw
  roms := true
  bios := true
  elsewhere := false
  inside _ := false
  checking _ := false
  checked _ := none
  rwMounts := []

theorem insertedCard_idle : Idle insertedCard := ⟨fun _ => rfl, fun _ => rfl, rfl⟩

/-- Invocation 0 gets the lock. -/
def oneLocked : Pool ℕ State Stop Unit :=
  Pool.play [(0, 0)] (Pool.play [(0, 1)] (invocations insertedCard))

/-- Invocation 0 gets the lock, invocation 1 is refused and removes it as it exits, and
invocation 2 gets it. -/
def lockTaken : Pool ℕ State Stop Unit :=
  Pool.play [(0, 1), (0, 0), (1, 1), (1, 0), (1, 0), (2, 1), (2, 0)] (invocations insertedCard)

end Runs

end PlumosBubble.Sd2
