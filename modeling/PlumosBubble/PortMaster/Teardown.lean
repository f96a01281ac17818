import PlumosBubble.PortMaster.PortLaunch

/-! One invocation of `plumos-portmaster-port-launch` with signals between any two of its commands:
where no signal comes before something that the set-up still makes, and the port's group can be
found, nothing of the session is left when the script has ended. -/

namespace PlumosBubble.PortLaunch

open Scripts Transition

section Protocol

theorem Port.Becomes.refl (p : Port) : p.Becomes p :=
  ⟨id, Or.inr, fun h => Or.inr (Or.inr h), fun h => Or.inr (Or.inr h)⟩

theorem Port.Becomes.trans {p q r : Port} (h : p.Becomes q) (h' : q.Becomes r) : p.Becomes r := by
  obtain ⟨hchild, hmember, hstray, hescaped⟩ := h
  obtain ⟨hchild', hmember', hstray', hescaped'⟩ := h'
  refine ⟨fun hr => hchild (hchild' hr), fun hr => ?_, fun hr => ?_, fun hr => ?_⟩
  · rcases hmember' hr with hq | hq
    · exact Or.inl (hchild hq)
    · exact hmember hq
  · rcases hstray' hr with hq | hq | hq
    · exact Or.inl (hchild hq)
    · exact (hmember hq).imp_right Or.inl
    · exact hstray hq
  · rcases hescaped' hr with hq | hq | hq
    · exact Or.inl (hchild hq)
    · exact (hmember hq).imp_right Or.inl
    · exact hescaped hq

/-- No process of the group is left. -/
def Port.Quiet (p : Port) : Prop := p.child = false ∧ p.member = false ∧ p.stray = false

theorem Port.Quiet.becomes {p q : Port} (hp : p.Quiet) (h : p.Becomes q) : q.Quiet := by
  obtain ⟨hchild, hmember, hstray⟩ := hp
  have hfalse : ∀ {b : Bool}, (b = true → False) → b = false := fun h => by simpa using h
  refine ⟨hfalse fun hq => ?_, hfalse fun hq => ?_, hfalse fun hq => ?_⟩
  · have hchild' := h.1 hq
    simp [hchild] at hchild'
  · have hmember' := h.2.1 hq
    simp [hchild, hmember] at hmember'
  · have hstray' := h.2.2.1 hq
    simp [hchild, hmember, hstray] at hstray'

theorem Port.gone_of_quiet {p : Port} (hp : p.Quiet) (hescaped : p.escaped = false) : p = gone := by
  obtain ⟨hchild, hmember, hstray⟩ := hp
  cases p
  simp only at hchild hmember hstray hescaped
  rw [hchild, hmember, hstray, hescaped]
  rfl

theorem Port.gone_becomes {q : Port} (h : gone.Becomes q) : q = gone := by
  have hquiet : q.Quiet := Port.Quiet.becomes ⟨rfl, rfl, rfl⟩ h
  apply Port.gone_of_quiet hquiet
  cases hq : q.escaped with
  | false => rfl
  | true =>
    have hescaped := h.2.2.2 hq
    simp [gone] at hescaped

inductive Party where
  | launcher
  | world
  deriving DecidableEq

/-- What the world does to an invocation: its port goes on, and helpers come up. -/
def Unaffected (i : ℕ) (s t : State) : Prop :=
  ∃ port helper, t = { s with port := port, helper := helper } ∧ (s.port i).Becomes (port i)

theorem Unaffected.refl (i : ℕ) (s : State) : Unaffected i s s :=
  ⟨s.port, s.helper, rfl, Port.Becomes.refl _⟩

theorem Unaffected.trans {i : ℕ} {s t u : State} (h : Unaffected i s t) (h' : Unaffected i t u) :
    Unaffected i s u := by
  obtain ⟨port, helper, rfl, hport⟩ := h
  obtain ⟨port', helper', rfl, hport'⟩ := h'
  exact ⟨port', helper', rfl, hport.trans hport'⟩

/-- A step makes a mount, or starts the child. -/
def Makes (i : ℕ) (s t : State) : Prop :=
  (∃ target, (s.mounts target).count i < (t.mounts target).count i) ∨
    ((s.port i).child = false ∧ (t.port i).child = true)

/-- Once the cleanup has begun, the script makes nothing; the world touches only the ports. -/
def protocol (i : ℕ) : Protocol Party State where
  inv _ := True
  rely
    | .launcher => Unaffected i
    | .world => fun _ _ => True
  guar
    | .launcher => fun s t => (s.vars i).cleanupDone = true → ¬Makes i s t
    | .world => Unaffected i
  rely_refl p s := by
    cases p with
    | launcher => exact Unaffected.refl i s
    | world => trivial
  rely_trans {p s t u} h h' := by
    cases p with
    | launcher => exact Unaffected.trans h h'
    | world => trivial
  keeps _ _ := trivial
  others {p q s t} hpq _ h := by
    cases q with
    | world => trivial
    | launcher =>
      cases p with
      | launcher => exact absurd rfl hpq
      | world => exact h

/-- No signal has arrived when the script makes a mount, acquires the hold, starts the child or
notes one of these; and when it sweeps the session, this is not the one that it runs in itself,
and either the pid record names the child or no process of the group lacks the session's id. -/
def Careful (i : ℕ) : Party → State → State → Prop
  | .launcher, s, t =>
    (t.deeds i ≠ s.deeds i → s.signalled i = false) ∧
    (t.sweeps i ≠ s.sweeps i →
      s.inherited i = false ∧ (s.pid = some ⟨i, true⟩ ∨ (s.port i).stray = false))
  | .world, _, _ => True

/-- Nothing of an invocation is left. -/
structure Clean (i : ℕ) (s : State) : Prop where
  mounts : ∀ target, i ∉ s.mounts target
  pid : ∀ complete, s.pid ≠ some ⟨i, complete⟩
  starttime : s.starttime ≠ some i
  script : s.script ≠ some i
  hold : s.hold i = false
  port : s.port i = .gone

end Protocol

section Assertions

variable {i : ℕ} {s t : State}

/-- What is known of the variables at a place of the script: the session's id is set, the child is
noted, and the hold may not be noted yet. -/
structure Place where
  tagged : Bool
  known : Bool
  loose : Bool

/-- The variables are as the place says. -/
structure At (i : ℕ) (place : Place) (s : State) : Prop where
  tagged : place.tagged = true → (s.vars i).sessionId = true
  known : place.known = true → (s.vars i).child = true

/-- Everything that the invocation has made is noted where the cleanup looks. -/
structure Noted (i : ℕ) (place : Place) (s : State) : Prop where
  here : At i place s
  hold : place.loose = true ∨ (s.hold i = true → (s.vars i).restore = true)
  session : s.port i ≠ .gone → (s.vars i).sessionId = true
  pid : s.pid = some ⟨i, true⟩ → (s.vars i).child = true

/-- The set-up, before any cleanup. -/
structure Open (i : ℕ) (place : Place) (s : State) : Prop where
  noted : Noted i place s
  done : (s.vars i).cleanupDone = false

/-- How far the cleanup has come. -/
structure Progress where
  grouped : Bool
  swept : Bool
  unmounted : Bool
  erased : Bool

/-- The cleanup on its way. -/
structure Closing (i : ℕ) (place : Place) (signalled : Bool) (w : Progress) (s : State) :
    Prop where
  noted : Noted i place s
  done : (s.vars i).cleanupDone = true
  signalled : s.signalled i = signalled
  grouped : w.grouped = true → s.pid = some ⟨i, true⟩ → (s.port i).Quiet
  swept : w.swept = true → s.port i = .gone
  unmounted : w.unmounted = true → ∀ target, s.mounts target = []
  erased : w.erased = true → s.pid = none ∧ s.starttime = none ∧ s.script = none

/-- The cleanup has ended. -/
structure Torn (i : ℕ) (place : Place) (s : State) : Prop where
  here : At i place s
  done : (s.vars i).cleanupDone = true
  mounts : ∀ target, i ∉ s.mounts target
  pid : ∀ complete, s.pid ≠ some ⟨i, complete⟩
  starttime : s.starttime ≠ some i
  script : s.script ≠ some i
  hold : place.loose = true ∨ s.hold i = false
  port : s.port i = .gone

/-- Before the wait: a signal has torn everything down, or nothing has happened yet. -/
structure Good (i : ℕ) (place : Place) (s : State) : Prop where
  before : s.signalled i = false → Open i place s
  after : s.signalled i = true → Torn i place s

/-- What the world leaves true. -/
def Lasting (i : ℕ) (pre : State → Prop) : Prop := ∀ s t, pre s → Unaffected i s t → pre t

theorem Lasting.stable {pre : State → Prop} (h : Lasting i pre) :
    Stable (protocol i) .launcher pre :=
  fun s t _ hs hrely _ => h s t hs hrely

theorem lasting_noted {place : Place} : Lasting i (Noted i place) := by
  rintro s t hs ⟨port, helper, rfl, hport⟩
  refine ⟨⟨hs.here.tagged, hs.here.known⟩, hs.hold, fun hne => hs.session fun hgone => ?_, hs.pid⟩
  rw [hgone] at hport
  exact hne (Port.gone_becomes hport)

theorem lasting_open {place : Place} : Lasting i (Open i place) := by
  intro s t hs h
  refine ⟨lasting_noted s t hs.noted h, ?_⟩
  obtain ⟨port, helper, rfl, -⟩ := h
  exact hs.done

theorem lasting_closing {place : Place} {signalled : Bool} {w : Progress} :
    Lasting i (Closing i place signalled w) := by
  intro s t hs h
  have hnoted := lasting_noted s t hs.noted h
  obtain ⟨port, helper, rfl, hport⟩ := h
  refine ⟨hnoted, hs.done, hs.signalled, fun hw hpid => (hs.grouped hw hpid).becomes hport,
    fun hw => ?_, hs.unmounted, hs.erased⟩
  rw [hs.swept hw] at hport
  exact Port.gone_becomes hport

theorem lasting_torn {place : Place} : Lasting i (Torn i place) := by
  rintro s t hs ⟨port, helper, rfl, hport⟩
  refine ⟨⟨hs.here.tagged, hs.here.known⟩, hs.done, hs.mounts, hs.pid, hs.starttime, hs.script,
    hs.hold, ?_⟩
  rw [hs.port] at hport
  exact Port.gone_becomes hport

theorem signalled_unaffected (h : Unaffected i s t) : t.signalled i = s.signalled i := by
  obtain ⟨port, helper, rfl, -⟩ := h
  rfl

theorem lasting_good {place : Place} : Lasting i (Good i place) := by
  intro s t hs h
  have hsame := signalled_unaffected h
  exact ⟨fun hno => lasting_open s t (hs.before (hsame.symm.trans hno)) h,
    fun hyes => lasting_torn s t (hs.after (hsame.symm.trans hyes)) h⟩

/-- At the end of the body: everything noted or torn down. -/
def Settled (i : ℕ) (place : Place) (signalled : Bool) (s : State) : Prop :=
  s.signalled i = signalled ∧ (Open i place s ∨ Torn i place s)

theorem lasting_settled {place : Place} {signalled : Bool} :
    Lasting i (Settled i place signalled) := by
  intro s t hs h
  exact ⟨(signalled_unaffected h).trans hs.1,
    hs.2.imp (fun ho => lasting_open s t ho h) fun ht => lasting_torn s t ht h⟩

theorem Good.settled {place : Place} (h : Good i place s) :
    Settled i place (s.signalled i) s := by
  refine ⟨rfl, ?_⟩
  cases hs : s.signalled i with
  | false => exact Or.inl (h.before hs)
  | true => exact Or.inr (h.after hs)

theorem lasting_and {pre pre' : State → Prop} (h : Lasting i pre) (h' : Lasting i pre') :
    Lasting i fun s => pre s ∧ pre' s :=
  fun s t hs hrely => ⟨h s t hs.1 hrely, h' s t hs.2 hrely⟩

theorem lasting_const {p : Prop} : Lasting i fun _ => p := fun _ _ hs _ => hs

end Assertions

section Cleanup

variable {i : ℕ} {place : Place} {signalled : Bool} {w : Progress} {α : Type}
  {pre : State → Prop} {E : End → State → Prop}

abbrev Does (i : ℕ) (E : End → State → Prop) (pre : State → Prop) (m : Sh α)
    (Q : α → State → Prop) : Prop :=
  Triple (protocol i) (Careful i .launcher) .launcher pre m Q E

theorem does_command {f : State → α × State} {Q : α → State → Prop} (hpre : Lasting i pre)
    (hQ : ∀ a, Lasting i (Q a))
    (h : ∀ s, pre s → Careful i .launcher s (f s).2 →
      ((s.vars i).cleanupDone = true → ¬Makes i s (f s).2) ∧ Q (f s).1 (f s).2) :
    Does i E pre (Script.run fun s => [f s]) Q := by
  apply Triple.run hpre.stable fun a => (hQ a).stable
  intro s _ hs o ho hC
  rw [List.mem_singleton.mp ho] at hC ⊢
  exact h s hs hC

theorem not_makes {s t : State} (hmounts : ∀ target, (t.mounts target).count i ≤
    (s.mounts target).count i) (hport : (t.port i).child = true → (s.port i).child = true) :
    ¬Makes i s t := by
  rintro (⟨target, hless⟩ | ⟨hno, hyes⟩)
  · exact absurd (hmounts target) (Nat.not_le.mpr hless)
  · rw [hport hyes] at hno
    cases hno

theorem does_read {f : State → α} {Q : α → State → Prop} (hpre : Lasting i pre)
    (hQ : ∀ a, Lasting i (Q a)) (h : ∀ s, pre s → Q (f s) s) :
    Does i E pre (Script.read f) Q :=
  does_command hpre hQ fun s hs _ => ⟨fun _ => not_makes (fun _ => Nat.le_refl _) id, h s hs⟩

theorem does_pure {a : α} {Q : α → State → Prop} (hpre : Lasting i pre)
    (h : ∀ s, pre s → Q a s) : Does i E pre (pure a) Q :=
  Triple.pure a hpre.stable fun s _ hs => h s hs

theorem does_killOwn :
    Does i E (Closing i place signalled w) (killOwn i)
      fun _ => Closing i place signalled { w with grouped := true } := by
  have hmid : ∀ own : Bool, Lasting i fun s => Closing i place signalled w s ∧
      (own = false → ¬((s.vars i).child = true ∧ s.pid = some ⟨i, true⟩)) := by
    intro own
    apply lasting_and lasting_closing
    rintro s t hs ⟨port, helper, rfl, -⟩
    exact hs
  apply Triple.bind (does_read lasting_closing hmid fun s hs =>
    ⟨hs, fun hown => by simpa using hown⟩)
  intro own
  cases own with
  | false =>
    refine does_pure (hmid false) ?_
    rintro s ⟨hs, hnot⟩
    refine ⟨hs.noted, hs.done, hs.signalled, fun _ hpid => ?_, hs.swept, hs.unmounted, hs.erased⟩
    exact absurd ⟨hs.noted.pid hpid, hpid⟩ (hnot rfl)
  | true =>
    apply does_command (hmid true) fun _ => lasting_closing
    rintro s ⟨hs, -⟩ _
    have hport : (s.setPort i (s.port i).killGroup).port i = (s.port i).killGroup :=
      Function.update_self ..
    have hgone : s.port i = .gone → (s.port i).killGroup = .gone := by
      intro h
      rw [h]
      rfl
    refine ⟨fun _ => not_makes (fun _ => Nat.le_refl _) fun h => ?_, ⟨?_, hs.noted.hold, ?_,
      hs.noted.pid⟩, hs.done, hs.signalled, fun _ _ => ?_, fun hw => ?_, hs.unmounted, hs.erased⟩
    · rw [hport] at h
      cases h
    · exact ⟨hs.noted.here.tagged, hs.noted.here.known⟩
    · rw [hport]
      exact fun hne => hs.noted.session fun h => hne (hgone h)
    · rw [hport]
      exact ⟨rfl, rfl, rfl⟩
    · rw [hport]
      exact hgone (hs.swept hw)

theorem does_sweepSession (hw : w.grouped = true) :
    Does i E (Closing i place signalled w) (sweepSession i)
      fun _ => Closing i place signalled { w with swept := true } := by
  have hmid : ∀ tagged : Bool, Lasting i fun s => Closing i place signalled w s ∧
      (tagged = false → (s.vars i).sessionId = false) := by
    intro tagged
    apply lasting_and lasting_closing
    rintro s t hs ⟨port, helper, rfl, -⟩
    exact hs
  apply Triple.bind (does_read lasting_closing hmid fun s hs => ⟨hs, fun htagged => by
    simpa using (Bool.or_eq_false_iff.mp htagged).1⟩)
  intro tagged
  cases tagged with
  | false =>
    refine does_pure (hmid false) ?_
    rintro s ⟨hs, hnot⟩
    refine ⟨hs.noted, hs.done, hs.signalled, hs.grouped, fun _ => ?_, hs.unmounted, hs.erased⟩
    by_contra hne
    have htagged := hs.noted.session hne
    rw [hnot rfl] at htagged
    cases htagged
  | true =>
    apply Triple.bind (Q := fun own s => own = false ∧
      Closing i place signalled { w with swept := true } s)
    · apply does_command (hmid true) fun _ => lasting_and lasting_const lasting_closing
      rintro s ⟨hs, -⟩ hC
      have hsweeps : (s.sweep i).sweeps i ≠ s.sweeps i := by
        have hsucc : (s.sweep i).sweeps i = s.sweeps i + 1 := Function.update_self ..
        omega
      obtain ⟨hinherited, hpid⟩ := hC.2 hsweeps
      have hport : (s.sweep i).port i = (s.port i).sweep := Function.update_self ..
      have hstray : (s.port i).stray = false := by
        rcases hpid with hpid | hstray
        · exact (hs.grouped hw hpid).2.2
        · exact hstray
      have hgone : (s.port i).sweep = .gone := by
        simp [Port.sweep, Port.gone, hstray]
      refine ⟨fun _ => not_makes (fun _ => Nat.le_refl _) fun h => ?_, hinherited, ⟨?_,
        hs.noted.hold, fun hne => ?_, hs.noted.pid⟩, hs.done, hs.signalled, fun _ _ => ?_,
        fun _ => ?_, hs.unmounted, hs.erased⟩
      · rw [hport] at h
        cases h
      · exact ⟨hs.noted.here.tagged, hs.noted.here.known⟩
      · exact absurd (hport.trans hgone) hne
      · rw [hport, hgone]
        exact ⟨rfl, rfl, rfl⟩
      · exact hport.trans hgone
    · intro own
      cases own with
      | false => exact does_pure (lasting_and lasting_const lasting_closing) fun s hs => hs.2
      | true => exact fun s _ hs => absurd hs.1 Bool.noConfusion

theorem does_releaseHold :
    Does i E (Closing i place signalled ⟨true, true, true, true⟩) (releaseHold i)
      fun _ s => s.signalled i = signalled ∧ Torn i place s := by
  have hquit : ∀ s, Closing i place signalled ⟨true, true, true, true⟩ s →
      (place.loose = true ∨ s.hold i = false) → s.signalled i = signalled ∧ Torn i place s := by
    intro s hs hhold
    obtain ⟨hpid, hstart, hscript⟩ := hs.erased rfl
    refine ⟨hs.signalled, hs.noted.here, hs.done, fun target => ?_, fun complete => ?_, ?_, ?_,
      hhold, hs.swept rfl⟩
    · rw [hs.unmounted rfl target]
      exact List.not_mem_nil
    · rw [hpid]
      exact fun h => by cases h
    · rw [hstart]
      exact fun h => by cases h
    · rw [hscript]
      exact fun h => by cases h
  have hend : ∀ _ : Unit, Lasting i fun s => s.signalled i = signalled ∧ Torn i place s :=
    fun _ s t hs h => ⟨(signalled_unaffected h).trans hs.1, lasting_torn s t hs.2 h⟩
  have hmid : ∀ restore : Bool, Lasting i fun s =>
      Closing i place signalled ⟨true, true, true, true⟩ s ∧
        (restore = false → (s.vars i).restore = false) := by
    intro restore
    apply lasting_and lasting_closing
    rintro s t hs ⟨port, helper, rfl, -⟩
    exact hs
  apply Triple.bind (does_read lasting_closing hmid fun s hs => ⟨hs, fun h => h⟩)
  intro restore
  cases restore with
  | false =>
    refine does_pure (hmid false) ?_
    rintro s ⟨hs, hnot⟩
    apply hquit s hs
    rcases hs.noted.hold with hloose | hhold
    · exact Or.inl hloose
    · right
      cases h : s.hold i with
      | false => rfl
      | true =>
        have hrestore := hhold h
        rw [hnot rfl] at hrestore
        cases hrestore
  | true =>
    apply does_command (hmid true) hend
    rintro s ⟨hs, -⟩ _
    have hhold : (s.setHold i false).hold i = false := Function.update_self ..
    refine ⟨fun _ => not_makes (fun _ => Nat.le_refl _) id, hquit (s.setHold i false) ⟨⟨?_, ?_,
      hs.noted.session, hs.noted.pid⟩, hs.done, hs.signalled, hs.grouped, hs.swept, hs.unmounted,
      hs.erased⟩ (Or.inr hhold)⟩
    · exact ⟨hs.noted.here.tagged, hs.noted.here.known⟩
    · rw [hhold]
      exact Or.inr fun h => by cases h

theorem does_cleanupOnce :
    Does i E (Closing i place signalled ⟨false, false, false, false⟩) (cleanupOnce i)
      fun _ s => s.signalled i = signalled ∧ Torn i place s := by
  apply Triple.bind does_killOwn
  intro _
  apply Triple.bind (does_sweepSession rfl)
  intro _
  apply Triple.bind (Q := fun _ => Closing i place signalled ⟨true, true, false, false⟩)
  · apply does_command lasting_closing fun _ => lasting_closing
    intro s hs _
    exact ⟨fun _ => not_makes (fun _ => Nat.le_refl _) id, ⟨⟨hs.noted.here.tagged,
      hs.noted.here.known⟩, hs.noted.hold, hs.noted.session, hs.noted.pid⟩, hs.done, hs.signalled,
      hs.grouped, hs.swept, hs.unmounted, hs.erased⟩
  intro _
  apply Triple.bind (Q := fun _ => Closing i place signalled ⟨true, true, true, false⟩)
  · apply does_command lasting_closing fun _ => lasting_closing
    intro s hs _
    exact ⟨fun _ => not_makes (fun _ => Nat.zero_le _) id, ⟨⟨hs.noted.here.tagged,
      hs.noted.here.known⟩, hs.noted.hold, hs.noted.session, hs.noted.pid⟩, hs.done, hs.signalled,
      hs.grouped, hs.swept, fun _ _ => rfl, hs.erased⟩
  intro _
  apply Triple.bind (Q := fun _ => Closing i place signalled ⟨true, true, true, true⟩)
  · apply does_command lasting_closing fun _ => lasting_closing
    intro s hs _
    exact ⟨fun _ => not_makes (fun _ => Nat.le_refl _) id, ⟨⟨hs.noted.here.tagged,
      hs.noted.here.known⟩, hs.noted.hold, hs.noted.session, (fun h => by cases h)⟩,
      hs.done, hs.signalled, (fun _ h => by cases h), hs.swept, hs.unmounted,
      fun _ => ⟨rfl, rfl, rfl⟩⟩
  intro _
  exact does_releaseHold

theorem does_cleanup :
    Does i E (Settled i place signalled) (cleanup i)
      fun _ s => s.signalled i = signalled ∧ Torn i place s := by
  have hend : Lasting i fun s => s.signalled i = signalled ∧ Torn i place s :=
    fun s t hs h => ⟨(signalled_unaffected h).trans hs.1, lasting_torn s t hs.2 h⟩
  have hmid : ∀ done : Bool, Lasting i fun s =>
      if done then s.signalled i = signalled ∧ Torn i place s
      else Closing i place signalled ⟨false, false, false, false⟩ s := by
    intro done
    cases done with
    | true => exact hend
    | false => exact lasting_closing
  apply Triple.bind (Q := fun done s => if done then s.signalled i = signalled ∧ Torn i place s
    else Closing i place signalled ⟨false, false, false, false⟩ s)
  · apply does_command lasting_settled hmid
    rintro s ⟨hsignalled, hcase⟩ _
    have hvars : ((s.setVars i fun v => { v with cleanupDone := true }).enter i).vars i =
        { s.vars i with cleanupDone := true } := Function.update_self ..
    refine ⟨fun _ => not_makes (fun _ => Nat.le_refl _) id, ?_⟩
    rcases hcase with hopen | htorn
    · rw [hopen.done, if_neg Bool.false_ne_true]
      refine ⟨⟨⟨?_, ?_⟩, ?_, ?_, ?_⟩, ?_, hsignalled, (fun h => by cases h),
        (fun h => by cases h), (fun h => by cases h), fun h => by cases h⟩
      · rw [hvars]; exact hopen.noted.here.tagged
      · rw [hvars]; exact hopen.noted.here.known
      · rw [hvars]; exact hopen.noted.hold
      · rw [hvars]; exact hopen.noted.session
      · rw [hvars]; exact hopen.noted.pid
      · rw [hvars]
    · rw [htorn.done, if_pos rfl]
      refine ⟨hsignalled, ⟨?_, ?_⟩, ?_, htorn.mounts, htorn.pid, htorn.starttime, htorn.script,
        htorn.hold, htorn.port⟩
      · rw [hvars]; exact htorn.here.tagged
      · rw [hvars]; exact htorn.here.known
      · rw [hvars]
  intro done
  cases done with
  | true => exact does_pure hend fun s hs => hs
  | false => exact does_cleanupOnce

end Cleanup

section Steps

variable {i : ℕ} {place place' : Place} {α : Type} {E : End → State → Prop}

theorem Settled.signal {s : State} {signalled : Bool} (hs : Settled i place signalled s) :
    Settled i place true (s.signal i) := by
  refine ⟨Function.update_self .., hs.2.imp (fun ho => ?_) fun ht => ?_⟩
  · exact ⟨⟨⟨ho.noted.here.tagged, ho.noted.here.known⟩, ho.noted.hold, ho.noted.session,
      ho.noted.pid⟩, ho.done⟩
  · exact ⟨⟨ht.here.tagged, ht.here.known⟩, ht.done, ht.mounts, ht.pid, ht.starttime, ht.script,
      ht.hold, ht.port⟩

theorem good_of_torn {s : State} (h : s.signalled i = true ∧ Torn i place s) : Good i place s :=
  ⟨fun hno => absurd (hno.symm.trans h.1) Bool.false_ne_true, fun _ => h.2⟩

theorem does_handler : Does i E (Settled i place true) (cleanup i) fun _ => Good i place :=
  does_cleanup.conseq (fun _ _ h => h) (fun _ _ _ h => good_of_torn h) fun _ _ _ h => h

theorem does_signalPoint : Does i E (Good i place) (signalPoint true i) fun _ => Good i place := by
  have hmid : ∀ arrived : Bool, Lasting i fun s =>
      if arrived then Settled i place true s else Good i place s := by
    intro arrived
    cases arrived with
    | true => exact lasting_settled
    | false => exact lasting_good
  apply Triple.bind (Q := fun arrived s =>
    if arrived then Settled i place true s else Good i place s)
  · apply Triple.run lasting_good.stable fun a => (hmid a).stable
    intro s _ hs o ho _
    simp only [List.mem_cons, List.not_mem_nil, or_false] at ho
    rcases ho with rfl | rfl
    · exact ⟨fun _ => not_makes (fun _ => Nat.le_refl _) id, hs⟩
    · exact ⟨fun _ => not_makes (fun _ => Nat.le_refl _) id, hs.settled.signal⟩
  intro arrived
  cases arrived with
  | true => exact does_handler
  | false => exact does_pure lasting_good fun s hs => hs

/-- A step that makes nothing and forgets nothing. -/
structure Harmless (i : ℕ) (s t : State) : Prop where
  mounts : ∀ target, t.mounts target = s.mounts target ∨ t.mounts target = []
  pid : t.pid = s.pid ∨ t.pid = none
  starttime : t.starttime = s.starttime ∨ t.starttime = none
  script : t.script = s.script ∨ t.script = none
  hold : t.hold i = s.hold i
  port : t.port i = s.port i
  child : (t.vars i).child = (s.vars i).child
  restore : (t.vars i).restore = (s.vars i).restore
  done : (t.vars i).cleanupDone = (s.vars i).cleanupDone
  sessionId : (s.vars i).sessionId = true → (t.vars i).sessionId = true
  signalled : t.signalled i = s.signalled i

theorem Harmless.refl (s : State) : Harmless i s s where
  mounts _ := Or.inl rfl
  pid := Or.inl rfl
  starttime := Or.inl rfl
  script := Or.inl rfl
  hold := rfl
  port := rfl
  child := rfl
  restore := rfl
  done := rfl
  sessionId := id
  signalled := rfl

theorem Harmless.good {s t : State} (h : Harmless i s t) (hs : Good i place s) :
    Good i place t := by
  have hmounts : ∀ target, i ∉ s.mounts target → i ∉ t.mounts target := by
    intro target hnot
    rcases h.mounts target with heq | heq
    · rw [heq]; exact hnot
    · rw [heq]; exact List.not_mem_nil
  have hat : At i place s → At i place t :=
    fun hs => ⟨fun ht => h.sessionId (hs.tagged ht), fun hk => h.child.trans (hs.known hk)⟩
  refine ⟨fun hno => ?_, fun hyes => ?_⟩
  · have ho := hs.before (h.signalled.symm.trans hno)
    refine ⟨⟨hat ho.noted.here, ?_, ?_, ?_⟩, h.done.trans ho.done⟩
    · rw [h.hold, h.restore]
      exact ho.noted.hold
    · rw [h.port]
      exact fun hne => h.sessionId (ho.noted.session hne)
    · rw [h.child]
      intro hpid
      rcases h.pid with heq | heq
      · exact ho.noted.pid (heq.symm.trans hpid)
      · rw [heq] at hpid
        cases hpid
  · have ht := hs.after (h.signalled.symm.trans hyes)
    refine ⟨hat ht.here, h.done.trans ht.done, fun target => hmounts target (ht.mounts target),
      fun complete => ?_, ?_, ?_, by rw [h.hold]; exact ht.hold, h.port.trans ht.port⟩
    · rcases h.pid with heq | heq
      · rw [heq]; exact ht.pid complete
      · rw [heq]; exact fun h => by cases h
    · rcases h.starttime with heq | heq
      · rw [heq]; exact ht.starttime
      · rw [heq]; exact fun h => by cases h
    · rcases h.script with heq | heq
      · rw [heq]; exact ht.script
      · rw [heq]; exact fun h => by cases h

theorem Harmless.not_makes {s t : State} (h : Harmless i s t) : ¬Makes i s t := by
  apply PortLaunch.not_makes
  · intro target
    rcases h.mounts target with heq | heq
    · exact Nat.le_of_eq (by rw [heq])
    · rw [heq]
      exact Nat.zero_le _
  · rw [h.port]
    exact id

theorem does_look {outcomes : State → List (α × State)}
    (h : ∀ s, ∀ o ∈ outcomes s, Harmless i s o.2) :
    Does i E (Good i place) (Script.run outcomes) fun _ => Good i place := by
  apply Triple.run lasting_good.stable fun _ => lasting_good.stable
  intro s _ hs o ho _
  exact ⟨fun _ => (h s o ho).not_makes, (h s o ho).good hs⟩

/-- A step that makes something, which is noted in the state after it. -/
structure Deed (i : ℕ) (place place' : Place) (s t : State) : Prop where
  deeds : t.deeds i ≠ s.deeds i
  signalled : t.signalled i = s.signalled i
  opens : Open i place s → Open i place' t

theorem does_deeds {outcomes : State → List (α × State)} (g : α → Place)
    (h : ∀ s, ∀ o ∈ outcomes s,
      (Harmless i s o.2 ∧ g o.1 = place) ∨ Deed i place (g o.1) s o.2) :
    Does i E (Good i place) (Script.run outcomes) fun a => Good i (g a) := by
  apply Triple.run lasting_good.stable fun _ => lasting_good.stable
  intro s _ hs o ho hC
  rcases h s o ho with ⟨hharmless, hplace⟩ | hdeed
  · rw [hplace]
    exact ⟨fun _ => hharmless.not_makes, hharmless.good hs⟩
  · have hno := hC.1 hdeed.deeds
    have hopen := hs.before hno
    refine ⟨fun hdone => absurd (hopen.done.symm.trans hdone) Bool.false_ne_true, fun _ =>
      hdeed.opens hopen, fun hyes => ?_⟩
    rw [hdeed.signalled, hno] at hyes
    cases hyes

/-- An exit leaves everything settled, and the script is never killed. -/
def Exits (i : ℕ) : End → State → Prop
  | .exit _, s => ∃ place : Place, place.loose = false ∧ Good i place s
  | .killed, _ => False

theorem does_orExit {status : ℕ} {ok : Bool} {g : Bool → Place} (hloose : (g false).loose = false) :
    Does i (Exits i) (Good i (g ok)) (orExit status ok) fun _ => Good i (g true) := by
  cases ok with
  | true => exact does_pure lasting_good fun s hs => hs
  | false => exact Triple.raise _ lasting_good.stable fun s _ hs => ⟨g false, hloose, hs⟩

/-- What an attempt makes of its place. -/
def onSuccess (place place' : Place) (ok : Bool) : Place := if ok then place' else place

theorem does_attempt {status : ℕ} {f : State → State} (hloose : place.loose = false)
    (h : ∀ s, (Harmless i s (f s) ∧ place' = place) ∨ Deed i place place' s (f s)) :
    Does i (Exits i) (Good i place) (attempt true i status f) fun _ => Good i place' := by
  apply Triple.bind (Q := fun ok => Good i (onSuccess place place' ok))
  · apply does_deeds (onSuccess place place')
    intro s o ho
    simp only [List.mem_cons, List.not_mem_nil, or_false] at ho
    rcases ho with rfl | rfl
    · exact h s
    · exact Or.inl ⟨Harmless.refl s, rfl⟩
  intro ok
  apply Triple.bind does_signalPoint
  intro _
  exact does_orExit hloose

theorem does_check {status : ℕ} (hloose : place.loose = false) :
    Does i (Exits i) (Good i place) (check true i status) fun _ => Good i place :=
  does_attempt hloose fun s => Or.inl ⟨Harmless.refl s, rfl⟩

theorem does_act {f : State → State}
    (h : ∀ s, (Harmless i s (f s) ∧ place' = place) ∨ Deed i place place' s (f s)) :
    Does i E (Good i place) (act true i f) fun _ => Good i place' := by
  apply Triple.bind (Q := fun _ => Good i place')
  · apply does_deeds fun _ => place'
    intro s o ho
    rw [List.mem_singleton.mp ho]
    exact h s
  intro _
  exact does_signalPoint

theorem does_test {outcomes : State → List (Bool × State)} {m : Bool → Sh Unit}
    {Q : Unit → State → Prop}
    (h : ∀ s, ∀ o ∈ outcomes s, Harmless i s o.2)
    (hm : ∀ a, Does i E (Good i place) (m a) Q) :
    Does i E (Good i place)
      (do
        let a ← Script.run outcomes
        signalPoint true i
        m a) Q := by
  apply Triple.bind (does_look h)
  intro a
  apply Triple.bind does_signalPoint
  intro _
  exact hm a

end Steps

section Launch

variable {i : ℕ} {place : Place}

/-- Before the session's id is set. -/
def early : Place := ⟨false, false, false⟩

/-- The hold is acquired and not noted. -/
def held : Place := ⟨false, false, true⟩

/-- The session's id is set. -/
def tagged : Place := ⟨true, false, false⟩

/-- The child is noted. -/
def known : Place := ⟨true, true, false⟩

theorem harmless_enter (s : State) : Harmless i s (s.enter i) :=
  { Harmless.refl s with }

theorem harmless_refuse (s : State) : Harmless i s (s.refuse i) :=
  { Harmless.refl s with }

theorem harmless_removeRecords (s : State) : Harmless i s s.removeRecords :=
  { Harmless.refl s with
    pid := Or.inr rfl
    starttime := Or.inr rfl
    script := Or.inr rfl }

theorem harmless_unmountAll (s : State) : Harmless i s s.unmountAll :=
  { Harmless.refl s with mounts := fun _ => Or.inr rfl }

theorem deeds_deed (s : State) : (s.deed i).deeds i ≠ s.deeds i := by
  have hsucc : (s.deed i).deeds i = s.deeds i + 1 := Function.update_self ..
  omega

theorem does_checkArmhf :
    Does i (Exits i) (Good i early) (checkArmhf true i) fun _ => Good i early := by
  apply does_test
  · intro s o ho
    rcases mem_pair ho with rfl | rfl
    · exact Harmless.refl s
    · exact harmless_refuse s
  · exact fun ok => @does_orExit i 78 ok (fun _ => early) rfl

theorem does_checkRunning :
    Does i (Exits i) (Good i early) (checkRunning true i) fun _ => Good i early := by
  apply does_test
  · intro s o ho
    rw [List.mem_singleton.mp ho]
    dsimp only
    split
    · exact Harmless.refl s
    · exact harmless_enter s
  intro recorded
  cases recorded with
  | false => exact does_pure lasting_good fun s hs => hs
  | true =>
    apply does_test
    · intro s o ho
      rw [List.mem_singleton.mp ho]
      dsimp only
      split
      · exact harmless_refuse s
      · exact harmless_enter s
    intro running
    apply Triple.bind (@does_orExit i 75 (!running) (fun _ => early) rfl)
    intro _
    exact does_act fun s => Or.inl ⟨harmless_removeRecords s, rfl⟩

theorem deed_mount (s : State) (target : Target) : Deed i place place s (s.mount i target) where
  deeds := deeds_deed s
  signalled := rfl
  opens ho := ⟨⟨⟨ho.noted.here.tagged, ho.noted.here.known⟩, ho.noted.hold, ho.noted.session,
    ho.noted.pid⟩, ho.done⟩

theorem does_bindMount (strict : Bool) (target : Target) :
    Does i (Exits i) (Good i early) (bindMount true i strict target) fun _ => Good i early := by
  apply does_test
  · intro s o ho
    rw [List.mem_singleton.mp ho]
    exact Harmless.refl s
  intro stale
  apply Triple.bind (@does_orExit i 1 (!stale) (fun _ => early) rfl)
  intro _
  apply Triple.bind (does_attempt rfl fun s => Or.inr (deed_mount s target))
  intro _
  cases strict with
  | true => exact does_check rfl
  | false => exact does_pure lasting_good fun s hs => hs

theorem does_prepareCompatMount :
    Does i (Exits i) (Good i early) (prepareCompatMount true i) fun _ => Good i early := by
  apply does_test
  · intro s o ho
    rcases mem_pair ho with rfl | rfl <;> exact Harmless.refl s
  intro there
  cases there with
  | true => exact does_bindMount true .compat
  | false => exact does_pure lasting_good fun s hs => hs

theorem does_preparePatcherCompat :
    Does i (Exits i) (Good i early) (preparePatcherCompat true i) fun _ => Good i early :=
  Triple.bind (does_check rfl) fun _ => does_bindMount true .patcher

theorem does_mounts (targets : List Target) :
    Does i (Exits i) (Good i early) (Script.forEach (bindMount true i false) targets)
      fun _ => Good i early := by
  induction targets with
  | nil => exact does_pure lasting_good fun s hs => hs
  | cons target targets ih =>
    apply Triple.bind (does_bindMount false target)
    exact fun _ => ih

theorem deed_acquire (s : State) : Deed i early held s ((s.setHold i true).deed i) where
  deeds := deeds_deed s
  signalled := rfl
  opens ho := ⟨⟨⟨ho.noted.here.tagged, ho.noted.here.known⟩, Or.inl rfl, ho.noted.session,
    ho.noted.pid⟩, ho.done⟩

theorem vars_setVars (s : State) (f : Vars → Vars) :
    ((s.setVars i f).deed i).vars i = f (s.vars i) :=
  Function.update_self ..

theorem deed_restore (s : State) :
    Deed i held early s ((s.setVars i fun v => { v with restore := true }).deed i) where
  deeds := deeds_deed (s.setVars i fun v => { v with restore := true })
  signalled := rfl
  opens ho := by
    have hvars := vars_setVars (i := i) s fun v => { v with restore := true }
    refine ⟨⟨⟨(fun h => by cases h), fun h => by cases h⟩, Or.inr fun _ => ?_, ?_, ?_⟩, ?_⟩
    · rw [hvars]
    · rw [hvars]; exact ho.noted.session
    · rw [hvars]; exact ho.noted.pid
    · rw [hvars]; exact ho.done

theorem does_holdFrontend :
    Does i (Exits i) (Good i early) (holdFrontend true i) fun _ => Good i early := by
  apply does_test
  · intro s o ho
    rcases mem_pair ho with rfl | rfl <;> exact Harmless.refl s
  intro needed
  cases needed with
  | false => exact does_pure lasting_good fun s hs => hs
  | true =>
    apply Triple.bind (does_attempt rfl fun s => Or.inr (deed_acquire s))
    intro _
    exact does_act fun s => Or.inr (deed_restore s)

theorem Good.tag {s : State} (hs : Good i early s) (h : (s.vars i).sessionId = true) :
    Good i tagged s := by
  refine ⟨fun hno => ?_, fun hyes => ?_⟩
  · have ho := hs.before hno
    exact ⟨⟨⟨fun _ => h, fun hk => by cases hk⟩, ho.noted.hold, ho.noted.session, ho.noted.pid⟩,
      ho.done⟩
  · have ht := hs.after hyes
    exact ⟨⟨fun _ => h, fun hk => by cases hk⟩, ht.done, ht.mounts, ht.pid, ht.starttime,
      ht.script, ht.hold, ht.port⟩

theorem does_setSession :
    Does i (Exits i) (Good i early)
      (act true i fun s => s.setVars i fun v => { v with sessionId := true })
      fun _ => Good i tagged := by
  apply Triple.bind (Q := fun _ => Good i tagged)
  · apply does_command lasting_good fun _ => lasting_good
    intro s hs _
    have hvars : (s.setVars i fun v => { v with sessionId := true }).vars i =
        { s.vars i with sessionId := true } := Function.update_self ..
    have hharmless : Harmless i s (s.setVars i fun v => { v with sessionId := true }) :=
      { Harmless.refl s with
        child := by rw [hvars]
        restore := by rw [hvars]
        done := by rw [hvars]
        sessionId := fun _ => by rw [hvars] }
    exact ⟨fun _ => hharmless.not_makes, (hharmless.good hs).tag (by rw [hvars])⟩
  intro _
  exact does_signalPoint

theorem deed_start (s : State) : Deed i tagged tagged s ((s.setPort i .started).deed i) where
  deeds := deeds_deed s
  signalled := rfl
  opens ho := ⟨⟨⟨ho.noted.here.tagged, ho.noted.here.known⟩, ho.noted.hold,
    fun _ => ho.noted.here.tagged rfl, ho.noted.pid⟩, ho.done⟩

theorem deed_child (s : State) :
    Deed i tagged known s ((s.setVars i fun v => { v with child := true }).deed i) where
  deeds := deeds_deed (s.setVars i fun v => { v with child := true })
  signalled := rfl
  opens ho := by
    have hvars := vars_setVars (i := i) s fun v => { v with child := true }
    refine ⟨⟨⟨?_, ?_⟩, ?_, ?_, ?_⟩, ?_⟩
    · rw [hvars]; exact ho.noted.here.tagged
    · rw [hvars]; exact fun _ => rfl
    · rw [hvars]; exact ho.noted.hold
    · rw [hvars]; exact ho.noted.session
    · rw [hvars]; exact fun _ => rfl
    · rw [hvars]; exact ho.done

theorem deed_record {s t : State} (hdeeds : t.deeds i ≠ s.deeds i)
    (hsame : t.signalled = s.signalled ∧ t.vars = s.vars ∧ t.hold = s.hold ∧ t.port = s.port) :
    Deed i known known s t where
  deeds := hdeeds
  signalled := by rw [hsame.1]
  opens ho := by
    obtain ⟨-, hvars, hhold, hport⟩ := hsame
    refine ⟨⟨⟨?_, ?_⟩, ?_, ?_, ?_⟩, ?_⟩
    · rw [hvars]; exact ho.noted.here.tagged
    · rw [hvars]; exact ho.noted.here.known
    · rw [hvars, hhold]; exact ho.noted.hold
    · rw [hvars, hport]; exact ho.noted.session
    · rw [hvars]; exact fun _ => ho.noted.here.known rfl
    · rw [hvars]; exact ho.done

theorem does_writePid :
    Does i (Exits i) (Good i known) (writePid true i) fun _ => Good i known := by
  apply Triple.bind (Q := fun _ => Good i known)
  · apply does_deeds fun _ => known
    intro s o ho
    simp only [List.mem_cons, List.not_mem_nil, or_false] at ho
    rcases ho with rfl | rfl | rfl
    · exact Or.inr (deed_record (deeds_deed s) ⟨rfl, rfl, rfl, rfl⟩)
    · exact Or.inr (deed_record (deeds_deed s) ⟨rfl, rfl, rfl, rfl⟩)
    · exact Or.inl ⟨Harmless.refl s, rfl⟩
  exact fun _ => does_signalPoint

theorem does_writeStart :
    Does i (Exits i) (Good i known) (writeStart true i) fun _ => Good i known := by
  apply Triple.bind (Q := fun _ => Good i known)
  · apply does_deeds fun _ => known
    intro s o ho
    rcases mem_pair ho with rfl | rfl
    · exact Or.inr (deed_record (deeds_deed s) ⟨rfl, rfl, rfl, rfl⟩)
    · exact Or.inl ⟨Harmless.refl s, rfl⟩
  exact fun _ => does_signalPoint

theorem does_writeScript :
    Does i (Exits i) (Good i known) (writeScript true i) fun _ => Good i known := by
  apply Triple.bind (Q := fun _ => Good i known)
  · apply does_deeds fun _ => known
    intro s o ho
    rcases mem_pair ho with rfl | rfl
    · exact Or.inr (deed_record (deeds_deed s) ⟨rfl, rfl, rfl, rfl⟩)
    · exact Or.inl ⟨Harmless.refl s, rfl⟩
  exact fun _ => does_signalPoint

theorem does_waitChild :
    Does i (Exits i) (Good i known) (waitChild true i) fun _ => Good i known := by
  have hmid : ∀ arrived : Bool, Lasting i fun s =>
      if arrived then Settled i known true s else Good i known s := by
    intro arrived
    cases arrived with
    | true => exact lasting_settled
    | false => exact lasting_good
  apply Triple.bind (Q := fun arrived s =>
    if arrived then Settled i known true s else Good i known s)
  · apply Triple.run lasting_good.stable fun a => (hmid a).stable
    intro s _ hs o ho _
    rw [if_pos rfl] at ho
    rcases List.mem_append.mp ho with ho | ho
    · split at ho
      · cases ho
      · rw [List.mem_singleton.mp ho]
        exact ⟨fun _ => not_makes (fun _ => Nat.le_refl _) id, hs⟩
    · rw [List.mem_singleton.mp ho]
      exact ⟨fun _ => not_makes (fun _ => Nat.le_refl _) id, hs.settled.signal⟩
  intro arrived
  cases arrived with
  | true => exact does_handler
  | false => exact does_pure lasting_good fun s hs => hs

theorem does_startPort :
    Does i (Exits i) (Good i early) (startPort true i) fun _ => Good i known := by
  apply Triple.bind does_setSession
  intro _
  apply Triple.bind (does_attempt rfl fun s => Or.inr (deed_start s))
  intro _
  apply Triple.bind (does_act fun s => Or.inr (deed_child s))
  intro _
  apply Triple.bind does_writePid
  intro _
  apply Triple.bind does_writeStart
  intro _
  apply Triple.bind does_writeScript
  intro _
  exact does_waitChild

theorem does_launch :
    Does i (Exits i) (Good i early) (launch true i) fun _ => Good i known := by
  apply Triple.bind does_checkArmhf
  intro _
  apply Triple.bind (does_check rfl)
  intro _
  apply Triple.bind does_checkRunning
  intro _
  apply Triple.bind (does_check rfl)
  intro _
  apply Triple.bind (does_attempt rfl fun s => Or.inl ⟨harmless_unmountAll s, rfl⟩)
  intro _
  apply Triple.bind (does_check rfl)
  intro _
  apply Triple.bind (does_check rfl)
  intro _
  apply Triple.bind (does_check rfl)
  intro _
  apply Triple.bind does_prepareCompatMount
  intro _
  apply Triple.bind does_preparePatcherCompat
  intro _
  apply Triple.bind (does_mounts _)
  intro _
  apply Triple.bind (does_check rfl)
  intro _
  apply Triple.bind (does_check rfl)
  intro _
  apply Triple.bind (does_check rfl)
  intro _
  apply Triple.bind does_holdFrontend
  intro _
  exact does_startPort

theorem lasting_clean : Lasting i (Clean i) := by
  rintro s t hs ⟨port, helper, rfl, hport⟩
  rw [hs.port] at hport
  exact ⟨hs.mounts, hs.pid, hs.starttime, hs.script, hs.hold, Port.gone_becomes hport⟩

/-- The body has ended, in one way or another. -/
def Over (i : ℕ) (s : State) : Prop := ∃ place : Place, place.loose = false ∧ Good i place s

theorem lasting_over : Lasting i (Over i) := by
  rintro s t ⟨place, hloose, hs⟩ h
  exact ⟨place, hloose, lasting_good s t hs h⟩

theorem Torn.clean {s : State} (hs : Torn i place s) (hloose : place.loose = false) :
    Clean i s where
  mounts := hs.mounts
  pid := hs.pid
  starttime := hs.starttime
  script := hs.script
  hold := by
    rcases hs.hold with h | h
    · rw [hloose] at h
      cases h
    · exact h
  port := hs.port

theorem does_exitTrap {E : End → State → Prop} :
    Does i E (Over i) (cleanup i) fun _ => Clean i := by
  rintro s hs ⟨place, hloose, hgood⟩
  have hcleanup : Does i E (Settled i place (s.signalled i)) (cleanup i) fun _ => Clean i :=
    does_cleanup.conseq (fun _ _ h => h) (fun _ _ _ h => h.2.clean hloose) fun _ _ _ h => h
  exact hcleanup s hs hgood.settled

/-- Nothing ends the script otherwise. -/
abbrev Never : End → State → Prop := fun _ _ => False

theorem does_leave : Does i Never (Clean i) (command fun s => s.leave i) fun _ => Clean i := by
  apply does_command lasting_clean fun _ => lasting_clean
  intro s hs _
  exact ⟨fun _ => not_makes (fun _ => Nat.le_refl _) id,
    ⟨hs.mounts, hs.pid, hs.starttime, hs.script, hs.hold, hs.port⟩⟩

theorem does_atExit :
    Does i Never (Good i early) (atExit i (launch true i)) fun _ => Clean i := by
  have hlaunch : Does i (Exits i) (Good i early) (launch true i) fun _ => Over i :=
    does_launch.conseq (fun _ _ h => h) (fun _ _ _ h => ⟨known, rfl, h⟩) fun _ _ _ h => h
  have hexit : ∀ {m : Sh Unit}, Does i Never (Good i early) m (fun _ => Over i) →
      Does i Never (Good i early) (do m; cleanup i) fun _ => Clean i :=
    fun hbody => Triple.bind hbody fun _ => does_exitTrap
  apply Triple.bind (Q := fun _ => Clean i)
  · refine Triple.handle (hexit (Triple.handle hlaunch ?_)) fun e s _ hs => hs.elim
    intro e
    cases e with
    | exit status => exact does_pure lasting_over fun s hs => hs
    | killed => exact fun s _ hs => hs.elim
  · intro _
    apply Triple.bind does_leave
    exact fun _ => does_pure lasting_clean fun s hs => hs

theorem Untouched.clean {s : State} (hs : Untouched i s) : Clean i s :=
  ⟨hs.mounts, hs.pid, hs.starttime, hs.script, hs.hold, hs.port⟩

theorem Untouched.good {s : State} (hs : Untouched i s) : Good i early s := by
  refine ⟨fun _ => ⟨⟨⟨(fun h => by cases h), fun h => by cases h⟩, Or.inr fun h => ?_,
    fun hne => absurd hs.port hne, fun hpid => absurd hpid (hs.pid true)⟩, ?_⟩, fun hyes => ?_⟩
  · rw [hs.hold] at h
    cases h
  · rw [hs.vars]
    rfl
  · rw [hs.signalled] at hyes
    cases hyes

theorem does_portLaunch :
    Does i Never (fun s => Good i early s ∧ Clean i s) (portLaunch true i) fun _ => Clean i := by
  have hpre : Lasting i fun s => Good i early s ∧ Clean i s :=
    lasting_and lasting_good lasting_clean
  apply Triple.bind (Q := fun _ s => Good i early s ∧ Clean i s)
  · apply Triple.run hpre.stable fun _ => hpre.stable
    intro s _ hs o ho _
    rcases mem_pair ho with rfl | rfl
    · exact ⟨fun _ => not_makes (fun _ => Nat.le_refl _) id, hs⟩
    · exact ⟨fun _ => not_makes (fun _ => Nat.le_refl _) id, hs⟩
  intro trapped
  cases trapped with
  | true => exact does_atExit.conseq (fun _ _ h => h.1) (fun _ _ _ h => h) fun _ _ _ h => h
  | false => exact does_pure hpre fun s hs => hs.2

end Launch

section Runs

variable {i : ℕ} {events : List Event} {s₀ : State} {is : List Party}
  {p : Pool Party State End Unit}

/-- One invocation with its port. -/
def single (i : ℕ) (s₀ : State) (events : List Event) : Pool Party State End Unit where
  shared := s₀
  thread
    | .launcher => portLaunch true i
    | .world => world events

theorem unaffected_processes (s : State) (j : ℕ) (port : Port) :
    Unaffected i s (if (s.port j).Becomes port then s.setPort j port else s) := by
  split
  · rename_i hbecomes
    refine ⟨Function.update s.port j port, s.helper, rfl, ?_⟩
    by_cases hij : i = j
    · subst hij
      rw [Function.update_self]
      exact hbecomes
    · rw [Function.update_of_ne hij]
      exact Port.Becomes.refl _
  · exact Unaffected.refl i s

theorem unaffected_helper (s : State) (j : ℕ) :
    Unaffected i s (if (s.port j).child then { s with helper := some j } else s) := by
  split
  · exact ⟨s.port, some j, rfl, Port.Becomes.refl _⟩
  · exact Unaffected.refl i s

theorem does_world (events : List Event) :
    Triple (protocol i) (Careful i .world) .world (fun _ => True) (world events)
      (fun _ _ => True) Never := by
  have hstable : Stable (protocol i) .world fun _ => True := fun _ _ _ _ _ _ => trivial
  have hcommand : ∀ f : State → State, (∀ s, Unaffected i s (f s)) →
      Triple (protocol i) (Careful i .world) .world (fun _ => True) (command f)
        (fun _ _ => True) Never := by
    intro f hf
    apply Triple.run hstable fun _ => hstable
    intro s _ _ o ho _
    rw [List.mem_singleton.mp ho]
    exact ⟨hf s, trivial⟩
  induction events with
  | nil => exact Triple.pure _ hstable fun _ _ h => h
  | cons event events ih =>
    cases event with
    | processes j port =>
      exact Triple.bind (hcommand _ fun s => unaffected_processes s j port) fun _ => ih
    | helper j => exact Triple.bind (hcommand _ fun s => unaffected_helper s j) fun _ => ih

theorem single_correct (h₀ : Untouched i s₀) (events : List Event) :
    Pool.Correct (protocol i) (Careful i)
      (fun party _ s => party = .launcher → Clean i s) (fun _ => Never)
      (single i s₀ events) := by
  refine ⟨trivial, fun party => ?_⟩
  cases party with
  | launcher =>
    have hlaunch := @does_portLaunch i s₀ trivial ⟨h₀.good, h₀.clean⟩
    exact hlaunch.mono (fun _ _ _ h _ => h) fun _ _ _ h => h
  | world =>
    have hworld := @does_world i events s₀ trivial trivial
    exact hworld.mono (fun _ _ _ _ h => by cases h) fun _ _ _ h => h

/-- Where no signal comes before something that the set-up still makes, and the port's group can
be found by the record or by the session's id, nothing of the invocation is left when it has
ended, and once its cleanup has begun it makes nothing. -/
theorem port_torn_down (h₀ : Untouched i s₀)
    (hrun : Run (Pool.StepIn (Careful i)) (single i s₀ events) is p) :
    ((p.thread .launcher).Ended → Clean i p.shared) ∧
    ∀ q, Pool.StepIn (Careful i) p .launcher q → (p.shared.vars i).cleanupDone = true →
      ¬Makes i p.shared q.shared := by
  have hp := (single_correct h₀ events).run hrun
  constructor
  · cases hthread : p.thread .launcher with
    | done a => exact fun _ => hp.returned hthread rfl
    | raise e => exact (hp.raised hthread).elim
    | cmd outcomes next => exact fun h => h.elim
  · exact fun q hstep => (hp.step hstep).1

instance (i : ℕ) (party : Party) (s t : State) : Decidable (Careful i party s t) := by
  cases party <;> unfold Careful <;> infer_instance

/-- TERM arrives in the wait. -/
def terminated : List (Party × ℕ) := List.replicate 82 (.launcher, 0)

theorem port_torn_down_sample :
    let p := Pool.playIn (Careful 0) terminated (single 0 .start [])
    p.shared.deeds 0 = 12 ∧ (p.thread .launcher).Ended ∧ Clean 0 p.shared := by
  intro p
  obtain ⟨is, hrun⟩ := Pool.run_playIn (C := Careful 0) terminated (single 0 .start [])
  have hmade : p.shared.deeds 0 = 12 := by decide +kernel
  have hended : (p.thread .launcher).Ended := by decide +kernel
  exact ⟨hmade, hended, (port_torn_down (untouched_start 0) hrun).1 hended⟩

/-- TERM arrives after the first mount; the script goes on, and its port ends. -/
def mountedLater : List (Party × ℕ) :=
  List.replicate 22 (.launcher, 0) ++ [(.launcher, 1)] ++ List.replicate 53 (.launcher, 0) ++
    [(.world, 0)] ++ List.replicate 3 (.launcher, 0)

theorem signal_leaves_mounts : ∃ is p,
    Run Pool.Step (single 0 .start [.processes 0 .gone]) is p ∧ (p.thread .launcher).Ended ∧
    (∀ target, target ≠ .compat → 0 ∈ p.shared.mounts target) ∧ p.shared.pid = some ⟨0, true⟩ ∧
    p.shared.hold 0 = true := by
  obtain ⟨is, hrun⟩ := Pool.run_play mountedLater (single 0 .start [.processes 0 .gone])
  refine ⟨is, _, hrun, by decide +kernel, fun target hne => ?_, by decide +kernel,
    by decide +kernel⟩
  cases target with
  | compat => exact absurd rfl hne
  | patcher => decide +kernel
  | config => decide +kernel
  | libs => decide +kernel
  | themes => decide +kernel

end Runs

end PlumosBubble.PortLaunch
