import PlumosBubble.PortMaster.PortLaunch
import PlumosBubble.Script.Sections

/-! Any number of invocations of `plumos-portmaster-port-launch`: the section of an invocation is
what lies between its passing of the pid record, or the start of its cleanup, and its end. -/

namespace PlumosBubble.PortSessions

open Scripts Sections PortLaunch

/-- Nothing of the session of `i` is unmounted, stopped or removed. -/
structure Spares (i : ℕ) (s t : State) : Prop where
  mounts : ∀ target, i ∈ s.mounts target → i ∈ t.mounts target
  helper : s.helper = some i → t.helper = some i
  pid : ∀ complete, s.pid = some ⟨i, complete⟩ → t.pid = some ⟨i, complete⟩
  starttime : s.starttime = some i → t.starttime = some i
  script : s.script = some i → t.script = some i

/-- Who is past the pid record or in its cleanup, and whose child is running. -/
def sessions : Sections State where
  inside s := s.inside
  running s i := (s.port i).child
  Spares := Spares
  spares_refl _ _ := ⟨fun _ h => h, id, fun _ h => h, id, id⟩

section Rules

variable {i : ℕ} {α : Type} {E : End → State → Prop} {place : Sections.Place}

/-- An exit has no child. -/
def Exits (i : ℕ) : End → State → Prop
  | .exit _, s => sessions.At i .still s
  | .killed, _ => False

theorem at_still {s : State} (hplace : place ≠ .busy) (hs : sessions.Exclusive s)
    (h : sessions.At i place s) : sessions.At i .still s := by
  cases place with
  | outside => exact h.still_of_outside hs
  | idle => exact h.2
  | busy => exact absurd rfl hplace
  | still => exact h

theorem does_orExit {status : ℕ} {ok : Bool} (hplace : place ≠ .busy) :
    sessions.Does i (Exits i) (sessions.At i place) (orExit status ok)
      fun _ => sessions.At i place := by
  cases ok with
  | true => exact does_pure fun s hs => hs
  | false => exact Triple.raise _ stable_at fun s hinv hs => at_still hplace hinv hs

theorem still_stopHelper (s : State) : sessions.Still s s.stopHelper := ⟨rfl, fun _ h => h⟩

theorem still_unmountAll (s : State) : sessions.Still s s.unmountAll := ⟨rfl, fun _ h => h⟩

theorem still_removeRecords (s : State) : sessions.Still s s.removeRecords := ⟨rfl, fun _ h => h⟩

theorem spares_same {s t : State} (hmounts : t.mounts = s.mounts) (hhelper : t.helper = s.helper)
    (hpid : t.pid = s.pid) (hstarttime : t.starttime = s.starttime)
    (hscript : t.script = s.script) (j : ℕ) : sessions.Spares j s t := by
  refine ⟨fun target h => ?_, fun h => ?_, fun complete h => ?_, fun h => ?_, fun h => ?_⟩
  · rw [hmounts]; exact h
  · rw [hhelper]; exact h
  · rw [hpid]; exact h
  · rw [hstarttime]; exact h
  · rw [hscript]; exact h

theorem child_killed {s : State} {port : Port} (hport : port.child = false) (j : ℕ)
    (h : ((s.setPort i port).port j).child = true) : (s.port j).child = true := by
  by_cases hj : j = i
  · subst hj
    have hself : (s.setPort j port).port j = port := Function.update_self ..
    rw [hself, hport] at h
    cases h
  · have hother : (s.setPort i port).port j = s.port j := Function.update_of_ne hj ..
    rw [hother] at h
    exact h

end Rules

section Cleanup

variable {i : ℕ} {α : Type} {E : End → State → Prop} {place : Sections.Place}

theorem does_look {f : State → α} :
    sessions.Does i E (sessions.At i place) (Script.read f) fun _ => sessions.At i place := by
  apply does_quiet
  intro s o ho
  rw [List.mem_singleton.mp ho]
  exact ⟨.refl s, fun j => sessions.spares_refl j s⟩

theorem does_command {f : State → State} (hf : ∀ s, sessions.Still s (f s)) :
    sessions.Does i E (sessions.At i .idle) (command f) fun _ => sessions.At i .idle := by
  apply does_inside rfl
  intro s o ho
  rw [List.mem_singleton.mp ho]
  exact hf s

/-- The end of an invocation that its own sweep has killed. -/
def Killed (i : ℕ) : End → State → Prop
  | .exit _, _ => False
  | .killed, s => sessions.At i .idle s

theorem does_killOwn :
    sessions.Does i E (sessions.At i .idle) (killOwn i) fun _ => sessions.At i .idle := by
  apply Triple.bind does_look
  intro own
  cases own with
  | false => exact does_pure fun s hs => hs
  | true => exact does_command fun s => ⟨rfl, child_killed rfl⟩

theorem does_sweepSession :
    sessions.Does i (Killed i) (sessions.At i .idle) (sweepSession i)
      fun _ => sessions.At i .idle := by
  apply Triple.bind does_look
  intro tagged
  cases tagged with
  | false => exact does_pure fun s hs => hs
  | true =>
    apply Triple.bind (Q := fun _ => sessions.At i .idle)
    · apply does_inside rfl
      intro s o ho
      rw [List.mem_singleton.mp ho]
      exact ⟨rfl, child_killed rfl⟩
    intro own
    cases own with
    | false => exact does_pure fun s hs => hs
    | true => exact Triple.raise _ stable_at fun s _ hs => hs

theorem does_releaseHold :
    sessions.Does i E (sessions.At i .idle) (releaseHold i) fun _ => sessions.At i .idle := by
  apply Triple.bind does_look
  intro restore
  cases restore with
  | false => exact does_pure fun s hs => hs
  | true => exact does_command fun _ => ⟨rfl, fun _ h => h⟩

theorem does_cleanup :
    sessions.Does i (Killed i) (sessions.At i .still) (cleanup i)
      fun _ => sessions.At i .idle := by
  apply Triple.bind (Q := fun _ => sessions.At i .idle)
  · apply Triple.run stable_at fun _ => stable_at
    intro s hinv hs o ho hC
    rw [List.mem_singleton.mp ho] at hC ⊢
    obtain ⟨hpromise, hmem⟩ := promise_enter hinv hC rfl (fun _ h => h)
      (spares_same rfl rfl rfl rfl rfl)
    exact ⟨hpromise, hmem, hs⟩
  intro done
  cases done with
  | true => exact does_pure fun s hs => hs
  | false =>
    apply Triple.bind does_killOwn
    intro _
    apply Triple.bind does_sweepSession
    intro _
    apply Triple.bind (does_command still_stopHelper)
    intro _
    apply Triple.bind (does_command still_unmountAll)
    intro _
    apply Triple.bind (does_command still_removeRecords)
    intro _
    exact does_releaseHold

end Cleanup

section Launch

variable {i : ℕ} {α : Type} {E : End → State → Prop} {place : Sections.Place}

theorem does_signalPoint :
    sessions.Does i E (sessions.At i place) (signalPoint false i) fun _ => sessions.At i place :=
  does_pure fun _ hs => hs

theorem does_test {outcomes : State → List (α × State)} {m : α → Sh Unit}
    {Q : Unit → State → Prop} (h : ∀ s, ∀ o ∈ outcomes s, o.2 = s)
    (hm : ∀ a, sessions.Does i E (sessions.At i place) (m a) Q) :
    sessions.Does i E (sessions.At i place)
      (do
        let a ← Script.run outcomes
        signalPoint false i
        m a) Q := by
  apply Triple.bind (Q := fun _ => sessions.At i place)
  · apply does_quiet
    intro s o ho
    rw [h s o ho]
    exact ⟨.refl s, fun j => sessions.spares_refl j s⟩
  intro a
  apply Triple.bind does_signalPoint
  intro _
  exact hm a

theorem eq_of_mem_pair {a b : α} {s : State} {o : α × State} (h : o ∈ [(a, s), (b, s)]) :
    o.2 = s := by
  rcases List.mem_cons.mp h with rfl | h
  · rfl
  · rw [List.mem_singleton.mp h]

theorem does_check {status : ℕ} (hplace : place ≠ .busy) :
    sessions.Does i (Exits i) (sessions.At i place) (check false i status)
      fun _ => sessions.At i place :=
  does_test (fun _ _ ho => eq_of_mem_pair ho) fun _ => does_orExit hplace

theorem does_attempt {status : ℕ} {f : State → State} (hf : ∀ s, sessions.Still s (f s)) :
    sessions.Does i (Exits i) (sessions.At i .idle) (attempt false i status f)
      fun _ => sessions.At i .idle := by
  apply Triple.bind (Q := fun _ => sessions.At i .idle)
  · apply does_inside rfl
    intro s o ho
    rcases List.mem_cons.mp ho with rfl | ho
    · exact hf s
    · rw [List.mem_singleton.mp ho]
      exact .refl s
  intro ok
  apply Triple.bind does_signalPoint
  intro _
  exact does_orExit Sections.Place.noConfusion

theorem does_act {f : State → State} (hplace : place.isInside = true)
    (hf : ∀ s, sessions.Still s (f s)) :
    sessions.Does i E (sessions.At i place) (act false i f) fun _ => sessions.At i place := by
  apply Triple.bind (Q := fun _ => sessions.At i place)
  · apply does_inside hplace
    intro s o ho
    rw [List.mem_singleton.mp ho]
    exact hf s
  intro _
  exact does_signalPoint

theorem quiet_refuse (s : State) :
    sessions.Still s (s.refuse i) ∧ ∀ j, sessions.Spares j s (s.refuse i) :=
  ⟨⟨rfl, fun _ h => h⟩, spares_same rfl rfl rfl rfl rfl⟩

theorem does_checkArmhf :
    sessions.Does i (Exits i) (sessions.At i .outside) (checkArmhf false i)
      fun _ => sessions.At i .outside := by
  apply Triple.bind (Q := fun _ => sessions.At i .outside)
  · apply does_quiet
    intro s o ho
    rcases List.mem_cons.mp ho with rfl | ho
    · exact ⟨.refl s, fun j => sessions.spares_refl j s⟩
    · rw [List.mem_singleton.mp ho]
      exact quiet_refuse s
  intro ok
  apply Triple.bind does_signalPoint
  intro _
  exact does_orExit Sections.Place.noConfusion

/-- Where a test of the pid record leaves an invocation. -/
def tested (stays : Bool) : Sections.Place := if stays then .outside else .idle

theorem does_pass {stays : State → Bool} {stay : State → State}
    (hstay : ∀ s, sessions.Still s (stay s) ∧ ∀ j, sessions.Spares j s (stay s)) :
    sessions.Does i E (sessions.At i .outside)
      (Script.run fun s => [(stays s, if stays s then stay s else s.enter i)])
      fun b => sessions.At i (tested b) := by
  apply Triple.run stable_at fun _ => stable_at
  intro s hinv hs o ho hC
  rw [List.mem_singleton.mp ho] at hC ⊢
  cases hstays : stays s with
  | true =>
    obtain ⟨hstill, hspares⟩ := hstay s
    exact ⟨hstill.promise hinv fun _ => hspares, At.step hstill hs⟩
  | false =>
    rw [hstays] at hC
    have hquiet := hs.still_of_outside hinv
    obtain ⟨hpromise, hmem⟩ := promise_enter hinv hC rfl (fun _ h => h)
      (spares_same rfl rfl rfl rfl rfl)
    exact ⟨hpromise, hmem, hquiet⟩

theorem does_checkRunning :
    sessions.Does i (Exits i) (sessions.At i .outside) (checkRunning false i)
      fun _ => sessions.At i .idle := by
  apply Triple.bind (does_pass fun s => ⟨.refl s, fun j => sessions.spares_refl j s⟩)
  intro recorded
  apply Triple.bind does_signalPoint
  intro _
  cases recorded with
  | false => exact does_pure fun s hs => hs
  | true =>
    apply Triple.bind (does_pass quiet_refuse)
    intro running
    apply Triple.bind does_signalPoint
    intro _
    apply Triple.bind (Q := fun _ => sessions.At i .idle)
    · cases running with
      | true =>
        exact Triple.raise _ stable_at fun s hinv hs =>
          at_still Sections.Place.noConfusion hinv hs
      | false => exact does_pure fun s hs => hs
    intro _
    exact does_act rfl still_removeRecords

theorem still_mount (target : Target) (s : State) : sessions.Still s (s.mount i target) :=
  ⟨rfl, fun _ h => h⟩

theorem still_acquire (s : State) : sessions.Still s ((s.setHold i true).deed i) :=
  ⟨rfl, fun _ h => h⟩

theorem still_setVars (f : Vars → Vars) (s : State) : sessions.Still s (s.setVars i f) :=
  ⟨rfl, fun _ h => h⟩

theorem still_noted (f : Vars → Vars) (s : State) :
    sessions.Still s ((s.setVars i f).deed i) :=
  ⟨rfl, fun _ h => h⟩

theorem does_bindMount (strict : Bool) (target : Target) :
    sessions.Does i (Exits i) (sessions.At i .idle) (bindMount false i strict target)
      fun _ => sessions.At i .idle := by
  apply does_test
  · intro s o ho
    rw [List.mem_singleton.mp ho]
  intro stale
  apply Triple.bind (does_orExit Sections.Place.noConfusion)
  intro _
  apply Triple.bind (does_attempt (still_mount target))
  intro _
  cases strict with
  | true => exact does_check Sections.Place.noConfusion
  | false => exact does_pure fun s hs => hs

theorem does_prepareCompatMount :
    sessions.Does i (Exits i) (sessions.At i .idle) (prepareCompatMount false i)
      fun _ => sessions.At i .idle := by
  apply does_test fun _ _ ho => eq_of_mem_pair ho
  intro there
  cases there with
  | true => exact does_bindMount true .compat
  | false => exact does_pure fun s hs => hs

theorem does_preparePatcherCompat :
    sessions.Does i (Exits i) (sessions.At i .idle) (preparePatcherCompat false i)
      fun _ => sessions.At i .idle :=
  Triple.bind (does_check Sections.Place.noConfusion) fun _ => does_bindMount true .patcher

theorem does_mounts (targets : List Target) :
    sessions.Does i (Exits i) (sessions.At i .idle)
      (Script.forEach (bindMount false i false) targets) fun _ => sessions.At i .idle := by
  induction targets with
  | nil => exact does_pure fun s hs => hs
  | cons target targets ih =>
    apply Triple.bind (does_bindMount false target)
    exact fun _ => ih

theorem does_holdFrontend :
    sessions.Does i (Exits i) (sessions.At i .idle) (holdFrontend false i)
      fun _ => sessions.At i .idle := by
  apply does_test fun _ _ ho => eq_of_mem_pair ho
  intro needed
  cases needed with
  | false => exact does_pure fun s hs => hs
  | true =>
    apply Triple.bind (does_attempt still_acquire)
    intro _
    exact does_act rfl (still_noted _)

theorem does_start :
    sessions.Does i (Exits i) (sessions.At i .idle)
      (attempt false i 2 fun s => (s.setPort i .started).deed i)
      fun _ => sessions.At i .busy := by
  apply Triple.bind (Q := fun ok => sessions.At i (if ok then .busy else .idle))
  · apply Triple.run stable_at fun _ => stable_at
    intro s hinv hs o ho _
    rcases List.mem_cons.mp ho with rfl | ho
    · have hinside : sessions.inside ((s.setPort i .started).deed i) = sessions.inside s := rfl
      apply promise_start hinv hs.1 hinside
      intro j hj hrun
      have hother : ((s.setPort i .started).deed i).port j = s.port j :=
        Function.update_of_ne hj ..
      exact (congrArg Port.child hother).symm.trans hrun
    · rw [List.mem_singleton.mp ho]
      exact ⟨promise_refl hinv, hs⟩
  intro ok
  apply Triple.bind does_signalPoint
  intro _
  cases ok with
  | true => exact does_pure fun s hs => hs
  | false =>
    exact Triple.raise _ stable_at fun s hinv hs => at_still Sections.Place.noConfusion hinv hs

theorem does_write {outcomes : State → List (Unit × State)}
    (h : ∀ s, ∀ o ∈ outcomes s, sessions.Still s o.2) :
    sessions.Does i E (sessions.At i .busy)
      (do
        Script.run outcomes
        signalPoint false i) fun _ => sessions.At i .busy :=
  Triple.bind (does_inside rfl h) fun _ => does_signalPoint

theorem does_writePid :
    sessions.Does i E (sessions.At i .busy) (writePid false i) fun _ => sessions.At i .busy := by
  apply does_write
  intro s o ho
  simp only [List.mem_cons, List.not_mem_nil, or_false] at ho
  rcases ho with rfl | rfl | rfl <;> exact ⟨rfl, fun _ h => h⟩

theorem does_writeStart :
    sessions.Does i E (sessions.At i .busy) (writeStart false i) fun _ => sessions.At i .busy := by
  apply does_write
  intro s o ho
  simp only [List.mem_cons, List.not_mem_nil, or_false] at ho
  rcases ho with rfl | rfl <;> exact ⟨rfl, fun _ h => h⟩

theorem does_writeScript :
    sessions.Does i E (sessions.At i .busy) (writeScript false i)
      fun _ => sessions.At i .busy := by
  apply does_write
  intro s o ho
  simp only [List.mem_cons, List.not_mem_nil, or_false] at ho
  rcases ho with rfl | rfl <;> exact ⟨rfl, fun _ h => h⟩

theorem does_waitChild :
    sessions.Does i (Exits i) (sessions.At i .busy) (waitChild false i)
      fun _ => sessions.At i .idle := by
  apply Triple.bind (Q := fun arrived s => arrived = false ∧ sessions.At i .idle s)
  · apply Triple.run stable_at fun arrived => ?_
    · intro s hinv hs o ho _
      cases hchild : (s.port i).child with
      | true =>
        rw [hchild] at ho
        cases ho
      | false =>
        rw [hchild] at ho
        rw [List.mem_singleton.mp ho]
        exact ⟨promise_refl hinv, rfl, hs, hchild⟩
    · intro s t hinv hs hrely ht
      exact ⟨hs.1, stable_at s t hinv hs.2 hrely ht⟩
  intro arrived
  cases arrived with
  | false =>
    refine Triple.conseq (does_pure fun s hs => hs) (fun _ _ h => h.2) (fun _ _ _ h => h)
      fun _ _ _ h => h
  | true => exact fun s _ hs => by cases hs.1

theorem does_startPort :
    sessions.Does i (Exits i) (sessions.At i .idle) (startPort false i)
      fun _ => sessions.At i .idle := by
  apply Triple.bind (does_act rfl (still_setVars _))
  intro _
  apply Triple.bind does_start
  intro _
  apply Triple.bind (does_act rfl (still_noted _))
  intro _
  apply Triple.bind does_writePid
  intro _
  apply Triple.bind does_writeStart
  intro _
  apply Triple.bind does_writeScript
  intro _
  exact does_waitChild

theorem does_launch :
    sessions.Does i (Exits i) (sessions.At i .outside) (launch false i)
      fun _ => sessions.At i .idle := by
  apply Triple.bind does_checkArmhf
  intro _
  apply Triple.bind (does_check Sections.Place.noConfusion)
  intro _
  apply Triple.bind does_checkRunning
  intro _
  apply Triple.bind (does_check Sections.Place.noConfusion)
  intro _
  apply Triple.bind (does_attempt still_unmountAll)
  intro _
  apply Triple.bind (does_check Sections.Place.noConfusion)
  intro _
  apply Triple.bind (does_check Sections.Place.noConfusion)
  intro _
  apply Triple.bind (does_check Sections.Place.noConfusion)
  intro _
  apply Triple.bind does_prepareCompatMount
  intro _
  apply Triple.bind does_preparePatcherCompat
  intro _
  apply Triple.bind (does_mounts _)
  intro _
  apply Triple.bind (does_check Sections.Place.noConfusion)
  intro _
  apply Triple.bind (does_check Sections.Place.noConfusion)
  intro _
  apply Triple.bind (does_check Sections.Place.noConfusion)
  intro _
  apply Triple.bind does_holdFrontend
  intro _
  exact does_startPort

/-- The end of an invocation, however its body has ended. -/
def Gone (i : ℕ) : End → State → Prop := fun _ => sessions.At i .outside

theorem does_leave :
    sessions.Does i E (sessions.At i .idle) (command fun s => s.leave i)
      fun _ => sessions.At i .outside := by
  apply Triple.run stable_at fun _ => stable_at
  intro s hinv hs o ho _
  rw [List.mem_singleton.mp ho]
  exact promise_leave hinv hs rfl fun _ => rfl

theorem does_atExit :
    sessions.Does i (Gone i) (sessions.At i .outside) (atExit i (launch false i))
      fun _ => sessions.At i .outside := by
  have hlaunch : sessions.Does i (Exits i) (sessions.At i .outside) (launch false i)
      fun _ => sessions.At i .still :=
    does_launch.conseq (fun _ _ h => h) (fun _ _ _ h => h.2) fun _ _ _ h => h
  apply Triple.bind (Q := fun _ => sessions.At i .idle)
  · refine Triple.handle (Triple.bind (Triple.handle hlaunch ?_) fun _ => does_cleanup) ?_
    · intro e
      cases e with
      | exit status =>
        have hdone : sessions.Does i (Killed i) (sessions.At i .still) (pure ())
            fun _ => sessions.At i .still := does_pure fun s hs => hs
        exact hdone
      | killed => exact fun s _ hs => hs.elim
    · intro e
      cases e with
      | exit status => exact fun s _ hs => hs.elim
      | killed =>
        apply Triple.bind (Q := fun _ => sessions.At i .outside) does_leave
        exact fun _ => Triple.raise _ stable_at fun s _ hs => hs
  · intro _
    apply Triple.bind does_leave
    exact fun _ => does_pure fun s hs => hs

theorem does_portLaunch :
    sessions.Does i (Gone i) (sessions.At i .outside) (portLaunch false i)
      fun _ => sessions.At i .outside := by
  apply Triple.bind (Q := fun _ => sessions.At i .outside)
  · apply does_quiet
    intro s o ho
    rw [eq_of_mem_pair ho]
    exact ⟨.refl s, fun j => sessions.spares_refl j s⟩
  intro trapped
  cases trapped with
  | true => exact does_atExit
  | false => exact does_pure fun s hs => hs

end Launch

section Runs

variable {s₀ : State} {events : List Event} {is : List Process}
  {p : Pool Process State End Unit}

/-- Any number of invocations with their ports. -/
def pool (s₀ : State) (events : List Event) : Pool Process State End Unit where
  shared := s₀
  thread
    | .run i => portLaunch false i
    | .world => world events

theorem still_processes (s : State) (j : ℕ) (port : Port) :
    sessions.Still s (if (s.port j).Becomes port then s.setPort j port else s) := by
  split
  · rename_i hbecomes
    refine ⟨rfl, fun k hk => ?_⟩
    by_cases hkj : k = j
    · subst hkj
      have hself : (s.setPort k port).port k = port := Function.update_self ..
      exact hbecomes.1 ((congrArg Port.child hself).symm.trans hk)
    · have hother : (s.setPort j port).port k = s.port k := Function.update_of_ne hkj ..
      exact (congrArg Port.child hother).symm.trans hk
  · exact .refl s

theorem still_helper (s : State) (j : ℕ) :
    sessions.Still s (if (s.port j).child then { s with helper := some j } else s) := by
  split
  · exact ⟨rfl, fun _ h => h⟩
  · exact .refl s

theorem does_world (events : List Event) :
    Triple sessions.protocol (sessions.Entering .world) .world (fun _ => True) (world events)
      (fun _ _ => True) fun _ _ => True := by
  have hstable : Stable sessions.protocol .world fun _ => True := fun _ _ _ _ _ _ => trivial
  have hcommand : ∀ f : State → State, (∀ s, sessions.Still s (f s)) →
      Triple sessions.protocol (sessions.Entering .world) .world (fun _ => True) (command f)
        (fun _ _ => True) fun (_ : End) _ => True := by
    intro f hf
    apply Triple.run hstable fun _ => hstable
    intro s _ _ o ho _
    rw [List.mem_singleton.mp ho]
    exact ⟨hf s, trivial⟩
  induction events with
  | nil => exact Triple.pure _ hstable fun _ _ h => h
  | cons event events ih =>
    cases event with
    | processes j port =>
      exact Triple.bind (hcommand _ fun s => still_processes s j port) fun _ => ih
    | helper j => exact Triple.bind (hcommand _ fun s => still_helper s j) fun _ => ih

/-- Nobody is inside, and no child is running. -/
def Quiet (s : State) : Prop := s.inside = [] ∧ ∀ i, (s.port i).child = false

theorem pool_correct (h₀ : Quiet s₀) (events : List Event) :
    Pool.Correct sessions.protocol sessions.Entering (fun _ _ _ => True) (fun _ _ _ => True)
      (pool s₀ events) := by
  have hinv : sessions.Exclusive s₀ := by
    refine ⟨Or.inl h₀.1, fun i hi => ?_⟩
    have hno : (s₀.port i).child = false := h₀.2 i
    exact absurd (hno.symm.trans hi) Bool.false_ne_true
  refine ⟨hinv, fun party => ?_⟩
  cases party with
  | run i =>
    have hout : sessions.At i .outside s₀ := by
      show i ∉ s₀.inside
      rw [h₀.1]
      exact List.not_mem_nil
    have hrun := @does_portLaunch i s₀ hinv hout
    exact hrun.mono (fun _ _ _ _ => trivial) fun _ _ _ _ => trivial
  | world => exact @does_world events s₀ hinv trivial

end Runs

end PlumosBubble.PortSessions
