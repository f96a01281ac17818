import PlumosBubble.PortMaster.GuiLaunch
import PlumosBubble.PortMaster.PortSessions

/-! Any number of invocations of `plumos-portmaster-launch`, and with those of the ports what both
launchers do: while an invocation is let in, or begins the cleanup of one that was not, only
where nobody else is inside, no running session is disturbed. -/

namespace PlumosBubble.GuiSessions

open Scripts Sections GuiLaunch

/-- Nothing of the session of `i` is unmounted or removed. -/
structure Spares (i : ℕ) (s t : State) : Prop where
  mounts : ∀ target, i ∈ s.mounts target → i ∈ t.mounts target
  pid : ∀ record, s.pid = some record → record.maker = i → t.pid = some record

/-- Who is past the pid record or in its cleanup, and whose GUI is running. -/
def sessions : Sections State where
  inside s := s.inside
  running s i := (s.gui i).child.isSome
  Spares := Spares
  spares_refl _ _ := ⟨fun _ h => h, fun _ h _ => h⟩

section Rules

variable {i : ℕ} {α : Type} {E : ℕ → State → Prop} {place : Sections.Place}

/-- An exit has no GUI. -/
def Exits (i : ℕ) : ℕ → State → Prop := fun _ => sessions.At i .still

theorem spares_same {s t : State} (hmounts : t.mounts = s.mounts) (hpid : t.pid = s.pid) (j : ℕ) :
    sessions.Spares j s t := by
  refine ⟨fun target h => ?_, fun record h _ => ?_⟩
  · rw [hmounts]
    exact h
  · rw [hpid]
    exact h

theorem still_unmountAll (s : State) : sessions.Still s s.unmountAll := ⟨rfl, fun _ h => h⟩

theorem still_removePid (s : State) : sessions.Still s s.removePid := ⟨rfl, fun _ h => h⟩

theorem still_removeMarker (s : State) : sessions.Still s s.removeMarker := ⟨rfl, fun _ h => h⟩

theorem still_setVars (f : Vars → Vars) (s : State) : sessions.Still s (s.setVars i f) :=
  ⟨rfl, fun _ h => h⟩

theorem still_setHold (hold : Bool) (s : State) : sessions.Still s (s.setHold i hold) :=
  ⟨rfl, fun _ h => h⟩

theorem still_mount (target : Target) (s : State) : sessions.Still s (s.mount i target) :=
  ⟨rfl, fun _ h => h⟩

theorem isSome_setGui {s : State} {gui : Gui} {j : ℕ} (hj : j ≠ i)
    (h : ((s.setGui i gui).gui j).child.isSome = true) : (s.gui j).child.isSome = true := by
  have hother : (s.setGui i gui).gui j = s.gui j := Function.update_of_ne hj ..
  rw [hother] at h
  exact h

theorem still_gone (s : State) : sessions.Still s (s.setGui i .gone) := by
  refine ⟨rfl, fun j h => ?_⟩
  by_cases hj : j = i
  · subst hj
    have hself : (s.setGui j .gone).gui j = .gone := Function.update_self ..
    have hsome : ((s.setGui j .gone).gui j).child.isSome = true := h
    rw [hself] at hsome
    cases hsome
  · exact isSome_setGui hj h

theorem quiet_refuse (s : State) :
    sessions.Still s (s.refuse i) ∧ ∀ j, sessions.Spares j s (s.refuse i) :=
  ⟨⟨rfl, fun _ h => h⟩, spares_same rfl rfl⟩

theorem does_look {f : State → α} :
    sessions.Does i E (sessions.At i place) (Script.read f) fun _ => sessions.At i place := by
  apply does_quiet
  intro s o ho
  rw [List.mem_singleton.mp ho]
  exact ⟨.refl s, fun j => sessions.spares_refl j s⟩

theorem does_command {f : State → State} (hplace : place.isInside = true)
    (hf : ∀ s, sessions.Still s (f s)) :
    sessions.Does i E (sessions.At i place) (command f) fun _ => sessions.At i place := by
  apply does_inside hplace
  intro s o ho
  rw [List.mem_singleton.mp ho]
  exact hf s

theorem does_orExit {status : ℕ} {ok : Bool} :
    sessions.Does i (Exits i) (sessions.At i .idle) (orExit status ok)
      fun _ => sessions.At i .idle := by
  cases ok with
  | true => exact does_pure fun s hs => hs
  | false => exact Triple.raise _ stable_at fun s _ hs => hs.2

theorem does_attempt {status : ℕ} {f : State → State} (hf : ∀ s, sessions.Still s (f s)) :
    sessions.Does i (Exits i) (sessions.At i .idle) (attempt status f)
      fun _ => sessions.At i .idle := by
  apply Triple.bind (Q := fun _ => sessions.At i .idle)
  · apply does_inside rfl
    intro s o ho
    rcases List.mem_cons.mp ho with rfl | ho
    · exact hf s
    · rw [List.mem_singleton.mp ho]
      exact .refl s
  exact fun _ => does_orExit

theorem does_check {status : ℕ} :
    sessions.Does i (Exits i) (sessions.At i .idle) (check status)
      fun _ => sessions.At i .idle :=
  does_attempt Still.refl

end Rules

section Cleanup

variable {i : ℕ} {E : ℕ → State → Prop}

theorem does_sweepSession :
    sessions.Does i E (sessions.At i .idle) (sweepSession i) fun _ => sessions.At i .idle := by
  apply Triple.bind does_look
  intro tagged
  cases tagged with
  | false => exact does_pure fun s hs => hs
  | true => exact does_command rfl still_gone

theorem does_removeOwn :
    sessions.Does i E (sessions.At i .idle) (removeOwn i) fun _ => sessions.At i .idle := by
  apply Triple.bind does_look
  intro own
  cases own with
  | false => exact does_pure fun s hs => hs
  | true => exact does_command rfl still_removePid

theorem does_releaseHold :
    sessions.Does i E (sessions.At i .idle) (releaseHold i) fun _ => sessions.At i .idle := by
  apply Triple.bind does_look
  intro restore
  cases restore with
  | false => exact does_pure fun s hs => hs
  | true => exact does_command rfl (still_setHold false)

theorem does_cleanup :
    sessions.Does i E (sessions.At i .still) (cleanup i) fun _ => sessions.At i .idle := by
  apply Triple.bind (Q := fun _ => sessions.At i .idle)
  · apply Triple.run stable_at fun _ => stable_at
    intro s hinv hs o ho hC
    rw [List.mem_singleton.mp ho] at hC ⊢
    obtain ⟨hpromise, hmem⟩ := promise_enter hinv hC rfl (fun _ h => h) (spares_same rfl rfl)
    exact ⟨hpromise, hmem, hs⟩
  intro done
  cases done with
  | true => exact does_pure fun s hs => hs
  | false =>
    apply Triple.bind does_sweepSession
    intro _
    apply Triple.bind (does_command rfl still_unmountAll)
    intro _
    apply Triple.bind does_removeOwn
    intro _
    exact does_releaseHold

end Cleanup

section Launch

variable {i : ℕ} {E : ℕ → State → Prop}

/-- Where a test of the pid record leaves an invocation. -/
def tested (stays : Bool) : Sections.Place := if stays then .outside else .idle

theorem does_pass {stays : State → Bool} {stay : State → State}
    (hstay : ∀ s, sessions.Still s (stay s) ∧ ∀ j, sessions.Spares j s (stay s)) :
    sessions.Does i E (sessions.At i .outside)
      (Script.run fun s => [(stays s, if stays s then stay s else s.enter i)])
      fun b => sessions.At i (tested b) := by
  apply Triple.run stable_at fun _ => stable_at
  intro s hinv hs o ho hC
  rw [List.mem_singleton.mp ho] at hC ⊢
  cases hstays : stays s with
  | true =>
    obtain ⟨hstill, hspares⟩ := hstay s
    exact ⟨hstill.promise hinv fun _ => hspares, At.step hstill hs⟩
  | false =>
    rw [hstays] at hC
    have hquiet := hs.still_of_outside hinv
    obtain ⟨hpromise, hmem⟩ := promise_enter hinv hC rfl (fun _ h => h) (spares_same rfl rfl)
    exact ⟨hpromise, hmem, hquiet⟩

theorem does_checkRunning :
    sessions.Does i (Exits i) (sessions.At i .outside) (checkRunning i)
      fun _ => sessions.At i .idle := by
  apply Triple.bind (does_pass fun s => ⟨.refl s, fun j => sessions.spares_refl j s⟩)
  intro recorded
  cases recorded with
  | false => exact does_pure fun s hs => hs
  | true =>
    apply Triple.bind (does_pass quiet_refuse)
    intro running
    apply Triple.bind (Q := fun _ => sessions.At i .idle)
    · cases running with
      | true => exact Triple.raise _ stable_at fun s hinv hs => hs.still_of_outside hinv
      | false => exact does_pure fun s hs => hs
    intro _
    exact does_command rfl still_removePid

theorem does_bindMount (target : Target) :
    sessions.Does i (Exits i) (sessions.At i .idle) (bindMount i target)
      fun _ => sessions.At i .idle := by
  apply Triple.bind does_look
  intro stale
  apply Triple.bind does_orExit
  intro _
  exact does_attempt (still_mount target)

theorem does_mounts (targets : List Target) :
    sessions.Does i (Exits i) (sessions.At i .idle) (Script.forEach (bindMount i) targets)
      fun _ => sessions.At i .idle := by
  induction targets with
  | nil => exact does_pure fun s hs => hs
  | cons target targets ih =>
    apply Triple.bind (does_bindMount target)
    exact fun _ => ih

theorem does_holdFrontend :
    sessions.Does i (Exits i) (sessions.At i .idle) (holdFrontend i)
      fun _ => sessions.At i .idle := by
  apply Triple.bind (Q := fun _ => sessions.At i .idle)
  · apply does_inside rfl
    intro s o ho
    rcases List.mem_cons.mp ho with rfl | ho
    · exact .refl s
    · rw [List.mem_singleton.mp ho]
      exact .refl s
  intro needed
  cases needed with
  | false => exact does_pure fun s hs => hs
  | true =>
    apply Triple.bind (does_attempt (still_setHold true))
    intro _
    exact does_command rfl (still_setVars _)

theorem does_consumeStale :
    sessions.Does i (Exits i) (sessions.At i .idle) consumeStale fun _ => sessions.At i .idle := by
  apply Triple.bind does_look
  intro stale
  cases stale with
  | false => exact does_pure fun s hs => hs
  | true => exact does_attempt still_removeMarker

theorem does_start (round : ℕ) :
    sessions.Does i E (sessions.At i .idle)
      (command fun s => s.setGui i ⟨some round, (s.gui i).others⟩)
      fun _ => sessions.At i .busy := by
  apply Triple.run stable_at fun _ => stable_at
  intro s hinv hs o ho _
  rw [List.mem_singleton.mp ho]
  have hinside : sessions.inside (s.setGui i ⟨some round, (s.gui i).others⟩) =
      sessions.inside s := rfl
  exact promise_start hinv hs.1 hinside fun j hj hrun => isSome_setGui hj hrun

theorem does_writePid (round : ℕ) :
    sessions.Does i E (sessions.At i .busy) (writePid i round) fun _ => sessions.At i .busy := by
  apply does_inside rfl
  intro s o ho
  simp only [List.mem_cons, List.not_mem_nil, or_false] at ho
  rcases ho with rfl | rfl | rfl <;> exact ⟨rfl, fun _ h => h⟩

theorem does_waitChild :
    sessions.Does i E (sessions.At i .busy) (waitChild i) fun _ => sessions.At i .idle := by
  apply Triple.run stable_at fun _ => stable_at
  intro s hinv hs o ho _
  split at ho
  · rename_i hnone
    rw [List.mem_singleton.mp ho]
    have hidle : sessions.running s i = false := by
      show (s.gui i).child.isSome = false
      rw [hnone]
      rfl
    exact ⟨promise_refl hinv, hs, hidle⟩
  · cases ho

theorem does_runGui (round : ℕ) :
    sessions.Does i (Exits i) (sessions.At i .idle) (runGui i round)
      fun _ => sessions.At i .idle := by
  apply Triple.bind (does_start round)
  intro _
  apply Triple.bind (does_command rfl (still_setVars _))
  intro _
  apply Triple.bind (does_writePid round)
  intro _
  apply Triple.bind does_waitChild
  intro _
  apply Triple.bind does_look
  intro again
  cases again with
  | false => exact does_pure fun s hs => hs
  | true =>
    apply Triple.bind (does_attempt still_removeMarker)
    exact fun _ => does_pure fun s hs => hs

theorem does_rounds (left round : ℕ) :
    sessions.Does i (Exits i) (sessions.At i .idle) (rounds i round left)
      fun _ => sessions.At i .idle := by
  induction left generalizing round with
  | zero => exact Triple.raise _ stable_at fun s _ hs => hs.2
  | succ left ih =>
    apply Triple.bind (does_runGui round)
    intro again
    cases again with
    | false => exact does_pure fun s hs => hs
    | true => exact ih (round + 1)

theorem does_runRounds (limit : Option ℕ) :
    sessions.Does i (Exits i) (sessions.At i .idle) (runRounds i limit)
      fun _ => sessions.At i .idle := by
  cases limit with
  | none => exact Triple.raise _ stable_at fun s _ hs => hs.2
  | some limit =>
    apply Triple.bind (does_command rfl (still_setVars _))
    intro _
    exact does_rounds _ 0

theorem does_launch :
    sessions.Does i (Exits i) (sessions.At i .outside) (launch i) fun _ => sessions.At i .idle := by
  apply Triple.bind does_checkRunning
  intro _
  apply Triple.bind does_check
  intro _
  apply Triple.bind (does_attempt still_unmountAll)
  intro _
  apply Triple.bind does_check
  intro _
  apply Triple.bind does_check
  intro _
  apply Triple.bind (does_bindMount .log)
  intro _
  apply Triple.bind (does_mounts _)
  intro _
  apply Triple.bind does_check
  intro _
  apply Triple.bind does_check
  intro _
  apply Triple.bind does_check
  intro _
  apply Triple.bind does_check
  intro _
  apply Triple.bind does_holdFrontend
  intro _
  apply Triple.bind does_consumeStale
  intro _
  apply Triple.bind does_look
  intro limit
  exact does_runRounds limit

theorem does_portmasterLaunch :
    sessions.Does i E (sessions.At i .outside) (portmasterLaunch i)
      fun _ => sessions.At i .outside := by
  have hlaunch : sessions.Does i (Exits i) (sessions.At i .outside) (launch i)
      fun _ => sessions.At i .still :=
    does_launch.conseq (fun _ _ h => h) (fun _ _ _ h => h.2) fun _ _ _ h => h
  have hbody : sessions.Does i E (sessions.At i .outside) ((launch i).handle fun _ => pure ())
      fun _ => sessions.At i .still :=
    Triple.handle hlaunch fun _ => does_pure fun s hs => hs
  apply Triple.bind hbody
  intro _
  apply Triple.bind does_cleanup
  intro _
  apply Triple.run stable_at fun _ => stable_at
  intro s hinv hs o ho _
  rw [List.mem_singleton.mp ho]
  exact promise_leave hinv hs rfl fun _ => rfl

end Launch

section Runs

variable {s₀ : State}

/-- Any number of invocations with their GUIs. -/
def pool (s₀ : State) (events : List Event) : Pool Process State ℕ Unit where
  shared := s₀
  thread
    | .run i => portmasterLaunch i
    | .world => world events

theorem still_processes (s : State) (j : ℕ) (gui : Gui) :
    sessions.Still s (if (s.gui j).Becomes gui then s.setGui j gui else s) := by
  split
  · rename_i hbecomes
    refine ⟨rfl, fun k hk => ?_⟩
    by_cases hkj : k = j
    · subst hkj
      have hself : (s.setGui k gui).gui k = gui := Function.update_self ..
      have hsome : gui.child.isSome = true :=
        (congrArg (fun g : Gui => g.child.isSome) hself).symm.trans hk
      show (s.gui k).child.isSome = true
      rcases hbecomes.1 with hnone | hsame
      · rw [hnone] at hsome
        cases hsome
      · rw [← hsame]
        exact hsome
    · exact isSome_setGui hkj hk
  · exact .refl s

theorem still_restart (s : State) (j : ℕ) :
    sessions.Still s (if (s.gui j).child = none then s else { s with marker := true }) := by
  split
  · exact .refl s
  · exact ⟨rfl, fun _ h => h⟩

theorem does_world (events : List Event) :
    Triple sessions.protocol (sessions.Entering .world) .world (fun _ => True) (world events)
      (fun _ _ => True) fun _ _ => True := by
  have hstable : Stable sessions.protocol .world fun _ => True := fun _ _ _ _ _ _ => trivial
  have hcommand : ∀ f : State → State, (∀ s, sessions.Still s (f s)) →
      Triple sessions.protocol (sessions.Entering .world) .world (fun _ => True) (command f)
        (fun _ _ => True) fun (_ : ℕ) _ => True := by
    intro f hf
    apply Triple.run hstable fun _ => hstable
    intro s _ _ o ho _
    rw [List.mem_singleton.mp ho]
    exact ⟨hf s, trivial⟩
  induction events with
  | nil => exact Triple.pure _ hstable fun _ _ h => h
  | cons event events ih =>
    cases event with
    | processes j gui =>
      exact Triple.bind (hcommand _ fun s => still_processes s j gui) fun _ => ih
    | restart j => exact Triple.bind (hcommand _ fun s => still_restart s j) fun _ => ih

/-- Nobody is inside, and no GUI is running. -/
def Quiet (s : State) : Prop := s.inside = [] ∧ ∀ i, (s.gui i).child = none

theorem pool_correct (h₀ : Quiet s₀) (events : List Event) :
    Pool.Correct sessions.protocol sessions.Entering (fun _ _ _ => True) (fun _ _ _ => True)
      (pool s₀ events) := by
  have hinv : sessions.Exclusive s₀ := by
    refine ⟨Or.inl h₀.1, fun i hi => ?_⟩
    have hsome : (s₀.gui i).child.isSome = true := hi
    rw [h₀.2 i] at hsome
    cases hsome
  refine ⟨hinv, fun party => ?_⟩
  cases party with
  | run i =>
    have hout : sessions.At i .outside s₀ := by
      show i ∉ s₀.inside
      rw [h₀.1]
      exact List.not_mem_nil
    exact @does_portmasterLaunch i _ s₀ hinv hout |>.mono (fun _ _ _ _ => trivial)
      fun _ _ _ h => h
  | world => exact @does_world events s₀ hinv trivial

end Runs

end PlumosBubble.GuiSessions

namespace PlumosBubble.Launchers

open Scripts Transition

/-- While an invocation passes the pid record, or begins its cleanup without having passed it,
only where no other is between such a point and its end, one port and one GUI at most are running
at a time, and no step of any invocation, refused or not, unmounts, stops or removes anything of
another session. -/
theorem sessions_undisturbed {portStart : PortLaunch.State} {portEvents : List PortLaunch.Event}
    {ports : List Process} {p : Pool Process PortLaunch.State PortLaunch.End Unit}
    {guiStart : GuiLaunch.State} {guiEvents : List GuiLaunch.Event} {guis : List Process}
    {q : Pool Process GuiLaunch.State ℕ Unit} :
    (PortSessions.Quiet portStart →
      Run (Pool.StepIn PortSessions.sessions.Entering) (PortSessions.pool portStart portEvents)
        ports p →
      PortSessions.sessions.Undisturbed p) ∧
    (GuiSessions.Quiet guiStart →
      Run (Pool.StepIn GuiSessions.sessions.Entering) (GuiSessions.pool guiStart guiEvents)
        guis q →
      GuiSessions.sessions.Undisturbed q) := by
  constructor
  · intro hstart hrun
    exact Sections.undisturbed (PortSessions.pool_correct hstart portEvents) hrun
  · intro hstart hrun
    exact Sections.undisturbed (GuiSessions.pool_correct hstart guiEvents) hrun

/-- The first invocation runs its port, the second one is refused. -/
def portRefused : List (Process × ℕ) :=
  List.replicate 35 (.run 0, 0) ++ List.replicate 5 (.run 1, 0)

/-- The first invocation runs its GUI, the second one is refused. -/
def guiRefused : List (Process × ℕ) :=
  List.replicate 26 (.run 0, 0) ++ List.replicate 2 (.run 1, 0)

theorem sessions_undisturbed_sample :
    let p := Pool.playIn PortSessions.sessions.Entering portRefused (PortSessions.pool .start [])
    let q := Pool.playIn GuiSessions.sessions.Entering guiRefused (GuiSessions.pool .start [])
    (p.shared.refused 1 = true ∧ PortSessions.sessions.Undisturbed p) ∧
      q.shared.refused 1 = true ∧ GuiSessions.sessions.Undisturbed q := by
  intro p q
  obtain ⟨is, hrun⟩ := Pool.run_playIn (C := PortSessions.sessions.Entering) portRefused
    (PortSessions.pool .start [])
  obtain ⟨js, hrun'⟩ := Pool.run_playIn (C := GuiSessions.sessions.Entering) guiRefused
    (GuiSessions.pool .start [])
  have hrefused : p.shared.refused 1 = true := by decide +kernel
  have hrefused' : q.shared.refused 1 = true := by decide +kernel
  have hport : PortSessions.Quiet PortLaunch.State.start := ⟨rfl, fun _ => rfl⟩
  have hgui : GuiSessions.Quiet GuiLaunch.State.start := ⟨rfl, fun _ => rfl⟩
  obtain ⟨hports, hguis⟩ :=
    @sessions_undisturbed _ [] is p _ [] js q
  exact ⟨⟨hrefused, hports hport hrun⟩, hrefused', hguis hgui hrun'⟩

/-- Steps of the second invocation. -/
def Second {α : Type} (party : Process) (_ _ : α) : Prop := party = .run 1

instance {α : Type} (party : Process) (s t : α) : Decidable (Second party s t) :=
  inferInstanceAs (Decidable (_ = _))

theorem refused_tears_down :
    (∃ is p js q, Run Pool.Step (PortSessions.pool .start []) is p ∧
      p.shared.refused 1 = true ∧ 0 ∈ p.shared.mounts .patcher ∧
      p.shared.pid = some ⟨0, true⟩ ∧ Run (Pool.StepIn Second) p js q ∧
      (q.shared.port 0).child = true ∧ q.shared.mounts .patcher = [] ∧ q.shared.pid = none) ∧
    ∃ is p js q, Run Pool.Step (GuiSessions.pool .start []) is p ∧
      p.shared.refused 1 = true ∧ 0 ∈ p.shared.mounts .log ∧ Run (Pool.StepIn Second) p js q ∧
      (q.shared.gui 0).child = some 0 ∧ q.shared.mounts .log = [] := by
  constructor
  · obtain ⟨is, hrun⟩ := Pool.run_play portRefused (PortSessions.pool .start [])
    obtain ⟨js, hclean⟩ := Pool.run_playIn (C := Second) (List.replicate 6 (.run 1, 0))
      (Pool.play portRefused (PortSessions.pool .start []))
    exact ⟨is, _, js, _, hrun, by decide +kernel, by decide +kernel, by decide +kernel, hclean,
      by decide +kernel, by decide +kernel, by decide +kernel⟩
  · obtain ⟨is, hrun⟩ := Pool.run_play guiRefused (GuiSessions.pool .start [])
    obtain ⟨js, hclean⟩ := Pool.run_playIn (C := Second) (List.replicate 3 (.run 1, 0))
      (Pool.play guiRefused (GuiSessions.pool .start []))
    exact ⟨is, _, js, _, hrun, by decide +kernel, by decide +kernel, hclean, by decide +kernel,
      by decide +kernel⟩

end PlumosBubble.Launchers
