import PlumosBubble.Power.Overlay

/-! Who is thawed when the power menu has gone. What `hold_runtime` stopped is only known from
its state file, so a line or a file that is not written leaves a process stopped; and ending
the processes for a power action that then does not happen continues them too early. -/

namespace PlumosBubble.Power

variable {e : Setting} {p : ℕ} {trace before after : List Event} {file : Option (List Line)}

section Traces

/-- A process is as it was or has ended: it is continued, and if its DRM master was dropped
that is set before. -/
def Thawed (trace : List Event) (p : ℕ) : Prop :=
  .terminated p ∈ trace ∨ .continued p ∈ trace ∧
    (.dropped p ∈ trace → .masterSet p ∈ trace.takeWhile (· ≠ .continued p))

instance (trace : List Event) (p : ℕ) : Decidable (Thawed trace p) :=
  inferInstanceAs (Decidable (_ ∨ _))

theorem takeWhile_of_not_mem (h : .continued p ∉ before) :
    (before ++ after).takeWhile (· ≠ .continued p) =
      before ++ after.takeWhile (· ≠ .continued p) := by
  apply List.takeWhile_append_of_pos
  intro event hevent
  rw [decide_eq_true_eq]
  rintro rfl
  exact h hevent

theorem takeWhile_of_mem (h : .continued p ∈ before) :
    (before ++ after).takeWhile (· ≠ .continued p) = before.takeWhile (· ≠ .continued p) := by
  induction before with
  | nil => cases h
  | cons event events ih =>
    rw [List.cons_append, List.takeWhile_cons, List.takeWhile_cons]
    by_cases heq : event = .continued p
    · simp [heq]
    · have hmem : .continued p ∈ events := by
        rcases List.mem_cons.mp h with hfirst | hrest
        · exact absurd hfirst.symm heq
        · exact hrest
      rw [ih hmem]

theorem mem_signalAll {fate : ℕ → Fate} {pids : List ℕ} {event : Event} :
    event ∈ signalAll fate pids ↔ ∃ q ∈ pids, event = .continued q ∨
      fate q ≠ .survives ∧ event = .terminated q := by
  have hfate : ∀ q, fate q ≠ .survives ↔ fate q = .diesOfTerm ∨ fate q = .diesOfKill := by
    intro q
    cases fate q <;> simp
  unfold signalAll
  simp only [List.mem_append, List.mem_map, List.mem_filter, decide_eq_true_eq, hfate]
  constructor
  · rintro ((⟨q, hq, rfl⟩ | ⟨q, ⟨hq, hf⟩, rfl⟩) | ⟨q, ⟨hq, hf⟩, rfl⟩)
    · exact ⟨q, hq, Or.inl rfl⟩
    · exact ⟨q, hq, Or.inr ⟨Or.inl hf, rfl⟩⟩
    · exact ⟨q, hq, Or.inr ⟨Or.inr hf, rfl⟩⟩
  · rintro ⟨q, hq, rfl | ⟨hf | hf, rfl⟩⟩
    · exact Or.inl (Or.inl ⟨q, hq, rfl⟩)
    · exact Or.inl (Or.inr ⟨q, ⟨hq, hf⟩, rfl⟩)
    · exact Or.inr ⟨q, ⟨hq, hf⟩, rfl⟩

theorem isLive_iff : isLive trace p = true ↔ .terminated p ∉ trace := by
  simp [isLive]

theorem mem_setMasters {lines : List Line} {event : Event} :
    event ∈ setMasters e trace lines ↔ ∃ q, .master q ∈ lines ∧ isPid q = true ∧
      e.drmHelper = true ∧ .terminated q ∉ trace ∧ event = .masterSet q := by
  unfold setMasters
  rw [List.mem_filterMap]
  constructor
  · rintro ⟨line, hline, hevent⟩
    cases line with
    | pid q => cases hevent
    | master q =>
      simp only [Option.ite_none_right_eq_some, Bool.and_eq_true, isLive_iff] at hevent
      obtain ⟨⟨⟨hpid, hhelper⟩, hlive⟩, heq⟩ := hevent
      cases heq
      exact ⟨q, hline, hpid, hhelper, hlive, rfl⟩
  · rintro ⟨q, hline, hpid, hhelper, hlive, rfl⟩
    refine ⟨.master q, hline, ?_⟩
    simp [hpid, hhelper, isLive_iff.mpr hlive]

theorem mem_continueAll {lines : List Line} {event : Event} :
    event ∈ continueAll trace lines ↔ ∃ q, .pid q ∈ lines ∧ isPid q = true ∧
      .terminated q ∉ trace ∧ event = .continued q := by
  unfold continueAll
  rw [List.mem_filterMap]
  constructor
  · rintro ⟨line, hline, hevent⟩
    cases line with
    | master q => cases hevent
    | pid q =>
      simp only [Option.ite_none_right_eq_some, Bool.and_eq_true, isLive_iff] at hevent
      obtain ⟨⟨hpid, hlive⟩, heq⟩ := hevent
      cases heq
      exact ⟨q, hline, hpid, hlive, rfl⟩
  · rintro ⟨q, hline, hpid, hlive, rfl⟩
    refine ⟨.pid q, hline, ?_⟩
    simp [hpid, isLive_iff.mpr hlive]

theorem thawed_release (hpid : isPid p = true) (hcontinued : .continued p ∉ before)
    (hset : .masterSet p ∉ before) (hlive : .terminated p ∉ before) :
    Thawed (before ++ releaseRuntime e before file) p ↔ ∃ lines, file = some lines ∧
      .pid p ∈ lines ∧ (.dropped p ∈ before → e.drmHelper = true ∧ .master p ∈ lines) := by
  cases file with
  | none => simp [Thawed, releaseRuntime, hcontinued, hlive]
  | some lines =>
    have hsets : .continued p ∉ setMasters e before lines := by
      simp [mem_setMasters]
    have hgone : .terminated p ∉ releaseRuntime e before (some lines) := by
      simp [releaseRuntime, mem_setMasters, mem_continueAll]
    have hdropped : .dropped p ∉ releaseRuntime e before (some lines) := by
      simp [releaseRuntime, mem_setMasters, mem_continueAll]
    have hprefix : .masterSet p ∈
        (before ++ releaseRuntime e before (some lines)).takeWhile (· ≠ .continued p) ↔
        .masterSet p ∈ setMasters e before lines := by
      rw [takeWhile_of_not_mem hcontinued, List.mem_append]
      unfold releaseRuntime
      rw [takeWhile_of_not_mem hsets, List.mem_append]
      have hrest : .masterSet p ∉
          (continueAll before lines).takeWhile (· ≠ .continued p) := by
        intro hmem
        have hmem' := (List.takeWhile_subset _) hmem
        simp [mem_continueAll] at hmem'
      constructor
      · rintro (hmem | hmem | hmem)
        · exact absurd hmem hset
        · exact hmem
        · exact absurd hmem hrest
      · exact fun hmem => Or.inr (Or.inl hmem)
    have hcont : .continued p ∈ before ++ releaseRuntime e before (some lines) ↔
        .pid p ∈ lines := by
      simp [releaseRuntime, hcontinued, mem_setMasters, mem_continueAll, hpid, hlive]
    have hmaster : .masterSet p ∈ setMasters e before lines ↔
        e.drmHelper = true ∧ .master p ∈ lines := by
      simp only [mem_setMasters, Event.masterSet.injEq]
      constructor
      · rintro ⟨q, hline, -, hhelper, -, rfl⟩
        exact ⟨hhelper, hline⟩
      · rintro ⟨hhelper, hline⟩
        exact ⟨p, hline, hpid, hhelper, hlive, rfl⟩
    unfold Thawed
    rw [hcont, hprefix, hmaster, List.mem_append, List.mem_append]
    simp [hlive, hgone, hdropped]

theorem thawed_of_early_continue (hset : .masterSet p ∉ before) (hcontinued : .continued p ∈ before)
    (hlive : .terminated p ∉ before ++ after) (hdropped : .dropped p ∉ after) :
    Thawed (before ++ after) p ↔ .dropped p ∉ before := by
  have hprefix : .masterSet p ∉ (before ++ after).takeWhile (· ≠ .continued p) := by
    rw [takeWhile_of_mem hcontinued]
    exact fun hmem => hset ((List.takeWhile_subset _) hmem)
  have hcont : .continued p ∈ before ++ after := List.mem_append_left _ hcontinued
  unfold Thawed
  simp only [hlive, hcont, hprefix, List.mem_append, hdropped]
  simp

end Traces

section Conditions

/-- The state file is there and says what happened to the process. -/
def Recorded (e : Setting) (p : ℕ) : Prop :=
  e.renameOk = true ∧ e.pidWritten p = true ∧ (Dropped e p → e.masterWritten p = true)

/-- The run gets to `hold_runtime`. -/
def HoldRuns (e : Setting) : Prop := e.toolsPresent = true ∧ e.signal ≠ some .beforeHold

/-- The run gets to `terminate`. -/
def TerminateRuns (e : Setting) : Prop :=
  (holdRuntime e).ok = true ∧ e.signal ≠ some .afterHold ∧ e.signal ≠ some .afterMenu ∧
    (e.selection = .reboot ∨ e.selection = .shutdown)

/-- The process is in the foreground group and ends with it. -/
def DiesInGroup (e : Setting) (p : ℕ) : Prop := p ∈ e.group ∧ e.groupFate p ≠ .survives

/-- It is one of the recorded processes that `terminate` may end. -/
def Listed (e : Setting) (p : ℕ) : Prop :=
  Stopped e p ∧ e.pidWritten p = true ∧ e.excluded p = false

def Dies (e : Setting) (p : ℕ) : Prop :=
  DiesInGroup e p ∨ Listed e p ∧ e.listFate p ≠ .survives

/-- Some process does not end when it is told to, so the power action is refused. -/
def SomeSurvives (e : Setting) : Prop :=
  (∃ q ∈ e.group, e.groupFate q = .survives) ∨
    ∃ q, Listed e q ∧ ¬ DiesInGroup e q ∧ e.listFate q = .survives

/-- What has to be so for a stopped process. -/
def Thaws (e : Setting) (p : ℕ) : Prop :=
  (TerminateRuns e → Dies e p ∨ SomeSurvives e ∧ ((p ∈ e.group ∨ Listed e p) ∧ ¬ Dropped e p ∨
    ¬ (p ∈ e.group ∨ Listed e p) ∧ Recorded e p)) ∧
      (¬ TerminateRuns e → Recorded e p)

end Conditions

section Terminate

theorem isPid_of_stopped (h : Stopped e p) : isPid p = true := by
  have hstops := h.2.2
  unfold stops at hstops
  simp only [Bool.and_eq_true] at hstops
  exact hstops.1.1.1

theorem mem_statePids : p ∈ statePids file ↔ ∃ lines, file = some lines ∧ .pid p ∈ lines := by
  unfold statePids
  rw [List.mem_filterMap]
  cases file with
  | none => simp
  | some lines =>
    constructor
    · rintro ⟨line, hline, heq⟩
      cases line with
      | pid q =>
        cases heq
        exact ⟨lines, rfl, hline⟩
      | master q => cases heq
    · rintro ⟨_, heq, hline⟩
      cases heq
      exact ⟨.pid p, hline, rfl⟩

theorem hold_file (hok : (holdRuntime e).ok = true) :
    ∃ lines, (holdRuntime e).file = some lines := by
  unfold holdRuntime at hok ⊢
  by_cases h : (e.mkdirOk && e.createOk) = true
  · rw [if_pos h] at hok ⊢
    simp only at hok
    exact ⟨_, if_pos hok⟩
  · rw [if_neg h] at hok
    cases hok

/-- The processes that `terminate_pid_list` signals. -/
theorem mem_collected (hok : (holdRuntime e).ok = true) :
    p ∈ collectPids e ((holdRuntime e).trace ++ (terminateGroup e).1)
        (statePids (holdRuntime e).file) ↔ Listed e p ∧ ¬ DiesInGroup e p := by
  obtain ⟨lines, hlines⟩ := hold_file hok
  have hlive : .terminated p ∉ (holdRuntime e).trace ++ (terminateGroup e).1 ↔
      ¬ DiesInGroup e p := by
    rw [List.mem_append]
    simp only [hold_quiet.2.1, terminateGroup, mem_signalAll, DiesInGroup, false_or]
    simp
  have hpid : p ∈ statePids (holdRuntime e).file ↔ Stopped e p ∧ e.pidWritten p = true := by
    rw [mem_statePids, ← (mem_hold_file hlines).1]
    simp [hlines]
  unfold collectPids
  rw [List.mem_dedup, List.mem_filter]
  simp only [Bool.and_eq_true, Bool.not_eq_true', isLive_iff, hlive, hpid, Listed]
  constructor
  · rintro ⟨⟨hs, hw⟩, ⟨-, hex⟩, hgroup⟩
    exact ⟨⟨hs, hw, hex⟩, hgroup⟩
  · rintro ⟨⟨hs, hw, hex⟩, hgroup⟩
    exact ⟨⟨hs, hw⟩, ⟨isPid_of_stopped hs, hex⟩, hgroup⟩

/-- What `terminate` does, to whom, and whether it succeeds. -/
theorem terminateActive_spec (hok : (holdRuntime e).ok = true) :
    (∀ q, .continued q ∈ (terminateActive e (holdRuntime e).trace (holdRuntime e).file).1 ↔
      q ∈ e.group ∨ Listed e q ∧ ¬ DiesInGroup e q) ∧
    (∀ q, .terminated q ∈ (terminateActive e (holdRuntime e).trace (holdRuntime e).file).1 ↔
      Dies e q) ∧
    (∀ q, .masterSet q ∉ (terminateActive e (holdRuntime e).trace (holdRuntime e).file).1 ∧
      .dropped q ∉ (terminateActive e (holdRuntime e).trace (holdRuntime e).file).1 ∧
      .stopped q ∉ (terminateActive e (holdRuntime e).trace (holdRuntime e).file).1) ∧
    (SomeSurvives e → (terminateActive e (holdRuntime e).trace (holdRuntime e).file).2 =
      ((holdRuntime e).file, false)) ∧
    (¬ SomeSurvives e → (terminateActive e (holdRuntime e).trace (holdRuntime e).file).2 =
      (none, true)) := by
  have hfirst : (terminateActive e (holdRuntime e).trace (holdRuntime e).file).1 =
      signalAll e.groupFate e.group ++ signalAll e.listFate
        (collectPids e ((holdRuntime e).trace ++ (terminateGroup e).1)
          (statePids (holdRuntime e).file)) := by
    unfold terminateActive
    dsimp only
    split <;> rfl
  have hsuccess : ((terminateGroup e).2 && (terminatePidList e ((holdRuntime e).trace ++
      (terminateGroup e).1) (statePids (holdRuntime e).file)).2) = true ↔ ¬ SomeSurvives e := by
    simp only [terminateGroup, terminatePidList, survivor, Bool.and_eq_true, Bool.not_eq_true',
      List.any_eq_false, decide_eq_true_eq, SomeSurvives, not_or]
    apply and_congr
    · simp
    · constructor
      · rintro hall ⟨q, hlisted, hgroup, hfate⟩
        exact hall q ((mem_collected hok).mpr ⟨hlisted, hgroup⟩) hfate
      · intro hnone q hq hfate
        obtain ⟨hlisted, hgroup⟩ := (mem_collected hok).mp hq
        exact hnone ⟨q, hlisted, hgroup, hfate⟩
  refine ⟨?_, ?_, ?_, ?_, ?_⟩
  · intro q
    rw [hfirst, List.mem_append, mem_signalAll, mem_signalAll]
    simp only [mem_collected hok, Event.continued.injEq, reduceCtorEq, and_false, or_false,
      exists_eq_right']
  · intro q
    rw [hfirst, List.mem_append, mem_signalAll, mem_signalAll]
    simp only [mem_collected hok, Event.terminated.injEq, reduceCtorEq, false_or, Dies]
    constructor
    · rintro (⟨r, hr, hfate, rfl⟩ | ⟨r, ⟨hlisted, -⟩, hfate, rfl⟩)
      · exact Or.inl ⟨hr, hfate⟩
      · exact Or.inr ⟨hlisted, hfate⟩
    · intro hdies
      by_cases hgroup : DiesInGroup e q
      · exact Or.inl ⟨q, hgroup.1, hgroup.2, rfl⟩
      · obtain ⟨hlisted, hfate⟩ := hdies.resolve_left hgroup
        exact Or.inr ⟨q, ⟨hlisted, hgroup⟩, hfate, rfl⟩
  · intro q
    rw [hfirst]
    simp [List.mem_append, mem_signalAll]
  · intro hsome
    unfold terminateActive
    dsimp only
    rw [if_neg (fun h => hsuccess.mp h hsome)]
  · intro hnone
    unfold terminateActive
    dsimp only
    rw [if_pos (hsuccess.mpr hnone)]

end Terminate

section Runs

theorem dropped_helper (h : Dropped e p) : e.drmHelper = true := by
  have hdrops := h.2
  unfold drops at hdrops
  simp only [Bool.and_eq_true] at hdrops
  exact hdrops.1.2

theorem hold_file_iff (hs : Stopped e p) :
    (∃ lines, (holdRuntime e).file = some lines) ↔ e.renameOk = true := by
  rw [holdRuntime_of_ok hs.1]
  by_cases hrename : e.renameOk = true
  · simp [hrename]
  · simp [hrename]

/-- What a release finds in the file of `hold_runtime`. -/
theorem file_lines_iff (hs : Stopped e p) :
    (∃ lines, (holdRuntime e).file = some lines ∧ .pid p ∈ lines ∧
      (Dropped e p → e.drmHelper = true ∧ .master p ∈ lines)) ↔ Recorded e p := by
  constructor
  · rintro ⟨lines, hfile, hpid, hmaster⟩
    have hlines := @mem_hold_file e p lines hfile
    exact ⟨(hold_file_iff hs).mp ⟨lines, hfile⟩, (hlines.1.mp hpid).2,
      fun hd => (hlines.2.mp (hmaster hd).2).2⟩
  · rintro ⟨hrename, hpid, hmaster⟩
    obtain ⟨lines, hfile⟩ := (hold_file_iff hs).mpr hrename
    have hlines := @mem_hold_file e p lines hfile
    exact ⟨lines, hfile, hlines.1.mpr ⟨hs, hpid⟩,
      fun hd => ⟨dropped_helper hd, hlines.2.mpr ⟨hd, hmaster hd⟩⟩⟩

theorem thawed_of_hold (hs : Stopped e p) :
    Thawed ((holdRuntime e).trace ++ releaseRuntime e (holdRuntime e).trace (holdRuntime e).file) p
      ↔ Recorded e p := by
  rw [thawed_release (isPid_of_stopped hs) hold_quiet.1 hold_quiet.2.2 hold_quiet.2.1,
    ← file_lines_iff hs]
  simp only [mem_hold_dropped]

theorem stopped_release_iff (file : Option (List Line)) :
    .stopped p ∈ before ++ releaseRuntime e before file ↔ .stopped p ∈ before := by
  rw [List.mem_append]
  cases file with
  | none => simp [releaseRuntime]
  | some lines => simp [releaseRuntime, mem_setMasters, mem_continueAll]

theorem leaveBy_thaws_iff (hno : ¬ TerminateRuns e) :
    (∀ p, .stopped p ∈ (leaveBy e (holdRuntime e).trace (holdRuntime e).file).trace →
      Thawed (leaveBy e (holdRuntime e).trace (holdRuntime e).file).trace p) ↔
      ∀ p, Stopped e p → Thaws e p := by
  apply forall_congr'
  intro p
  unfold leaveBy
  dsimp only
  rw [stopped_release_iff, mem_hold_stopped]
  apply imp_congr_right
  intro hs
  rw [thawed_of_hold hs]
  exact ⟨fun h => ⟨fun hruns => absurd hruns hno, fun _ => h⟩, fun h => h.2 hno⟩

variable {ended : List Event}

/-- Nothing but the file matters for a process that `terminate` does not signal. -/
theorem thawed_of_unsignalled (hs : Stopped e p) (hcontinued : .continued p ∉ ended)
    (hterminated : .terminated p ∉ ended) (hset : .masterSet p ∉ ended)
    (hdropped : .dropped p ∉ ended) :
    Thawed ((holdRuntime e).trace ++ ended ++
      releaseRuntime e ((holdRuntime e).trace ++ ended) (holdRuntime e).file) p ↔
      Recorded e p := by
  have hquiet := @hold_quiet e p
  rw [thawed_release (isPid_of_stopped hs), ← file_lines_iff hs]
  · simp only [List.mem_append, mem_hold_dropped, hdropped, or_false]
  · simp [hquiet.1, hcontinued]
  · simp [hquiet.2.2, hset]
  · simp [hquiet.2.1, hterminated]

/-- A process that survives was continued by `terminate`, before anything else. -/
theorem thawed_of_survivor (hcontinued : .continued p ∈ ended)
    (hterminated : .terminated p ∉ ended) (hset : .masterSet p ∉ ended)
    (hdropped : .dropped p ∉ ended) :
    Thawed ((holdRuntime e).trace ++ ended ++
      releaseRuntime e ((holdRuntime e).trace ++ ended) (holdRuntime e).file) p ↔
      ¬ Dropped e p := by
  have hquiet := @hold_quiet e p
  have hafter : .terminated p ∉ releaseRuntime e ((holdRuntime e).trace ++ ended)
        (holdRuntime e).file ∧
      .dropped p ∉ releaseRuntime e ((holdRuntime e).trace ++ ended) (holdRuntime e).file := by
    cases (holdRuntime e).file with
    | none => simp [releaseRuntime]
    | some lines => simp [releaseRuntime, mem_setMasters, mem_continueAll]
  rw [thawed_of_early_continue]
  · simp only [List.mem_append, mem_hold_dropped, hdropped, or_false]
  · simp [hquiet.2.2, hset]
  · exact List.mem_append_right _ hcontinued
  · simp [hquiet.2.1, hterminated, hafter.1]
  · exact hafter.2

theorem terminalAction_thaws_iff (hruns : TerminateRuns e) :
    (∀ p, .stopped p ∈ (terminalAction e (holdRuntime e)).trace →
      Thawed (terminalAction e (holdRuntime e)).trace p) ↔ ∀ p, Stopped e p → Thaws e p := by
  obtain ⟨hcontinued, hterminated, hothers, hfails, hsucceeds⟩ := terminateActive_spec hruns.1
  generalize hended : (terminateActive e (holdRuntime e).trace (holdRuntime e).file).1 = ended
    at hcontinued hterminated hothers
  by_cases hsome : SomeSurvives e
  · have htrace : (terminalAction e (holdRuntime e)).trace = (holdRuntime e).trace ++ ended ++
        releaseRuntime e ((holdRuntime e).trace ++ ended) (holdRuntime e).file := by
      unfold terminalAction leaveBy
      dsimp only
      rw [hfails hsome, hended]
      rfl
    apply forall_congr'
    intro p
    rw [htrace, stopped_release_iff, List.mem_append, mem_hold_stopped]
    simp only [(hothers p).2.2, or_false]
    apply imp_congr_right
    intro hs
    have hthaws : Thaws e p ↔ Dies e p ∨ ((p ∈ e.group ∨ Listed e p) ∧ ¬ Dropped e p ∨
        ¬ (p ∈ e.group ∨ Listed e p) ∧ Recorded e p) :=
      ⟨fun h => (h.1 hruns).imp_right And.right,
        fun h => ⟨fun _ => h.imp_right fun h' => ⟨hsome, h'⟩, fun hno => absurd hruns hno⟩⟩
    rw [hthaws]
    by_cases hdies : Dies e p
    · have hmem : .terminated p ∈ (holdRuntime e).trace ++ ended ++
          releaseRuntime e ((holdRuntime e).trace ++ ended) (holdRuntime e).file :=
        List.mem_append_left _ (List.mem_append_right _ ((hterminated p).mpr hdies))
      exact ⟨fun _ => Or.inl hdies, fun _ => Or.inl hmem⟩
    · have hlive : .terminated p ∉ ended := fun h => hdies ((hterminated p).mp h)
      have hgroup : ¬ DiesInGroup e p := fun h => hdies (Or.inl h)
      have hsignalled : .continued p ∈ ended ↔ p ∈ e.group ∨ Listed e p := by
        rw [hcontinued]
        simp [hgroup]
      by_cases hc : p ∈ e.group ∨ Listed e p
      · rw [thawed_of_survivor (hsignalled.mpr hc) hlive (hothers p).1 (hothers p).2.1]
        simp [hdies, hc]
      · rw [thawed_of_unsignalled hs (fun h => hc (hsignalled.mp h)) hlive (hothers p).1
          (hothers p).2.1]
        simp [hdies, hc]
  · have htrace : (terminalAction e (holdRuntime e)).trace = (holdRuntime e).trace ++ ended := by
      unfold terminalAction leaveBy
      dsimp only
      rw [hsucceeds hsome, hended]
      dsimp only
      rw [if_pos rfl]
      split
      · simp [releaseRuntime]
      · split
        · rfl
        · simp [releaseRuntime]
    apply forall_congr'
    intro p
    rw [htrace, List.mem_append, mem_hold_stopped]
    simp only [(hothers p).2.2, or_false]
    apply imp_congr_right
    intro hs
    have hthaws : Thaws e p ↔ Dies e p :=
      ⟨fun h => (h.1 hruns).resolve_right fun h' => hsome h'.1,
        fun h => ⟨fun _ => Or.inl h, fun hno => absurd hruns hno⟩⟩
    rw [hthaws]
    have hquiet := @hold_quiet e p
    -- whoever was signalled has ended
    have hcontinued' : .continued p ∈ ended → Dies e p := by
      intro hmem
      by_contra hdies
      apply hsome
      rcases (hcontinued p).mp hmem with hgroup | ⟨hlisted, hgroup⟩
      · refine Or.inl ⟨p, hgroup, ?_⟩
        by_contra hfate
        exact hdies (Or.inl ⟨hgroup, hfate⟩)
      · refine Or.inr ⟨p, hlisted, hgroup, ?_⟩
        by_contra hfate
        exact hdies (Or.inr ⟨hlisted, hfate⟩)
    unfold Thawed
    simp only [List.mem_append, hquiet.1, hquiet.2.1, false_or, hterminated]
    constructor
    · rintro (hdies | ⟨hmem, -⟩)
      · exact hdies
      · exact hcontinued' hmem
    · exact Or.inl

/-- When the overlay has gone, with its action committed or not, every process that it stopped
is thawed exactly if each of them is as `Thaws` says. -/
theorem overlay_thaws_iff (e : Setting) :
    (∀ p, .stopped p ∈ (overlay e).trace → Thawed (overlay e).trace p) ↔
      (HoldRuns e → ∀ p, Stopped e p → Thaws e p) := by
  by_cases hholds : HoldRuns e
  · have hearly : ¬ (e.toolsPresent = false ∨ e.signal = some .beforeHold) := by
      rintro (htools | hsignal)
      · rw [hholds.1] at htools
        cases htools
      · exact hholds.2 hsignal
    rw [show (HoldRuns e → ∀ p, Stopped e p → Thaws e p) ↔ ∀ p, Stopped e p → Thaws e p from
      ⟨fun h => h hholds, fun h _ => h⟩]
    unfold overlay
    rw [if_neg hearly]
    dsimp only
    by_cases hrelease : (holdRuntime e).ok = false ∨ e.signal = some .afterHold ∨
        e.signal = some .afterMenu
    · rw [if_pos hrelease]
      apply leaveBy_thaws_iff
      rintro ⟨hok, hhold, hmenu, -⟩
      rcases hrelease with hfailed | hsignal | hsignal
      · rw [hok] at hfailed
        cases hfailed
      · exact hhold hsignal
      · exact hmenu hsignal
    · rw [if_neg hrelease]
      obtain ⟨hok, hsignals⟩ := not_or.mp hrelease
      obtain ⟨hhold, hmenu⟩ := not_or.mp hsignals
      have hruns : e.selection = .reboot ∨ e.selection = .shutdown → TerminateRuns e :=
        fun hselection => ⟨by simpa using hok, hhold, hmenu, hselection⟩
      have hno : e.selection ≠ .reboot → e.selection ≠ .shutdown → ¬ TerminateRuns e :=
        fun hreboot hshutdown h => h.2.2.2.elim hreboot hshutdown
      cases hselection : e.selection with
      | reboot => exact terminalAction_thaws_iff (hruns (Or.inl hselection))
      | shutdown => exact terminalAction_thaws_iff (hruns (Or.inr hselection))
      | sleep => exact leaveBy_thaws_iff (hno (by simp [hselection]) (by simp [hselection]))
      | cancel => exact leaveBy_thaws_iff (hno (by simp [hselection]) (by simp [hselection]))
      | ignored => exact leaveBy_thaws_iff (hno (by simp [hselection]) (by simp [hselection]))
  · have hearly : e.toolsPresent = false ∨ e.signal = some .beforeHold := by
      by_contra hno
      obtain ⟨htools, hsignal⟩ := not_or.mp hno
      exact hholds ⟨by simpa using htools, hsignal⟩
    have htrace : (overlay e).trace = [] := by
      unfold overlay
      rw [if_pos hearly]
      rfl
    rw [htrace]
    simp [hholds]

/-- One process owns the display; it is stopped, the append to the state file fails, and the
menu is cancelled. -/
def unwrittenSetting : Setting where
  owners := [100]
  owners_nodup := by decide
  self := 50
  parent := 49
  drmHelper := true
  toolsPresent := true
  mkdirOk := true
  createOk := true
  renameOk := true
  stopOk _ := true
  dropOk _ := true
  pidWritten _ := false
  masterWritten _ := true
  signal := none
  selection := .cancel
  group := []
  groupFate _ := .diesOfTerm
  listFate _ := .diesOfTerm
  excluded _ := false
  actionOk := true

theorem overlay_leaves_stopped :
    ¬ ∀ e : Setting, (overlay e).committed = false →
      ∀ p, .stopped p ∈ (overlay e).trace → Thawed (overlay e).trace p := by
  intro hclaim
  have hfrozen : ¬ Thawed (overlay unwrittenSetting).trace 100 := by decide
  exact hfrozen (hclaim unwrittenSetting (by decide) 100 (by decide))

end Runs

end PlumosBubble.Power
