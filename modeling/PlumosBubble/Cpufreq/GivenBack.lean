import PlumosBubble.Cpufreq.Commands

/-! The governors are given back: what the handlers and the exit traps of the launchers do, what
the launchers do, and what holds in every run of careful events. -/

namespace PlumosBubble.Cpufreq

open Scripts Transition Cpus

variable {N G : Type} [DecidableEq N] [DecidableEq G]

/-- Whatever a signal leaves true is kept by the handlers, `n` signals at most. -/
def Guards (x : Setup N G) (initial : N → G) (i n : ℕ) : Prop :=
  ∀ A, Allowed x i A → Guarded x initial i n A

section Exit

variable {x : Setup N G} {initial : N → G} {i n : ℕ} {A : Fact N G}

omit [DecidableEq N] [DecidableEq G] in
theorem restorable_free : Restorable (Fact.free : Fact N G) :=
  ⟨fun _ h => h, fun _ h => h, fun _ h => h, fun _ h => h⟩

/-- `restore_cpu_policy` where no program is there. -/
theorem does_restore (hg : Guards x initial i n) (hfree : ∀ c, A.holds c → c.program = false) :
    Does x initial i n A (restoreCpuPolicy x i) fun _ => .clear :=
  (does_restoreCpuPolicy restorable_free (hg _ allowed_free) (hg _ (allowed_free.and steady_held))
    (hg _ (allowed_free.and steady_clear))).weaken (fun c _ h => hfree c h) fun _ _ h => h.2

theorem does_set {f : Cell N G → Cell N G} {B : Fact N G} (hsig : Guarded x initial i n A)
    (hf : ∀ c, (f c).applied = c.applied ∧ (f c).snapshotActive = c.snapshotActive ∧
      (f c).saved = c.saved ∧ (f c).before = c.before ∧
      ((f c).program = false → c.program = false))
    (hB : ∀ c, A.holds c → B.holds (f c)) : Does x initial i n A (assign i f) fun _ => B := by
  apply does_assign hsig
  intro c hok hA
  obtain ⟨happlied, hactive, hsaved, hbefore, hprogram⟩ := hf c
  exact ⟨harmless hok happlied hactive hsaved hbefore hprogram, hB c hA⟩

theorem does_endChild (exit : Sh N G Unit) (hg : Guards x initial i n) (turns : ℕ) :
    Does x initial i n (.known x i) (endChild i exit turns) fun _ => .free := by
  have hsig := hg _ (allowed_known (x := x) (i := i))
  refine does_bind (does_killTerm hsig) fun _ => ?_
  refine does_bind (does_waitGone exit allowed_known.base hsig
    (hg _ (allowed_known.and steady_quiet)) turns) fun _ => ?_
  exact (does_killProgram hsig).weaken (fun _ _ h => h) fun _ _ h => h.2

omit [DecidableEq N] [DecidableEq G] in
theorem free_of_known {c : Cell N G} (h : (Fact.known x i).holds c)
    (hno : c.childPid = false ∨ c.program = false) : c.program = false := by
  rcases hno with hpid | hfree
  · by_contra hthere
    cases hpid.symm.trans (h (Bool.not_eq_false _ ▸ hthere)).1
  · exact hfree

theorem does_forgetPid (hg : Guards x initial i n) :
    Does x initial i n .free (assign i fun c => { c with childPid := false }) fun _ => .free :=
  does_set (hg _ allowed_free) (fun _ => ⟨rfl, rfl, rfl, rfl, id⟩) fun _ h => h

theorem does_killGgfe (hg : Guards x initial i n) :
    Does x initial i n (.known x i) (killGgfe i) fun _ => .free := by
  refine does_bind (Q := fun child => if child then .known x i else .free)
    (does_ask (hg _ allowed_known) ?_) fun child => ?_
  · intro c _ h
    cases hpid : c.childPid with
    | true => exact h
    | false => exact free_of_known h (Or.inl hpid)
  · cases child with
    | true => exact does_bind (does_endChild (die i) hg 10) fun _ => does_forgetPid hg
    | false => exact does_pure () fun _ h => h

/-- `kill -0` finds the program, or it is not there. -/
theorem does_askChild (hg : Guards x initial i n) :
    Does x initial i n (.known x i) (ask i fun c => c.childPid && c.program)
      fun child => if child then .known x i else .free := by
  apply does_ask (hg _ allowed_known)
  intro c _ h
  cases hpid : c.childPid with
  | false => exact free_of_known h (Or.inl hpid)
  | true =>
    cases hthere : c.program with
    | false => exact hthere
    | true => exact h

theorem does_killRetroarch (exit : Sh N G Unit) (hg : Guards x initial i n) :
    Does x initial i n (.known x i) (killRetroarch i exit) fun _ => .free := by
  refine does_bind (does_askChild hg) fun child => ?_
  cases child with
  | true => exact does_endChild exit hg 50
  | false => exact does_pure () fun _ h => h

theorem does_killPpsspp (hg : Guards x initial i n) :
    Does x initial i n (.known x i) (killPpsspp i) fun _ => .free := by
  refine does_bind (does_askChild hg) fun child => ?_
  cases child with
  | true =>
    refine does_bind (does_killTerm (hg _ allowed_known)) fun _ => ?_
    exact (does_waitKilled (hg _ allowed_known)).weaken (fun _ _ h => h) fun _ _ h => h.2
  | false => exact does_pure () fun _ h => h

theorem does_restorePpssppRuntime (hg : Guards x initial i n) :
    Does x initial i n (.known x i) (restorePpssppRuntime x i) fun _ => .clear :=
  does_bind (does_killPpsspp hg) fun _ => does_bind (does_forgetPid hg) fun _ =>
    does_restore hg fun _ h => h

theorem does_clearTraps (hsig : Guarded x initial i n A)
    (hA : ∀ c, A.holds c → A.holds { c with exitTrap := false, traps := fun _ => false }) :
    Does x initial i n A (clearTraps i) fun _ => A :=
  does_set hsig (fun _ => ⟨rfl, rfl, rfl, rfl, id⟩) hA

theorem does_cleanupGgfe (hg : Guards x initial i n) (Q : Unit → Fact N G) :
    Does x initial i n (.known x i) (cleanupGgfe x i) Q := by
  refine does_bind (does_clearTraps (hg _ allowed_known) fun _ h => h) fun _ => ?_
  refine does_bind (does_killGgfe hg) fun _ => ?_
  refine does_bind (does_restore hg fun _ h => h) fun _ => ?_
  exact does_die (hg _ allowed_clear) (fun _ h => h) Q

/-- How a script ends whose command fails. -/
def Ends (x : Setup N G) (initial : N → G) (i n : ℕ) (A : Fact N G) (exit : Sh N G Unit) : Prop :=
  ∃ D, (∀ c, A.holds c → c.errexit = true → (c.applied = true → c.exitTrap = true) →
    D.holds { c with failures := c.failures + 1 }) ∧ Does x initial i n D exit fun _ => .none

theorem does_command {exit : Sh N G Unit} (hsig : Guarded x initial i n A)
    (hends : Ends x initial i n A exit) : Does x initial i n A (simple i exit) fun _ => A := by
  obtain ⟨D, hfail, hexit⟩ := hends
  exact does_simple hsig hfail hexit

theorem does_commands {exit : Sh N G Unit} (hsig : Guarded x initial i n A)
    (hends : Ends x initial i n A exit) (k : ℕ) :
    Does x initial i n A (simples i exit k) fun _ => A := by
  obtain ⟨D, hfail, hexit⟩ := hends
  exact does_simples hsig hfail hexit k

theorem does_cleanup {exit : Sh N G Unit} (hg : Guards x initial i n)
    (hsig : Guarded x initial i n A) (hfree : ∀ c, A.holds c → c.program = false)
    (hends : Ends x initial i n A exit) :
    Does x initial i n A (cleanup x i exit) fun _ => .clear :=
  does_bind (does_command hsig hends) fun _ => does_restore hg hfree

theorem does_restoreDrasticRuntime {exit : Sh N G Unit} (hg : Guards x initial i n)
    (hsig : Guarded x initial i n A) (hfree : ∀ c, A.holds c → c.program = false)
    (hrunner : ∀ c, A.holds c → A.holds { c with runnerPid := false })
    (hends : Ends x initial i n A exit) :
    Does x initial i n A (restoreDrasticRuntime x i exit) fun _ => .clear := by
  refine does_bind (Q := fun _ => A) (does_bind (Q := fun _ => A) ?_ fun runner => ?_) fun _ => ?_
  · exact does_ask hsig fun _ _ h => h
  · cases runner with
    | true => exact does_perhaps hsig (does_commands hsig hends 20)
    | false => exact does_pure () fun _ h => h
  · refine does_bind (does_set hsig (fun _ => ⟨rfl, rfl, rfl, rfl, id⟩) hrunner) fun _ => ?_
    exact does_bind (does_command hsig hends) fun _ => does_restore hg hfree

theorem does_restoreRuntime {exit : Sh N G Unit} (emulator : Emulator)
    (hg : Guards x initial i n) (hsig : Guarded x initial i n A)
    (hfree : ∀ c, A.holds c → c.program = false)
    (hrunner : ∀ c, A.holds c → A.holds { c with runnerPid := false })
    (hends : Ends x initial i n A exit) :
    Does x initial i n A (restoreRuntime x i exit emulator) fun _ => .clear := by
  cases emulator with
  | drastic => exact does_restoreDrasticRuntime hg hsig hfree hrunner hends
  | _ => exact does_restore hg hfree

omit [DecidableEq N] [DecidableEq G] in
/-- No program is there, and no exit trap. -/
def bare : Fact N G where
  holds c := c.program = false ∧ c.exitTrap = false
  ended _ h := ⟨rfl, h.2⟩

omit [DecidableEq N] [DecidableEq G] in
theorem allowed_bare : Allowed x i (bare : Fact N G) := by
  refine allowed_of_free (fun _ h => h.1) fun c c' h hc => ?_
  cases hc with
  | kill => exact ⟨rfl, h.2⟩
  | _ => exact h

theorem ends_die (hg : Guards x initial i n) : Ends x initial i n bare (die i) := by
  refine ⟨.clear, fun c h _ htrap => ⟨h.1, ?_⟩, does_die (hg _ allowed_clear) (fun _ h => h) _⟩
  by_contra happlied
  cases h.2.symm.trans (htrap (Bool.not_eq_false _ ▸ happlied))

theorem does_exitTrap (hg : Guards x initial i n) :
    Does x initial i n (.trapped x i) (exitTrap x i (x.launcher i)) fun _ => .clear := by
  have hfree : ∀ c : Cell N G, x.launcher i ≠ .standalone .ppsspp → (Fact.trapped x i).holds c →
      bare.holds c := by
    intro c hl h
    refine ⟨?_, h.2.1⟩
    by_contra hthere
    exact hl (h.1 (Bool.not_eq_false _ ▸ hthere)).1
  have hbare := hg _ (allowed_bare (x := x) (i := i))
  cases hl : x.launcher i with
  | retroarch =>
    exact (does_cleanup hg hbare (fun _ h => h.1) (ends_die hg)).weaken
      (fun c _ h => hfree c (by rw [hl]; exact fun h => by cases h) h) fun _ _ h => h
  | picoarch =>
    exact does_pure () fun c h => ⟨(hfree c (by rw [hl]; exact fun h => by cases h) h).1, h.2.2 hl⟩
  | ggfe =>
    refine (does_cleanupGgfe hg fun _ => .clear).weaken (fun c _ h hthere => ?_) fun _ _ h => h
    have hno := (hfree c (by rw [hl]; exact fun h => by cases h) h).1
    cases hthere.symm.trans hno
  | standalone emulator =>
    cases emulator with
    | ppsspp =>
      refine (does_restorePpssppRuntime hg).weaken (fun c _ h hthere => ?_) fun _ _ h => h
      exact ⟨(h.1 hthere).2.1, (h.1 hthere).2.2, by rw [hl]; rfl⟩
    | drastic =>
      exact (does_restoreDrasticRuntime hg hbare (fun _ h => h.1) (fun _ h => h)
        (ends_die hg)).weaken
        (fun c _ h => hfree c (by rw [hl]; exact fun h => by cases h) h) fun _ _ h => h
    | _ =>
      exact (does_restore (A := bare) hg fun _ h => h.1).weaken
        (fun c _ h => hfree c (by rw [hl]; exact fun h => by cases h) h) fun _ _ h => h

theorem does_exitNow (hg : Guards x initial i n) (Q : Unit → Fact N G) :
    Does x initial i n (.leaving x i) (exitNow x i) Q := by
  refine does_bind (Q := fun _ => .clear) (does_bind
    (Q := fun trapped => if trapped then .trapped x i else .clear) ?_ fun trapped => ?_) fun _ => ?_
  · apply does_run (hg _ allowed_leaving)
    intro t hinv hi hA o ho _
    rw [List.mem_singleton.mp ho]
    refine ⟨guar_harmless (f := fun c => { c with exitTrap := false }) hinv hi
      (harmless (hinv.cells i hi) rfl rfl rfl rfl id), hi, ?_⟩
    dsimp only
    rw [setCell_self]
    cases htrap : (t.cell i).exitTrap with
    | true =>
      refine ⟨fun hthere => ?_, rfl, fun hl => ?_⟩
      · obtain ⟨hl, hpid, herrexit, -⟩ := hA.1 hthere
        exact ⟨hl, hpid, herrexit⟩
      · by_contra happlied
        exact (hA.2 (Bool.not_eq_false _ ▸ happlied)).2 hl
    | false =>
      refine ⟨?_, ?_⟩
      · by_contra hthere
        cases htrap.symm.trans (hA.1 (Bool.not_eq_false _ ▸ hthere)).2.2.2
      · by_contra happlied
        cases htrap.symm.trans (hA.2 (Bool.not_eq_false _ ▸ happlied)).1
  · cases trapped with
    | true => exact does_exitTrap hg
    | false => exact does_pure () fun _ h => h
  · exact does_die (hg _ allowed_clear) (fun _ h => h) Q

omit [DecidableEq N] [DecidableEq G] in
theorem leaving_of_clear {c : Cell N G} (h : Fact.clear.holds c) : (Fact.leaving x i).holds c :=
  ⟨fun hthere => (by cases h.1.symm.trans hthere), fun happlied => by
    cases h.2.symm.trans happlied⟩

theorem ends_exitNow (hg : Guards x initial i n) (hA : Allowed x i A)
    (hpico : x.launcher i = .picoarch → ∀ c, A.holds c → c.applied = false) :
    Ends x initial i n A (exitNow x i) := by
  refine ⟨.leaving x i, fun c h herrexit htrap => ⟨fun hthere => ?_, fun happlied => ?_⟩,
    does_exitNow hg _⟩
  · cases herrexit.symm.trans (hA.base c h hthere).1
  · exact ⟨htrap happlied, fun hl => by cases (hpico hl c h).symm.trans happlied⟩

end Exit

section Handlers

variable {x : Setup N G} {initial : N → G} {i n : ℕ} {A : Fact N G}

/-- What is known where a signal comes to a launcher whose trap is set. -/
def hit (x : Setup N G) (i : ℕ) : Fact N G where
  holds c := (Fact.known x i).holds c ∧ ((∃ emulator, x.launcher i = .standalone emulator) →
    (c.program = true → c.exitTrap = true) ∧ (c.applied = true → c.exitTrap = true))
  ended _ h := ⟨(fun h => by cases h), fun hl => ⟨(fun h => by cases h), (h.2 hl).2⟩⟩

theorem does_signalTrap (hg : Guards x initial i n) (hl : x.launcher i ≠ .picoarch) :
    Does x initial i n (hit x i) (signalTrap x i (x.launcher i)) fun _ => .none := by
  have hexit : ∀ Q, Does x initial i n .clear (exitNow x i) Q := fun Q =>
    (does_exitNow hg Q).weaken (fun _ _ h => leaving_of_clear h) fun _ _ h => h
  have hends : ∀ A, Allowed x i A → Ends x initial i n A (exitNow x i) := fun A hA =>
    ends_exitNow hg hA fun h => absurd h hl
  have hknown : ∀ c, CellOk x c → (hit x i).holds c → (Fact.known x i).holds c := fun _ _ h => h.1
  cases hkind : x.launcher i with
  | retroarch =>
    refine does_bind (Q := fun _ => .clear) ?_ fun _ => hexit _
    refine Does.weaken ?_ hknown fun _ _ h => h
    refine does_bind (does_killRetroarch (exitNow x i) hg) fun _ => ?_
    refine does_bind (does_cleanup hg (hg _ allowed_free) (fun _ h => h) (hends _ allowed_free))
      fun _ => ?_
    exact does_clearTraps (hg _ allowed_clear) fun _ h => h
  | picoarch => exact absurd hkind hl
  | ggfe => exact (does_cleanupGgfe hg _).weaken hknown fun _ _ h => h
  | standalone emulator =>
    refine (does_exitNow hg _).weaken (fun c _ h => ?_) fun _ _ h => h
    obtain ⟨hthere, happlied⟩ := h.2 ⟨emulator, hkind⟩
    refine ⟨fun hprogram => ?_, fun h => ⟨happlied h, hl⟩⟩
    obtain ⟨hpid, herrexit, hforeground⟩ := h.1 hprogram
    refine ⟨?_, hpid, herrexit, hthere hprogram⟩
    rw [hkind] at hforeground ⊢
    cases emulator with
    | ppsspp => rfl
    | _ => cases hforeground

/-- What `stop_child` leaves true is true after it. -/
theorem does_stopChild (hg : Guards x initial i n) (hl : x.launcher i = .picoarch)
    (hA : Allowed x i A) : Does x initial i n A (stopChild x i) fun _ => A := by
  have hsteady := hA.steady hl
  have hstarted : Allowed x i (A.and .started) := hA.and steady_started
  refine does_bind (does_set (hg _ hA) (fun _ => ⟨rfl, rfl, rfl, rfl, id⟩)
    fun c h => hsteady c _ h (.note c)) fun _ => ?_
  refine does_bind (Q := fun child => if child then A.and .started else A)
    (does_ask (hg _ hA) fun c _ h => ?_) fun child => ?_
  · cases hpid : c.childPid with
    | true => exact ⟨h, hpid⟩
    | false => exact h
  cases child with
  | false => exact does_pure () fun _ h => h
  | true =>
    refine does_bind (does_killTerm (hg _ hstarted)) fun sent => ?_
    cases sent with
    | false => exact does_pure () fun _ h => h.1
    | true =>
      refine does_bind (does_waitGone (die i) hstarted.base (hg _ hstarted)
        (hg _ (hstarted.and steady_quiet)) 10) fun _ => ?_
      refine does_bind (does_killProgram (hg _ hstarted)) fun _ => ?_
      have hfree : Allowed x i ((A.and .started).and .free) := hstarted.and steady_free
      have hrestorable : Restorable ((A.and .started).and .free) :=
        ⟨fun _ h => h.2,
          fun c h => ⟨⟨hsteady c _ h.1.1 (.restore c h.1.2), h.1.2⟩, h.2⟩,
          fun c h => ⟨⟨hsteady c _ h.1.1 (.lose c h.1.2), h.1.2⟩, h.2⟩,
          fun c h => ⟨⟨hsteady c _ h.1.1 (.deactivate c h.1.2), h.1.2⟩, h.2⟩⟩
      exact (does_restoreCpuPolicy hrestorable (hg _ hfree) (hg _ (hfree.and steady_held))
        (hg _ (hfree.and steady_clear))).weaken (fun _ _ h => h) fun _ _ h => h.1.1.1

/-- Every careful signal is handled: the induction is on the number of signals. -/
theorem guards (x : Setup N G) (initial : N → G) (i n : ℕ) : Guards x initial i n := by
  induction n using Nat.strongRecOn with
  | ind n ih =>
    rintro A hA j hj t hinv ⟨hi, hhold⟩ signal ⟨-, hready⟩ hC
    have hg := ih j hj
    have hbase := hA.base _ hhold
    change ObeysWith _ _ _ _ j _ _ (handler x i signal t) t
    unfold handler
    by_cases htrap : (t.cell i).traps signal = true
    · rw [if_pos htrap]
      by_cases hl : x.launcher i = .picoarch
      · have hstop := does_stopChild hg hl hA
        rw [hl]
        exact hstop j (Nat.le_refl j) t hinv ⟨hi, hhold⟩
      · have hhit : (hit x i).holds (t.cell i) := by
          refine ⟨fun hthere => ⟨(hC.2 hthere).resolve_right hl, (hbase hthere).1, ?_⟩, ?_⟩
          · by_contra hforeground
            have hshown := (hbase hthere).2 (Bool.not_eq_false _ ▸ hforeground)
            cases hready.symm.trans hshown
          · rintro ⟨emulator, hkind⟩
            have hguard : ∀ h, (t.cell i).exitTrap = true := fun h => by
              have hboth := (Bool.and_eq_true _ _).mp (hC.1 h)
              have htrap' := hboth.2
              rw [hkind] at htrap'
              exact htrap'
            exact ⟨fun h => hguard (Or.inr h), fun h => hguard (Or.inl h)⟩
        exact (does_signalTrap hg hl j (Nat.le_refl j) t hinv ⟨hi, hhit⟩).mono
          (fun _ _ _ h => h.2.elim) fun _ _ _ h => h
    · rw [if_neg htrap]
      have hno : guarded x i signal (t.cell i) = false := by
        unfold guarded
        rw [Bool.eq_false_iff.mpr htrap, Bool.false_and]
      have hclear : (Fact.clear : Fact N G).holds (t.cell i) := by
        refine ⟨?_, ?_⟩ <;> by_contra h <;> rw [Bool.not_eq_false] at h
        · cases hno.symm.trans (hC.1 (Or.inr h))
        · cases hno.symm.trans (hC.1 (Or.inl h))
      have hdie := does_die (hg _ allowed_clear) (fun _ h => h) fun _ => A
      exact hdie j (Nat.le_refl j) t hinv ⟨hi, hclear⟩

end Handlers

section Launch

variable {x : Setup N G} {initial : N → G} {i n : ℕ} {A B : Fact N G} {Q : Unit → Fact N G}

theorem does_exit (hA : ∀ c, A.holds c → Fact.clear.holds c) :
    Does x initial i n A (exitNow x i) Q :=
  (does_exitNow (guards x initial i n) Q).weaken (fun c _ h => leaving_of_clear (hA c h))
    fun _ _ h => h

theorem does_orExit (ok : Bool) (hB : ∀ c, B.holds c → Fact.clear.holds c) :
    Does x initial i n (if ok then A else B) (orExit x i ok) fun _ => A := by
  cases ok with
  | true => exact does_pure () fun _ h => h
  | false => exact does_exit hB

theorem does_check (hA : Allowed x i A) (hfree : ∀ c, A.holds c → c.program = false)
    (hpico : x.launcher i = .picoarch → ∀ c, A.holds c → c.applied = false) :
    Does x initial i n A (check x i) fun _ => A := by
  refine does_bind (Q := fun ok => if ok then A else .leaving x i)
    (does_run (guards x initial i n _ hA) ?_) fun ok => ?_
  · intro t hinv hi hhold o ho hC
    rcases mem_pair ho with rfl | rfl
    · exact ⟨guar_refl hinv, hi, hhold⟩
    · obtain ⟨hguar, hleaving⟩ := guar_fail (A := .leaving x i) hinv hi hC fun htrap =>
        ⟨fun hthere => (by cases (hfree _ hhold).symm.trans hthere),
          fun happlied => ⟨htrap happlied, fun hl => by
            cases (hpico hl _ hhold).symm.trans happlied⟩⟩
      exact ⟨hguar, hi, hleaving⟩
  · cases ok with
    | true => exact does_pure () fun _ h => h
    | false => exact does_exitNow (guards x initial i n) _

theorem does_trapExit (hA : Allowed x i A)
    (htrap : ∀ c, A.holds c → A.holds { c with exitTrap := true }) :
    Does x initial i n A (trapExit i) fun _ => A :=
  does_set (guards x initial i n _ hA) (fun _ => ⟨rfl, rfl, rfl, rfl, id⟩) htrap

theorem does_trapSignals (hA : Allowed x i A)
    (htraps : ∀ c traps, A.holds c → A.holds { c with traps := traps }) :
    Does x initial i n A (trapSignals i) fun _ => A := by
  have hone : ∀ signal, Does x initial i n A (trapSignal i signal) fun _ => A := fun signal =>
    does_set (guards x initial i n _ hA) (fun _ => ⟨rfl, rfl, rfl, rfl, id⟩) fun c h => htraps c _ h
  exact does_bind (hone .hup) fun _ => does_bind (hone .int) fun _ => hone .term

theorem does_deactivate : Does x initial i n .clear
    (assign i fun c => { c with snapshotActive := false }) fun _ => .clear :=
  does_assign (guards x initial i n _ allowed_clear) fun _ hok h =>
    ⟨⟨⟨(fun happlied => by cases h.2.symm.trans happlied), (fun h => by cases h), hok.listed⟩, rfl,
      id, id⟩, h⟩

theorem does_setErrexit_false : Does x initial i n .free (setErrexit i false)
    fun _ => Fact.free.and .quiet :=
  does_set (guards x initial i n _ allowed_free) (fun _ => ⟨rfl, rfl, rfl, rfl, id⟩)
    fun _ h => ⟨h, rfl⟩

theorem does_setErrexit_true : Does x initial i n .free (setErrexit i true) fun _ => .free :=
  does_set (guards x initial i n _ allowed_free) (fun _ => ⟨rfl, rfl, rfl, rfl, id⟩) fun _ h => h

theorem does_startProgram (hl : inForeground (x.launcher i) = false) :
    Does x initial i n (Fact.free.and .quiet) (startProgram i) fun _ => .quiet := by
  have hg := guards x initial i n _ (allowed_quiet (i := i) hl)
  have hstart : Does x initial i n .quiet (startProgram i) fun _ => .quiet := by
    refine does_bind (Q := fun _ => .quiet) ?_ fun _ => ?_
    · exact does_set hg (fun _ => ⟨rfl, rfl, rfl, rfl, fun h => by cases h⟩) fun _ h => h
    · exact does_set hg (fun _ => ⟨rfl, rfl, rfl, rfl, id⟩) fun _ h => h
  exact hstart.weaken (fun _ _ h => h.2) fun _ _ h => h

theorem does_wait (hl : inForeground (x.launcher i) = false) :
    Does x initial i n .quiet (waitProgram i) fun _ => .free :=
  (does_waitProgram (guards x initial i n _ (allowed_quiet hl))).weaken (fun _ _ h => h)
    fun _ _ h => h.2

theorem does_runForeground : Does x initial i n (Fact.free.and .quiet) (runForeground i)
    fun _ => .free := by
  have hg := guards x initial i n
  refine does_bind (Q := fun _ => .waiting) ?_ fun _ => ?_
  · exact does_set (hg _ (allowed_free.and steady_quiet))
      (fun _ => ⟨rfl, rfl, rfl, rfl, fun h => by cases h⟩) fun _ h => ⟨h.2, rfl⟩
  · apply does_run (hg _ allowed_waiting)
    intro t hinv hi _ o ho _
    split at ho
    · cases ho
    · rename_i hgone
      rw [List.mem_singleton.mp ho]
      refine ⟨guar_harmless (f := fun c => { c with foreground := false }) hinv hi
        (harmless (hinv.cells i hi) rfl rfl rfl rfl id), hi, ?_⟩
      dsimp only
      rw [setCell_self]
      exact Bool.eq_false_iff.mpr hgone

section Retroarch

variable (hl : x.launcher i = .retroarch)

include hl in
theorem ends_retroarch : Ends x initial i n .free (exitNow x i) :=
  ends_exitNow (guards x initial i n) allowed_free fun h => by cases hl.symm.trans h

include hl in
theorem does_writeAppendConfig : Does x initial i n .free (writeAppendConfig x i)
    fun _ => .free := by
  have hsig := guards x initial i n _ (allowed_free (x := x) (i := i))
  have hone : Does x initial i n .free (simple i (exitNow x i)) fun _ => .free :=
    does_command hsig (ends_retroarch hl)
  have hmany : ∀ k, Does x initial i n .free (simples i (exitNow x i) k) fun _ => .free := fun k =>
    does_commands hsig (ends_retroarch hl) k
  refine does_bind hone fun _ => does_bind (does_perhaps hsig ?_) fun _ => ?_
  · exact does_bind hone fun _ => does_bind (does_perhaps hsig (hmany 4)) fun _ => hmany 2
  refine does_bind (does_perhaps hsig (hmany 7)) fun _ => does_bind hone fun _ => ?_
  refine does_bind (does_perhaps hsig hone) fun _ => does_bind (hmany 3) fun _ => ?_
  exact does_perhaps hsig hone

theorem does_applyOrRestore : Does x initial i n (.ready x) (applyOrRestore x i)
    fun _ => .free := by
  have hg := guards x initial i n
  refine does_bind (does_applyCommand (hg _ allowed_ready)) fun ok => ?_
  cases ok with
  | true => exact does_pure () fun _ h => h
  | false =>
    refine does_bind (Q := fun _ => .clear) ?_ fun _ => ?_
    · exact (does_restoreCommand restorable_free (hg _ (allowed_free.and steady_held))).weaken
        (fun c _ h => ⟨h.1, fun target htarget =>
          (Option.some.inj (h.2.2.2.1.symm.trans htarget)).symm⟩) fun _ _ h => h.2
    · exact does_bind does_deactivate fun _ => does_exit fun _ h => h

include hl in
theorem does_retroarchLaunch : Does x initial i n .fresh (retroarchLaunch x i) Q := by
  have hg := guards x initial i n
  have hends : Ends x initial i n .free (exitNow x i) := ends_retroarch hl
  have hback : inForeground (x.launcher i) = false := by rw [hl]; rfl
  have hone : Does x initial i n .free (simple i (exitNow x i)) fun _ => .free :=
    does_command (hg _ allowed_free) hends
  refine does_bind (does_check allowed_fresh (fun _ h => h.1) fun _ _ h => h.2.1) fun _ => ?_
  refine does_bind (does_snapshotCommand (hg _ allowed_fresh)) fun saved => ?_
  refine does_bind (does_orExit saved fun _ h => ⟨h.1, h.2.1⟩) fun _ => ?_
  refine does_bind (does_activate (hg _ allowed_taken)) fun _ => ?_
  refine does_bind does_applyOrRestore fun _ => ?_
  refine does_bind (does_writeAppendConfig hl) fun _ => ?_
  refine does_bind (does_trapExit allowed_free fun _ h => h) fun _ => ?_
  refine does_bind (does_trapSignals allowed_free fun _ _ h => h) fun _ => ?_
  refine does_bind hone fun _ => ?_
  refine does_bind does_setErrexit_false fun _ => ?_
  refine does_bind (does_startProgram hback) fun _ => ?_
  refine does_bind (does_wait hback) fun _ => ?_
  refine does_bind (does_forgetPid hg) fun _ => ?_
  refine does_bind does_setErrexit_true fun _ => ?_
  refine does_bind hone fun _ => ?_
  refine does_bind (does_cleanup hg (hg _ allowed_free) (fun _ h => h) hends) fun _ => ?_
  refine does_bind (does_clearTraps (hg _ allowed_clear) fun _ h => h) fun _ => ?_
  exact does_exit fun _ h => h

end Retroarch

section Picoarch

theorem does_applyOrStop : Does x initial i n (.ready x) (applyOrStop x i) fun _ => .free := by
  have hg := guards x initial i n
  refine does_bind (does_applyCommand (hg _ allowed_ready)) fun ok => ?_
  cases ok with
  | true => exact does_pure () fun _ h => h
  | false =>
    refine does_bind ((does_restore (A := .free) hg fun _ h => h).weaken (fun _ _ h => h.1)
      fun _ _ h => h) fun _ => ?_
    exact does_exit fun _ h => h

theorem does_waitStopped : Does x initial i n .free (waitStopped i) fun _ => .free := by
  have hsig := guards x initial i n _ (allowed_free (x := x) (i := i))
  refine does_bind (Q := fun _ => .free) (does_ask hsig fun _ _ h => h) fun stopped => ?_
  cases stopped with
  | true => exact (does_waitProgram hsig).weaken (fun _ _ h => h) fun _ _ h => h.1
  | false => exact does_pure () fun _ h => h

theorem does_picoarchLaunch (hl : x.launcher i = .picoarch) :
    Does x initial i n .fresh (picoarchLaunch x i) Q := by
  have hg := guards x initial i n
  have hback : inForeground (x.launcher i) = false := by rw [hl]; rfl
  refine does_bind (does_check allowed_fresh (fun _ h => h.1) fun _ _ h => h.2.1) fun _ => ?_
  refine does_bind (does_trapSignals allowed_fresh fun _ _ h => h) fun _ => ?_
  refine does_bind (does_snapshotCommand (hg _ allowed_fresh)) fun saved => ?_
  refine does_bind (does_orExit saved fun _ h => ⟨h.1, h.2.1⟩) fun _ => ?_
  refine does_bind (does_activate (hg _ allowed_taken)) fun _ => ?_
  refine does_bind does_applyOrStop fun _ => ?_
  refine does_bind does_setErrexit_false fun _ => ?_
  refine does_bind (does_startProgram hback) fun _ => ?_
  refine does_bind (does_wait hback) fun _ => ?_
  refine does_bind does_setErrexit_true fun _ => ?_
  refine does_bind does_waitStopped fun _ => ?_
  refine does_bind (does_clearTraps (hg _ allowed_free) fun _ h => h) fun _ => ?_
  refine does_bind (does_restore hg fun _ h => h) fun _ => ?_
  refine does_bind (does_commands (hg _ allowed_clear)
    (ends_exitNow hg allowed_clear fun _ _ h => h.2) 2) fun _ => ?_
  exact does_exit fun _ h => h

end Picoarch

theorem does_ggfeLaunch (hl : x.launcher i = .ggfe) :
    Does x initial i n .fresh (ggfeLaunch x i) Q := by
  have hg := guards x initial i n
  have hno : x.launcher i ≠ .picoarch := by rw [hl]; exact fun h => by cases h
  have hback : inForeground (x.launcher i) = false := by rw [hl]; rfl
  have hcheck : Does x initial i n .fresh (check x i) fun _ => .fresh :=
    does_check allowed_fresh (fun _ h => h.1) fun _ _ h => h.2.1
  have hone : ∀ A, Allowed x i A → Does x initial i n A (simple i (exitNow x i)) fun _ => A :=
    fun A hA => does_command (hg _ hA) (ends_exitNow hg hA fun h => absurd h hno)
  refine does_bind hcheck fun _ => ?_
  refine does_bind (does_trapExit allowed_fresh fun _ h => h) fun _ => ?_
  refine does_bind (does_trapSignals allowed_fresh fun _ _ h => h) fun _ => ?_
  refine does_bind hcheck fun _ => ?_
  refine does_bind (does_snapshotCommand (hg _ allowed_fresh)) fun saved => ?_
  refine does_bind (does_orExit saved fun _ h => ⟨h.1, h.2.1⟩) fun _ => ?_
  refine does_bind (does_activate (hg _ allowed_taken)) fun _ => ?_
  refine does_bind (does_applyCommand (hg _ allowed_ready)) fun applied => ?_
  refine does_bind (hone _ ?_) fun _ => ?_
  · cases applied with
    | true => exact allowed_free
    | false => exact allowed_ready
  refine does_bind (does_orExit applied fun _ h => ⟨h.1, h.2.1⟩) fun _ => ?_
  refine does_bind (hone _ allowed_free) fun _ => ?_
  refine does_bind does_setErrexit_false fun _ => ?_
  refine does_bind (does_startProgram hback) fun _ => ?_
  refine does_bind (does_wait hback) fun _ => ?_
  refine does_bind (does_forgetPid hg) fun _ => ?_
  refine does_bind does_setErrexit_true fun _ => ?_
  refine does_bind (does_restore hg fun _ h => h) fun _ => ?_
  refine does_bind (does_clearTraps (hg _ allowed_clear) fun _ h => h) fun _ => ?_
  exact does_exit fun _ h => h

section Standalone

variable {emulator : Emulator} (hl : x.launcher i = .standalone emulator)

include hl in
theorem ends_standalone (hA : Allowed x i A) : Ends x initial i n A (exitNow x i) :=
  ends_exitNow (guards x initial i n) hA fun h => by cases hl.symm.trans h

include hl in
theorem does_one (hA : Allowed x i A) :
    Does x initial i n A (simple i (exitNow x i)) fun _ => A :=
  does_command (guards x initial i n _ hA) (ends_standalone hl hA)

include hl in
theorem does_restoreAtEnd : Does x initial i n .free
    (restoreRuntime x i (exitNow x i) emulator) fun _ => .clear :=
  does_restoreRuntime emulator (guards x initial i n) (guards x initial i n _ allowed_free)
    (fun _ h => h) (fun _ h => h) (ends_standalone hl allowed_free)

include hl in
theorem does_applyOrGoOn : Does x initial i n .fresh (applyOrGoOn x i emulator)
    fun _ => .free := by
  have hg := guards x initial i n
  refine does_bind (does_snapshotCommand (hg _ allowed_fresh)) fun saved => ?_
  cases saved with
  | false =>
    have hends : Ends x initial i n .fresh (exitNow x i) := ends_standalone hl allowed_fresh
    obtain ⟨D, hfail, hexit⟩ := hends
    refine does_attempt (hg _ allowed_fresh) (fun c hok h => ⟨⟨⟨fun happlied => ?_,
      (fun _ _ h => by cases h), hok.listed⟩, rfl, id, id⟩, h.1⟩) (fun _ h => h.1) hfail hexit
    cases h.2.1.symm.trans happlied
  | true =>
    refine does_bind (does_activate (hg _ allowed_taken)) fun _ => ?_
    refine does_bind (does_applyCommand (hg _ allowed_ready)) fun ok => ?_
    cases ok with
    | true => exact does_pure () fun _ h => h
    | false => exact (does_restoreAtEnd hl).weaken (fun _ _ h => h.1) fun _ _ h => h.1

include hl in
theorem does_prepareDrastic (hd : emulator = .drastic) :
    Does x initial i n .free (prepareDrastic x i) fun _ => .free := by
  have hg := guards x initial i n
  have hsig := hg _ (allowed_free (x := x) (i := i))
  have hmany : ∀ k, Does x initial i n .free (simples i (exitNow x i) k) fun _ => .free := fun k =>
    does_commands hsig (ends_standalone hl allowed_free) k
  refine does_bind (does_forEach fun _ _ => does_check allowed_free (fun _ h => h) fun h => by
    cases hl.symm.trans h) fun _ => ?_
  refine does_bind (does_one hl allowed_free) fun _ => ?_
  refine does_bind (does_set (B := .free) hsig (fun _ => ⟨rfl, rfl, rfl, rfl, id⟩) fun _ h => h)
    fun _ => ?_
  refine does_bind (does_perhaps hsig (hmany 100)) fun _ => does_perhaps hsig ?_
  refine does_bind (does_perhaps hsig ?_) fun _ => ?_
  · refine does_bind (does_setErrexit_false.weaken (fun _ _ h => h) fun _ _ h => h.1) fun _ => ?_
    refine does_bind does_setErrexit_true fun _ => ?_
    exact does_set hsig (fun _ => ⟨rfl, rfl, rfl, rfl, id⟩) fun _ h => h
  refine does_bind (hmany 2) fun _ => ?_
  subst hd
  exact does_bind (does_restoreAtEnd hl) fun _ => does_exit fun _ h => h

include hl in
theorem does_runEmulator : Does x initial i n .free (runEmulator x i emulator)
    fun _ => .free := by
  have hg := guards x initial i n
  have hshown : ∀ m : Sh N G Unit, Does x initial i n .free m (fun _ => .free) →
      Does x initial i n .free (do
        m
        setErrexit i false
        runForeground i
        setErrexit i true) fun _ => .free := fun m hm =>
    does_bind hm fun _ => does_bind does_setErrexit_false fun _ =>
      does_bind does_runForeground fun _ => does_setErrexit_true
  have hone : Does x initial i n .free (simple i (exitNow x i)) fun _ => .free :=
    does_one hl allowed_free
  cases emulator with
  | ppsspp =>
    have hback : inForeground (x.launcher i) = false := by rw [hl]; rfl
    refine does_bind hone fun _ => ?_
    refine does_bind does_setErrexit_false fun _ => ?_
    refine does_bind (does_startProgram hback) fun _ => ?_
    refine does_bind (does_wait hback) fun _ => ?_
    exact does_bind (does_forgetPid hg) fun _ => does_setErrexit_true
  | drastic =>
    refine does_bind (does_prepareDrastic hl rfl) fun _ => hshown _ ?_
    exact does_commands (hg _ allowed_free) (ends_standalone hl allowed_free) 2
  | openbor => exact hshown _ hone
  | yabasanshiro => exact hshown _ hone
  | pcsxRearmed => exact hshown _ hone

include hl in
theorem does_standaloneLaunch : Does x initial i n .fresh (standaloneLaunch x i emulator) Q := by
  have hg := guards x initial i n
  refine does_bind (does_check allowed_fresh (fun _ h => h.1) fun _ _ h => h.2.1) fun _ => ?_
  refine does_bind (does_trapExit allowed_fresh fun _ h => h) fun _ => ?_
  refine does_bind (does_trapSignals allowed_fresh fun _ _ h => h) fun _ => ?_
  refine does_bind (does_applyOrGoOn hl) fun _ => ?_
  refine does_bind (does_runEmulator hl) fun _ => ?_
  refine does_bind (does_one hl allowed_free) fun _ => ?_
  refine does_bind (does_restoreAtEnd hl) fun _ => ?_
  refine does_bind (does_clearTraps (hg _ allowed_clear) fun _ h => h) fun _ => ?_
  refine does_bind (does_one hl allowed_clear) fun _ => ?_
  exact does_exit fun _ h => h

end Standalone

theorem does_launch : Does x initial i n .fresh (launch x i (x.launcher i)) Q := by
  cases hl : x.launcher i with
  | retroarch => exact does_retroarchLaunch hl
  | picoarch => exact does_picoarchLaunch hl
  | ggfe => exact does_ggfeLaunch hl
  | standalone emulator => exact does_standaloneLaunch hl

end Launch

section Runs

variable (x : Setup N G) (initial : N → G)

theorem obeys_invocation (i n : ℕ) : TripleWith (protocol x initial) (handling x) (Careful x)
    (some i) n (fun s => i ∉ s.running) (invocation x i) (fun _ _ => True) fun _ _ => True := by
  have hstart : TripleWith (protocol x initial) (handling x) (Careful x) (some i) n
      (fun s => i ∉ s.running)
      (Script.run fun s => if mayStart x i s then [((), s.start i)] else [])
      (fun _ => Own i .fresh) fun _ _ => True := by
    refine TripleWith.run (fun s t _ hno hrely _ hmem => hno (hrely.2.mp hmem))
      (fun _ => stable_own _) (fun j _ t _ hno _ hready _ => absurd hready.1 hno) ?_
    intro t hinv hno o ho _
    split at ho
    · rename_i hmay
      rw [List.mem_singleton.mp ho]
      refine ⟨guar_start hinv hno hmay, List.mem_cons_self, ?_⟩
      have hcell : (t.start i).cell i = .start (t.cell i).saved t.governor :=
        Function.update_self ..
      rw [hcell]
      exact ⟨rfl, rfl, rfl⟩
    · cases ho
  exact TripleWith.bind hstart fun _ => (does_launch (Q := fun _ => .none)).conseq
    (fun _ _ h => h) (fun _ _ _ _ => trivial) fun _ _ _ h => h

theorem obeys_programs (n : ℕ) (ends : List ℕ) :
    TripleWith (protocol x initial) (handling x) (Careful x) none n (fun _ => True)
      (programs x ends) (fun _ _ => True) fun _ _ => True := by
  have hstable : Stable (protocol x initial) none fun _ => True := fun _ _ _ _ _ _ => trivial
  induction ends with
  | nil => exact TripleWith.pure () hstable fun _ _ _ => trivial
  | cons i ends ih =>
    refine TripleWith.bind (Q := fun _ _ => True) (TripleWith.run hstable (fun _ => hstable)
      (fun j _ t _ _ _ hready _ => hready.elim) ?_) fun _ => ih
    intro t hinv _ o ho _
    rw [List.mem_singleton.mp ho]
    refine ⟨?_, trivial⟩
    dsimp only
    split
    · exact guar_endProgram hinv ‹_›
    · exact ⟨hinv, fun j _ => rely_refl j t⟩

/-- No launcher runs, and no governor is in use that its policy does not list. -/
structure Idle (s : State N G) : Prop where
  running : s.running = []
  programs : ∀ i, (s.cell i).program = false
  listed : x.cpus.Listed s.governor

variable {x}

omit [DecidableEq N] [DecidableEq G] in
theorem Idle.inv {s : State N G} (h : Idle x s) : Inv x s.governor s where
  nodup := by rw [h.running]; exact List.nodup_nil
  stacked := by rw [h.running]; trivial
  levels := by rw [h.running]; exact fun _ _ => rfl
  programs i hi := by cases (h.programs i).symm.trans hi
  cells i hi := by rw [h.running] at hi; cases hi
  listed := h.listed

theorem obedient {s : State N G} (h : Idle x s) (ends : List ℕ) :
    Pool.Obedient (protocol x s.governor) (handling x) (Careful x) ⟨s, thread x ends⟩ where
  inv := h.inv
  obeys j n := by
    cases j with
    | none => exact obeys_programs x s.governor n ends n (Nat.le_refl n) s h.inv trivial
    | some i =>
      have hnot : i ∉ s.running := by
        rw [h.running]
        exact List.not_mem_nil
      exact obeys_invocation x s.governor i n n (Nat.le_refl n) s h.inv hnot

/-- In every run of careful events, whenever no launcher runs that was started from outside, every
policy has the governor that it had at first. -/
theorem governors_given_back {s : State N G} (hidle : Idle x s) (ends : List ℕ)
    {es : List (Event (Option ℕ) Signal)} {p : Pool (Option ℕ) (State N G) Unit Unit}
    (hrun : Run (Pool.HappensIn (handling x) (Careful x)) ⟨s, thread x ends⟩ es p)
    (hexited : ∀ i ∈ p.shared.running, x.host i ≠ none) :
    ∀ policy ∈ x.cpus.policies, p.shared.governor policy = s.governor policy := by
  have hinv := ((obedient hidle ends).run hrun).inv
  have hlevels := hinv.levels
  have hstacked := hinv.stacked
  cases hrunning : p.shared.running with
  | nil =>
    rw [hrunning] at hlevels
    exact hlevels
  | cons i is =>
    rw [hrunning] at hstacked hexited
    obtain ⟨k, hk, hout⟩ := hstacked.outermost
    exact absurd hout (hexited k hk)

end Runs

section Sample

instance (x : Setup N G) : ∀ (e : Event (Option ℕ) Signal) (s t : State N G),
    Decidable (Careful x e s t)
  | .command (some _), _, _ => inferInstanceAs (Decidable (_ ∧ _))
  | .command none, _, _ => isTrue trivial
  | .signal (some _) _, _, _ => inferInstanceAs (Decidable (_ ∧ _))
  | .signal none _, _, _ => isTrue trivial

instance (x : Setup N G) : ∀ (i : Option ℕ) (s : State N G), Decidable ((handling x).ready i s)
  | some _, _ => inferInstanceAs (Decidable (_ ∧ _))
  | none, _ => isFalse id

/-- One policy, and a launcher whose program starts `plumos-retroarch-launch`. -/
def sample (outer : Launcher) : Setup String String where
  cpus := ⟨["policy0"], fun _ => ["schedutil", "ondemand", "performance"]⟩
  launcher i := if i = 0 then outer else .retroarch
  cpuPolicy i := if i = 0 then "performance" else "ondemand"
  host i := if i = 0 then none else some 0

def idle : State String String where
  governor _ := "schedutil"
  running := []
  cell _ := .start none fun _ => "schedutil"

theorem idle_sample (outer : Launcher) : Idle (sample outer) idle where
  running := rfl
  programs _ := rfl
  listed _ _ _ := List.mem_cons_self

/-- GGFE starts a game, which TERM ends; then GGFE is left. -/
def session : List (Event (Option ℕ) Signal × ℕ) :=
  List.replicate 15 (.command (some 0), 0) ++ List.replicate 39 (.command (some 1), 0) ++
    [(.signal (some 1) .term, 0), (.command (some 1), 0), (.command (some 1), 1)] ++
    List.replicate 9 (.command (some 1), 0) ++ List.replicate 2 (.command none, 0) ++
    List.replicate 9 (.command (some 0), 0)

theorem governors_given_back_sample :
    (Pool.playSignals (handling (sample .ggfe)) (Careful (sample .ggfe)) session
      ⟨idle, thread (sample .ggfe) [1, 0]⟩).shared.governor "policy0" = "schedutil" := by
  obtain ⟨es, hrun⟩ := Pool.run_playSignals (H := handling (sample .ggfe))
    (C := Careful (sample .ggfe)) session ⟨idle, thread (sample .ggfe) [1, 0]⟩
  refine governors_given_back (idle_sample .ggfe) [1, 0] hrun ?_ "policy0" List.mem_cons_self
  decide +kernel

instance decidableTrue : ∀ (e : Event (Option ℕ) Signal) (s t : State String String),
    Decidable ((fun _ _ _ => True : Event (Option ℕ) Signal → State String String →
      State String String → Prop) e s t) :=
  fun _ _ _ => isTrue trivial

/-- TERM comes to `plumos-retroarch-launch` between `apply` and its traps. -/
theorem signal_leaves_governor : ∃ es p,
    Run (Pool.HappensIn (handling (sample .retroarch)) fun _ _ _ => True)
      ⟨idle, thread (sample .retroarch) []⟩ es p ∧
    p.shared.running = [] ∧ p.shared.governor "policy0" ≠ idle.governor "policy0" := by
  obtain ⟨es, hrun⟩ := Pool.run_playSignals (H := handling (sample .retroarch))
    (C := fun _ _ _ => True)
    (List.replicate 5 (.command (some 0), 0) ++
      [(.signal (some 0) .term, 0), (.command (some 0), 0)])
    ⟨idle, thread (sample .retroarch) []⟩
  exact ⟨es, _, hrun, by decide +kernel, by decide +kernel⟩

end Sample

end PlumosBubble.Cpufreq
