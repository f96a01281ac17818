import PlumosBubble.Cpufreq.Brackets

/-! What the commands of a launcher do to its cell, and which facts about it a signal leaves true.
A launcher fails to give the governors back where a signal, or a command that fails, ends it while
no trap is set that restores them, and where it ends a program that has started a launcher. -/

namespace PlumosBubble.Cpufreq

open Scripts Cpus

variable {N G : Type}

section Careful

variable (x : Setup N G) (i : ℕ)

/-- A trap is set that ends with the governors restored. -/
def guarded (signal : Signal) (c : Cell N G) : Bool :=
  c.traps signal && match x.launcher i with
    | .standalone _ => c.exitTrap
    | _ => true

/-- A signal comes where a trap is set, while the policy is applied or the program is there, and
not before the pid of the program is known; `plumos-picoarch-launch` goes on to wait for it. -/
def CarefulSignal (signal : Signal) (c : Cell N G) : Prop :=
  (c.applied = true ∨ c.program = true → guarded x i signal c = true) ∧
    (c.program = true → c.childPid = true ∨ x.launcher i = .picoarch)

/-- While the policy is applied no command ends the launcher by its failure without an exit trap,
and no restore fails that has something to give back; no program is ended that runs a launcher. -/
def CarefulCommand (s t : State N G) : Prop :=
  ((s.cell i).applied = true → ((t.cell i).failures = (s.cell i).failures ∨
    (s.cell i).exitTrap = true) ∧ (t.cell i).lost = (s.cell i).lost) ∧
  ((s.cell i).program = true → (t.cell i).program = false → vacant x i s = true)

def Careful : Event (Option ℕ) Signal → State N G → State N G → Prop
  | .command (some i), s, t => CarefulCommand x i s t
  | .command none, _, _ => True
  | .signal (some i) signal, s, _ => CarefulSignal x i signal (s.cell i)
  | .signal none _, _, _ => True

end Careful

/-- What an invocation knows of its cell, also after its program has ended. -/
structure Fact (N G : Type) where
  holds : Cell N G → Prop
  ended : ∀ c, holds c → holds c.ended

section Facts

variable (x : Setup N G) (i : ℕ)

/-- The launchers that run their program in the foreground. -/
def inForeground : Launcher → Bool
  | .standalone .ppsspp => false
  | .standalone _ => true
  | _ => false

/-- While the program is there `set -e` is off, and a program in the foreground is waited for. -/
def Base (c : Cell N G) : Prop :=
  c.program = true → c.errexit = false ∧
    (inForeground (x.launcher i) = true → c.foreground = true)

/-- What `stop_child` may make of a cell: it takes a note, and where it has a child it ends that and
restores the governors. -/
inductive Stopped : Cell N G → Cell N G → Prop
  | note (c : Cell N G) : Stopped c { c with stopRc := true }
  | kill (c : Cell N G) : c.childPid = true → Stopped c c.ended
  | restore (c : Cell N G) : c.childPid = true →
    Stopped c { c with saved := none, applied := false }
  | lose (c : Cell N G) : c.childPid = true → Stopped c { c with lost := c.lost + 1 }
  | deactivate (c : Cell N G) : c.childPid = true → Stopped c { c with snapshotActive := false }

def Fact.Steady (A : Fact N G) : Prop := ∀ c c', A.holds c → Stopped c c' → A.holds c'

/-- A signal leaves this true, where it does not end the launcher. -/
structure Allowed (A : Fact N G) : Prop where
  base : ∀ c, A.holds c → Base x i c
  steady : x.launcher i = .picoarch → A.Steady

end Facts

namespace Fact

variable (x : Setup N G) (i : ℕ)

def and (A B : Fact N G) : Fact N G where
  holds c := A.holds c ∧ B.holds c
  ended c h := ⟨A.ended c h.1, B.ended c h.2⟩

def none : Fact N G where
  holds _ := False
  ended _ h := h

def free : Fact N G where
  holds c := c.program = false
  ended _ _ := rfl

/-- Nothing is applied, and no program is there. -/
def clear : Fact N G where
  holds c := c.program = false ∧ c.applied = false
  ended _ h := ⟨rfl, h.2⟩

def quiet : Fact N G where
  holds c := c.errexit = false
  ended _ h := h

def started : Fact N G where
  holds c := c.childPid = true
  ended _ h := h

/-- The shell waits for a program in the foreground. -/
def waiting : Fact N G where
  holds c := c.errexit = false ∧ c.foreground = true
  ended _ h := h

/-- The snapshot, where there is one, is of the governors that were found. -/
def held : Fact N G where
  holds c := ∀ target, c.saved = some target → target = x.cpus.lines c.before
  ended _ h := h

/-- Before the snapshot. -/
def fresh : Fact N G where
  holds c := c.program = false ∧ c.applied = false ∧ c.childPid = false
  ended _ h := ⟨rfl, h.2⟩

/-- The snapshot is taken. -/
def taken : Fact N G where
  holds c := c.program = false ∧ c.applied = false ∧ c.childPid = false ∧
    c.saved = some (x.cpus.lines c.before)
  ended _ h := ⟨rfl, h.2⟩

/-- And `restore_cpu_policy` knows it. -/
def ready : Fact N G where
  holds c := c.program = false ∧ c.applied = false ∧ c.childPid = false ∧
    c.saved = some (x.cpus.lines c.before) ∧ c.snapshotActive = true
  ended _ h := ⟨rfl, h.2⟩

/-- The program is in the background, and its pid is known. -/
def known : Fact N G where
  holds c := c.program = true →
    c.childPid = true ∧ c.errexit = false ∧ inForeground (x.launcher i) = false
  ended _ _ h := by cases h

/-- The exit trap, where it is needed, is set. -/
def leaving : Fact N G where
  holds c := (c.program = true → x.launcher i = .standalone .ppsspp ∧ c.childPid = true ∧
      c.errexit = false ∧ c.exitTrap = true) ∧
    (c.applied = true → c.exitTrap = true ∧ x.launcher i ≠ .picoarch)
  ended _ h := ⟨(fun h => by cases h), h.2⟩

/-- The exit trap runs. -/
def trapped : Fact N G where
  holds c := (c.program = true → x.launcher i = .standalone .ppsspp ∧ c.childPid = true ∧
      c.errexit = false) ∧
    c.exitTrap = false ∧ (x.launcher i = .picoarch → c.applied = false)
  ended _ h := ⟨(fun h => by cases h), h.2⟩

end Fact

section Allowances

variable {x : Setup N G} {i : ℕ} {A B : Fact N G}

theorem Allowed.and (hA : Allowed x i A) (hB : B.Steady) : Allowed x i (A.and B) where
  base c h := hA.base c h.1
  steady hl c c' h hc := ⟨hA.steady hl c c' h.1 hc, hB c c' h.2 hc⟩

theorem allowed_of_free (hfree : ∀ c, A.holds c → c.program = false) (hsteady : A.Steady) :
    Allowed x i A where
  base c h hthere := by
    rw [hfree c h] at hthere
    cases hthere
  steady _ := hsteady

theorem steady_free : (Fact.free : Fact N G).Steady := by
  intro c c' h hc
  cases hc with
  | kill => rfl
  | _ => exact h

theorem steady_clear : (Fact.clear : Fact N G).Steady := by
  intro c c' h hc
  cases hc with
  | kill => exact ⟨rfl, h.2⟩
  | restore => exact ⟨h.1, rfl⟩
  | _ => exact h

theorem steady_quiet : (Fact.quiet : Fact N G).Steady := by
  intro c c' h hc
  cases hc <;> exact h

theorem steady_started : (Fact.started : Fact N G).Steady := by
  intro c c' h hc
  cases hc <;> exact h

theorem steady_waiting : (Fact.waiting : Fact N G).Steady := by
  intro c c' h hc
  cases hc <;> exact h

theorem steady_held : (Fact.held x).Steady := by
  intro c c' h hc
  cases hc with
  | restore => exact fun _ h => by cases h
  | _ => exact h

theorem steady_known : (Fact.known x i).Steady := by
  intro c c' h hc
  cases hc with
  | kill => exact fun h => by cases h
  | _ => exact h

theorem Stopped.note_only {c c' : Cell N G} (hc : Stopped c c') (hpid : c.childPid = false) :
    c' = { c with stopRc := true } := by
  cases hc with
  | note => rfl
  | _ h => cases hpid.symm.trans h

theorem allowed_free : Allowed x i (Fact.free : Fact N G) :=
  allowed_of_free (fun _ h => h) steady_free

theorem allowed_clear : Allowed x i (Fact.clear : Fact N G) :=
  allowed_of_free (fun _ h => h.1) steady_clear

theorem allowed_fresh : Allowed x i (Fact.fresh : Fact N G) := by
  refine allowed_of_free (fun _ h => h.1) fun c c' h hc => ?_
  rw [hc.note_only h.2.2]
  exact h

theorem allowed_taken : Allowed x i (Fact.taken x) := by
  refine allowed_of_free (fun _ h => h.1) fun c c' h hc => ?_
  rw [hc.note_only h.2.2.1]
  exact h

theorem allowed_ready : Allowed x i (Fact.ready x) := by
  refine allowed_of_free (fun _ h => h.1) fun c c' h hc => ?_
  rw [hc.note_only h.2.2.1]
  exact h

theorem allowed_quiet (hl : inForeground (x.launcher i) = false) :
    Allowed x i (Fact.quiet : Fact N G) where
  base c h _ := ⟨h, fun hf => by cases hl.symm.trans hf⟩
  steady _ := steady_quiet

theorem allowed_waiting : Allowed x i (Fact.waiting : Fact N G) where
  base _ h _ := ⟨h.1, fun _ => h.2⟩
  steady _ := steady_waiting

theorem allowed_known : Allowed x i (Fact.known x i) where
  base c h hthere := ⟨(h hthere).2.1, fun hf => by cases (h hthere).2.2.symm.trans hf⟩
  steady _ := steady_known

theorem allowed_leaving : Allowed x i (Fact.leaving x i) where
  base c h hthere := by
    obtain ⟨hl, -, herrexit, -⟩ := h.1 hthere
    refine ⟨herrexit, fun hf => ?_⟩
    rw [hl] at hf
    cases hf
  steady hl c c' h hc := by
    cases hc with
    | kill => exact ⟨(fun h => by cases h), h.2⟩
    | restore => exact ⟨h.1, (fun h => by cases h)⟩
    | _ => exact h

end Allowances

def Own (i : ℕ) (A : Fact N G) (s : State N G) : Prop := i ∈ s.running ∧ A.holds (s.cell i)

section Rules

variable {x : Setup N G} {initial : N → G} {i : ℕ} {A B : Fact N G} {s : State N G}

theorem stable_own (A : Fact N G) : Stable (protocol x initial) (some i) (Own i A) := by
  rintro s t - ⟨hi, hA⟩ ⟨hcell, hmem⟩ -
  refine ⟨hmem.mpr hi, ?_⟩
  rcases hcell with hcell | hcell <;> rw [hcell]
  · exact hA
  · exact A.ended _ hA

theorem guar_refl (h : Inv x initial s) : (protocol x initial).guar (some i) s s :=
  ⟨h, fun j _ => rely_refl j s⟩

theorem Inv.agree (h : Inv x initial s) (hi : i ∈ s.running) (hfree : (s.cell i).program = false)
    (happlied : (s.cell i).applied = false) : x.cpus.Agree s.governor (s.cell i).before := by
  obtain ⟨rest, hrest⟩ := h.top hi hfree
  have hlevels := h.levels
  rw [hrest] at hlevels
  exact hlevels.1 happlied

/-- A change of the cell that leaves the governors and what is owed alone. -/
structure Harmless (x : Setup N G) (c c' : Cell N G) : Prop where
  ok : CellOk x c'
  before : c'.before = c.before
  applied : c'.applied = false → c.applied = false
  program : c'.program = false → c.program = false

theorem guar_harmless {f : Cell N G → Cell N G} (h : Inv x initial s)
    (hi : i ∈ s.running) (hf : Harmless x (s.cell i) (f (s.cell i))) :
    (protocol x initial).guar (some i) s (s.setCell i f) := by
  refine guar_setCell h hi hf.ok hf.before hf.applied fun hthere hgone => ?_
  have hfree := hf.program hgone
  rw [hthere] at hfree
  cases hfree

theorem harmless {c c' : Cell N G} (hok : CellOk x c) (happlied : c'.applied = c.applied)
    (hactive : c'.snapshotActive = c.snapshotActive) (hsaved : c'.saved = c.saved)
    (hbefore : c'.before = c.before) (hprogram : c'.program = false → c.program = false) :
    Harmless x c c' where
  ok := ⟨by rw [happlied, hactive, hsaved, hbefore]; exact hok.applied,
    by rw [hactive, hsaved, hbefore]; exact hok.saved, by rw [hbefore]; exact hok.listed⟩
  before := hbefore
  applied h := happlied.symm.trans h
  program := hprogram

theorem guar_fail (h : Inv x initial s) (hi : i ∈ s.running) (hC : CarefulCommand x i s (s.fail i))
    (hfail : ((s.cell i).applied = true → (s.cell i).exitTrap = true) →
      A.holds { s.cell i with failures := (s.cell i).failures + 1 }) :
    (protocol x initial).guar (some i) s (s.fail i) ∧ A.holds ((s.fail i).cell i) := by
  have hcell : (s.fail i).cell i = { s.cell i with failures := (s.cell i).failures + 1 } :=
    setCell_self
  refine ⟨guar_harmless h hi (harmless (h.cells i hi) rfl rfl rfl rfl id), ?_⟩
  rw [hcell]
  refine hfail fun happlied => ?_
  rcases (hC.1 happlied).1 with hsame | htrap
  · rw [hcell] at hsame
    exact absurd hsame (Nat.succ_ne_self _)
  · exact htrap

end Rules

variable [DecidableEq N] [DecidableEq G]

/-- The script of an invocation, as far as `n` signals. -/
abbrev Does {α : Type} (x : Setup N G) (initial : N → G) (i n : ℕ) (A : Fact N G)
    (m : Script (State N G) Unit α) (B : α → Fact N G) : Prop :=
  TripleWith (protocol x initial) (handling x) (Careful x) (some i) n (Own i A) m
    (fun a => Own i (B a)) fun _ _ => True

/-- Signals are handled, `n` at most. -/
abbrev Guarded (x : Setup N G) (initial : N → G) (i n : ℕ) (A : Fact N G) : Prop :=
  Handled (protocol x initial) (handling x) (Careful x) (some i) n (Own i A) fun _ _ => True

section Commands

variable {x : Setup N G} {initial : N → G} {i n : ℕ} {α β : Type} {A A' B D : Fact N G}
  {Q Q' : α → Fact N G} {R : β → Fact N G}

theorem does_pure (a : α) (h : ∀ c, A.holds c → (Q a).holds c) :
    Does x initial i n A (pure a) Q :=
  TripleWith.pure a (stable_own A) fun _ _ hown => ⟨hown.1, h _ hown.2⟩

theorem Does.weaken {m : Script (State N G) Unit α} (h : Does x initial i n A' m Q')
    (hA : ∀ c, CellOk x c → A.holds c → A'.holds c)
    (hQ : ∀ a c, (Q' a).holds c → (Q a).holds c) : Does x initial i n A m Q :=
  TripleWith.conseq h (fun _ hinv hown => ⟨hown.1, hA _ (hinv.cells i hown.1) hown.2⟩)
    (fun a _ _ hown => ⟨hown.1, hQ a _ hown.2⟩) fun _ _ _ h => h

theorem does_bind {m : Script (State N G) Unit α} {f : α → Script (State N G) Unit β}
    (hm : Does x initial i n A m Q) (hf : ∀ a, Does x initial i n (Q a) (f a) R) :
    Does x initial i n A (m >>= f) R :=
  TripleWith.bind hm hf

theorem does_run {outcomes : State N G → List (α × State N G)} (hsig : Guarded x initial i n A)
    (h : ∀ t, Inv x initial t → i ∈ t.running → A.holds (t.cell i) → ∀ o ∈ outcomes t,
      CarefulCommand x i t o.2 →
        (protocol x initial).guar (some i) t o.2 ∧ i ∈ o.2.running ∧ (Q o.1).holds (o.2.cell i)) :
    Does x initial i n A (Script.run outcomes) Q :=
  TripleWith.run (stable_own A) (fun b => stable_own (Q b)) hsig
    fun t hinv hown o ho hC => h t hinv hown.1 hown.2 o ho hC

theorem does_look {outcomes : State N G → List (α × State N G)} (hsig : Guarded x initial i n A)
    (h : ∀ t, CellOk x (t.cell i) → A.holds (t.cell i) → ∀ o ∈ outcomes t,
      o.2 = t ∧ (Q o.1).holds (t.cell i)) :
    Does x initial i n A (Script.run outcomes) Q := by
  apply does_run hsig
  intro t hinv hi hA o ho _
  obtain ⟨hsame, hQ⟩ := h t (hinv.cells i hi) hA o ho
  rw [hsame]
  exact ⟨guar_refl hinv, hi, hQ⟩

theorem does_ask {f : Cell N G → Bool} {Q : Bool → Fact N G} (hsig : Guarded x initial i n A)
    (h : ∀ c, CellOk x c → A.holds c → (Q (f c)).holds c) : Does x initial i n A (ask i f) Q := by
  apply does_look hsig
  intro t hok hA o ho
  rw [List.mem_singleton.mp ho]
  exact ⟨rfl, h _ hok hA⟩

theorem does_test (hsig : Guarded x initial i n A) :
    Does x initial i n A (Script.run fun s => [(true, s), (false, s)]) fun _ : Bool => A := by
  apply does_look hsig
  intro t _ hA o ho
  rcases mem_pair ho with rfl | rfl
  · exact ⟨rfl, hA⟩
  · exact ⟨rfl, hA⟩

theorem does_perhaps {m : Sh N G Unit} (hsig : Guarded x initial i n A)
    (hm : Does x initial i n A m fun _ => A) : Does x initial i n A (perhaps m) fun _ => A := by
  refine does_bind (does_test hsig) fun taken => ?_
  cases taken with
  | true => exact hm
  | false => exact does_pure () fun _ h => h

theorem does_forEach {f : β → Sh N G Unit} {bs : List β}
    (h : ∀ b ∈ bs, Does x initial i n A (f b) fun _ => A) :
    Does x initial i n A (Script.forEach f bs) fun _ => A := by
  induction bs with
  | nil => exact does_pure () fun _ h => h
  | cons b bs ih =>
    exact does_bind (h b List.mem_cons_self) fun _ => ih fun b' hb' =>
      h b' (List.mem_cons_of_mem b hb')

theorem does_assign {f : Cell N G → Cell N G} {Q : Unit → Fact N G}
    (hsig : Guarded x initial i n A)
    (h : ∀ c, CellOk x c → A.holds c → Harmless x c (f c) ∧ (Q ()).holds (f c)) :
    Does x initial i n A (assign i f) Q := by
  apply does_run hsig
  intro t hinv hi hA o ho _
  rw [List.mem_singleton.mp ho]
  obtain ⟨hharmless, hQ⟩ := h _ (hinv.cells i hi) hA
  refine ⟨guar_harmless hinv hi hharmless, hi, ?_⟩
  dsimp only
  rw [setCell_self]
  exact hQ

theorem does_die (hsig : Guarded x initial i n A) (hclear : ∀ c, A.holds c → Fact.clear.holds c)
    (Q : Unit → Fact N G) : Does x initial i n A (die i) Q := by
  refine TripleWith.bind (Q := fun _ s => i ∉ s.running) (TripleWith.run (stable_own A) ?_ hsig ?_)
    fun _ => TripleWith.raise () ?_ fun _ _ _ => trivial
  · exact fun _ s t _ hno hrely _ hmem => hno (hrely.2.mp hmem)
  · intro t hinv hown o ho _
    rw [List.mem_singleton.mp ho]
    obtain ⟨hfree, happlied⟩ := hclear _ hown.2
    exact ⟨guar_leave hinv hown.1 hfree happlied, hinv.nodup.not_mem_erase⟩
  · exact fun s t _ hno hrely _ hmem => hno (hrely.2.mp hmem)

/-- A command that may fail. Where it ends the script it does so by way of `exit`. -/
theorem does_attempt {f : Cell N G → Cell N G} {exit : Sh N G Unit}
    (hsig : Guarded x initial i n A)
    (hf : ∀ c, CellOk x c → A.holds c → Harmless x c (f c) ∧ B.holds (f c))
    (hkeep : ∀ c, A.holds c → B.holds c)
    (hfail : ∀ c, A.holds c → c.errexit = true → (c.applied = true → c.exitTrap = true) →
      D.holds { c with failures := c.failures + 1 })
    (hexit : Does x initial i n D exit fun _ => .none) :
    Does x initial i n A (attempt i f exit) fun _ => B := by
  refine does_bind (Q := fun goesOn => if goesOn then B else D) (does_run hsig ?_) fun goesOn => ?_
  · intro t hinv hi hA o ho hC
    have hok := hinv.cells i hi
    rcases mem_pair ho with rfl | rfl
    · obtain ⟨hharmless, hB⟩ := hf _ hok hA
      refine ⟨guar_harmless hinv hi hharmless, hi, ?_⟩
      rw [setCell_self, if_pos rfl]
      exact hB
    · by_cases herrexit : (t.cell i).errexit = true
      · rw [if_pos herrexit] at hC ⊢
        obtain ⟨hguar, hB⟩ := guar_fail hinv hi hC fun htrap => hfail _ hA herrexit htrap
        exact ⟨hguar, hi, hB⟩
      · rw [if_neg herrexit]
        exact ⟨guar_refl hinv, hi, hkeep _ hA⟩
  · cases goesOn with
    | true => exact does_pure () fun _ h => h
    | false => exact hexit.weaken (fun _ _ h => h) fun _ _ h => h.elim

theorem does_simple {exit : Sh N G Unit} (hsig : Guarded x initial i n A)
    (hfail : ∀ c, A.holds c → c.errexit = true → (c.applied = true → c.exitTrap = true) →
      D.holds { c with failures := c.failures + 1 })
    (hexit : Does x initial i n D exit fun _ => .none) :
    Does x initial i n A (simple i exit) fun _ => A :=
  does_attempt hsig (fun _ hok hA => ⟨harmless hok rfl rfl rfl rfl id, hA⟩) (fun _ h => h) hfail
    hexit

theorem does_simples {exit : Sh N G Unit} (hsig : Guarded x initial i n A)
    (hfail : ∀ c, A.holds c → c.errexit = true → (c.applied = true → c.exitTrap = true) →
      D.holds { c with failures := c.failures + 1 })
    (hexit : Does x initial i n D exit fun _ => .none) (k : ℕ) :
    Does x initial i n A (simples i exit k) fun _ => A :=
  does_forEach fun _ _ => does_simple hsig hfail hexit

end Commands

section Control

variable {x : Setup N G} {initial : N → G} {i n : ℕ} {A B : Fact N G}

theorem does_snapshotCommand (hsig : Guarded x initial i n .fresh) :
    Does x initial i n .fresh (snapshotCommand x i)
      fun saved => if saved then .taken x else .fresh := by
  apply does_run hsig
  intro t hinv hi hA o ho _
  split at ho
  · rename_i target htarget
    rcases mem_pair ho with rfl | rfl
    · have hok := hinv.cells i hi
      have hlines : x.cpus.lines t.governor = x.cpus.lines (t.cell i).before :=
        List.map_congr_left fun policy hpolicy =>
          congrArg (Prod.mk policy) (hinv.agree hi hA.1 hA.2.1 policy hpolicy)
      have htaken : target = x.cpus.lines (t.cell i).before :=
        (snapshot_eq htarget).trans hlines
      have hcell : CellOk x { t.cell i with saved := some target } :=
        ⟨(fun h => by cases hA.2.1.symm.trans h),
          fun _ target' h => (Option.some.inj h).symm.trans htaken, hok.listed⟩
      refine ⟨guar_harmless (f := fun c => { c with saved := some target }) hinv hi
        ⟨hcell, rfl, id, id⟩, hi, ?_⟩
      rw [setCell_self, if_pos rfl]
      exact ⟨hA.1, hA.2.1, hA.2.2, congrArg some htaken⟩
    · exact ⟨guar_refl hinv, hi, hA⟩
  · rw [List.mem_singleton.mp ho]
    exact ⟨guar_refl hinv, hi, hA⟩

theorem does_activate (hsig : Guarded x initial i n (.taken x)) :
    Does x initial i n (.taken x) (activate i) fun _ => .ready x := by
  apply does_assign hsig
  intro c hok hA
  obtain ⟨hfree, happlied, hpid, hsaved⟩ := hA
  refine ⟨⟨⟨(fun h => by cases happlied.symm.trans h), fun _ target h => ?_, hok.listed⟩, rfl,
    id, id⟩, hfree, happlied, hpid, hsaved, rfl⟩
  exact (Option.some.inj (hsaved.symm.trans h)).symm

theorem does_applyCommand (hsig : Guarded x initial i n (.ready x)) :
    Does x initial i n (.ready x) (applyCommand x i) fun ok => if ok then .free else .ready x := by
  apply does_run hsig
  intro t hinv hi hA o ho _
  split at ho
  · rename_i now hnow
    rcases mem_pair ho with rfl | rfl
    · have hok := hinv.cells i hi
      obtain ⟨hread, hlisted⟩ := applyGovernor_eq hnow
      have hcell : CellOk x { t.cell i with applied := true } :=
        ⟨fun _ => ⟨hA.2.2.2.2, hA.2.2.2.1, hread⟩, hok.saved, hok.listed⟩
      refine ⟨guar_write (f := fun c => { c with applied := true }) hinv hi hA.1 hcell rfl hA.1
        (fun h => by cases h) hlisted, hi, ?_⟩
      rw [setCell_self, if_pos rfl]
      exact hA.1
    · exact ⟨guar_refl hinv, hi, hA⟩
  · rw [List.mem_singleton.mp ho]
    exact ⟨guar_refl hinv, hi, hA⟩

/-- What `restore` may do to a cell. -/
structure Restorable (A : Fact N G) : Prop where
  free : ∀ c, A.holds c → c.program = false
  restore : ∀ c, A.holds c → A.holds { c with saved := none, applied := false }
  lose : ∀ c, A.holds c → A.holds { c with lost := c.lost + 1 }
  deactivate : ∀ c, A.holds c → A.holds { c with snapshotActive := false }

theorem does_restoreCommand (hA : Restorable A) (hsig : Guarded x initial i n (A.and (.held x))) :
    Does x initial i n (A.and (.held x)) (restoreCommand x i) fun _ => A.and .clear := by
  apply does_run hsig
  intro t hinv hi hown o ho hC
  obtain ⟨hhold, hheld⟩ := hown
  have hok := hinv.cells i hi
  have hfree := hA.free _ hhold
  -- where the policy is applied there is a snapshot, and it can be given back
  have hgive : (t.cell i).applied = true →
      ∃ now, ((t.cell i).saved.bind fun target => x.cpus.restore target t.governor) = some now := by
    intro happlied
    obtain ⟨-, hsaved, hread⟩ := hok.applied happlied
    rw [hsaved]
    exact restore_lines t.governor hread hok.listed
  split at ho
  · rename_i now hnow
    obtain ⟨target, htarget, hrestore⟩ := Option.bind_eq_some_iff.mp hnow
    rcases mem_pair ho with rfl | rfl
    · obtain ⟨hagree, hlisted⟩ := restore_eq hrestore (hheld target htarget) hok.listed
      have hcell : CellOk x { t.cell i with saved := none, applied := false } :=
        ⟨(fun h => by cases h), (fun _ _ h => by cases h), hok.listed⟩
      refine ⟨guar_write (f := fun c => { c with saved := none, applied := false }) hinv hi hfree
        hcell rfl hfree (fun _ => hagree) hlisted, hi, ?_⟩
      rw [setCell_self]
      exact ⟨hA.restore _ hhold, hfree, rfl⟩
    · refine ⟨guar_harmless (f := fun c => { c with lost := c.lost + 1 }) hinv hi
        (harmless hok rfl rfl rfl rfl id), hi, ?_⟩
      rw [State.lose, setCell_self]
      refine ⟨hA.lose _ hhold, hfree, ?_⟩
      dsimp only
      by_contra happlied
      have hsame := (hC.1 (Bool.not_eq_false _ ▸ happlied)).2
      rw [State.lose, setCell_self] at hsame
      exact Nat.succ_ne_self _ hsame
  · rename_i hnow
    rw [List.mem_singleton.mp ho]
    refine ⟨guar_refl hinv, hi, hhold, hfree, ?_⟩
    by_contra happlied
    obtain ⟨now, hsome⟩ := hgive (Bool.not_eq_false _ ▸ happlied)
    exact absurd (hsome.symm.trans hnow) (Option.some_ne_none now)

theorem does_restoreCpuPolicy (hA : Restorable A) (hsig : Guarded x initial i n A)
    (hheld : Guarded x initial i n (A.and (.held x)))
    (hclear : Guarded x initial i n (A.and .clear)) :
    Does x initial i n A (restoreCpuPolicy x i) fun _ => A.and .clear := by
  refine does_bind (Q := fun active => if active then A.and (.held x) else A.and .clear)
    (does_ask hsig ?_) fun active => ?_
  · intro c hok hhold
    cases hactive : c.snapshotActive with
    | true => exact ⟨hhold, hok.saved hactive⟩
    | false =>
      refine ⟨hhold, hA.free c hhold, ?_⟩
      by_contra happlied
      cases hactive.symm.trans (hok.applied (Bool.not_eq_false _ ▸ happlied)).1
  · cases active with
    | true =>
      refine does_bind (does_restoreCommand hA hheld) fun _ => does_assign hclear ?_
      intro c hok hhold
      refine ⟨⟨⟨(fun h => by cases hhold.2.2.symm.trans h), (fun h => by cases h), hok.listed⟩, rfl,
        id, id⟩, hA.deactivate c hhold.1, hhold.2⟩
    | false => exact does_pure () fun _ h => h

end Control

section Programs

variable {x : Setup N G} {initial : N → G} {i n : ℕ} {A : Fact N G} {s : State N G}

omit [DecidableEq N] [DecidableEq G] in
theorem guar_ended (h : Inv x initial s) (hi : i ∈ s.running)
    (hC : CarefulCommand x i s (s.endProgram i)) :
    (protocol x initial).guar (some i) s (s.endProgram i) := by
  have hok := h.cells i hi
  refine guar_setCell h hi ⟨hok.applied, hok.saved, hok.listed⟩ rfl id fun hthere hgone => ?_
  apply hC.2 hthere
  rw [State.endProgram, setCell_self]
  exact hgone

omit [DecidableEq N] [DecidableEq G] in
theorem cell_endProgram : (s.endProgram i).cell i = (s.cell i).ended := setCell_self

theorem does_killTerm (hsig : Guarded x initial i n A) :
    Does x initial i n A (killTerm i) fun _ => A := by
  apply does_run hsig
  intro t hinv hi hA o ho hC
  split at ho
  · rcases mem_pair ho with rfl | rfl
    · exact ⟨guar_refl hinv, hi, hA⟩
    · refine ⟨guar_ended hinv hi hC, hi, ?_⟩
      rw [cell_endProgram]
      exact A.ended _ hA
  · rcases mem_pair ho with rfl | rfl
    · exact ⟨guar_refl hinv, hi, hA⟩
    · exact ⟨guar_refl hinv, hi, hA⟩

theorem does_waitGone (exit : Sh N G Unit) (hbase : ∀ c, A.holds c → Base x i c)
    (hsig : Guarded x initial i n A) (hquiet : Guarded x initial i n (A.and .quiet)) (k : ℕ) :
    Does x initial i n A (waitGone i exit k) fun _ => A := by
  induction k with
  | zero => exact does_pure () fun _ h => h
  | succ k ih =>
    refine does_bind (Q := fun there => if there then A.and .quiet else A) (does_run hsig ?_)
      fun there => ?_
    · intro t hinv hi hA o ho hC
      split at ho
      · rename_i hthere
        rcases mem_pair ho with rfl | rfl
        · exact ⟨guar_refl hinv, hi, hA, (hbase _ hA hthere).1⟩
        · refine ⟨guar_ended hinv hi hC, hi, ?_⟩
          dsimp only
          rw [cell_endProgram]
          exact A.ended _ hA
      · rw [List.mem_singleton.mp ho]
        exact ⟨guar_refl hinv, hi, hA⟩
    · cases there with
      | true =>
        have hnever : ∀ c, (A.and .quiet).holds c → c.errexit = true →
            (c.applied = true → c.exitTrap = true) →
              Fact.none.holds { c with failures := c.failures + 1 } :=
          fun c h herrexit _ => by cases h.2.symm.trans herrexit
        have hexit : Does x initial i n .none exit fun _ => .none :=
          fun _ _ _ _ hown => hown.2.elim
        exact does_bind ((does_simple hquiet hnever hexit).weaken (fun _ _ h => h)
          fun _ _ h => h.1) fun _ => ih
      | false => exact does_pure () fun _ h => h

theorem does_killProgram (hsig : Guarded x initial i n A) :
    Does x initial i n A (killProgram i) fun _ => A.and .free := by
  apply does_run hsig
  intro t hinv hi hA o ho hC
  rw [List.mem_singleton.mp ho] at hC ⊢
  refine ⟨guar_ended hinv hi hC, hi, ?_⟩
  rw [cell_endProgram]
  exact ⟨A.ended _ hA, rfl⟩

theorem does_waitKilled (hsig : Guarded x initial i n A) :
    Does x initial i n A (waitKilled i) fun _ => A.and .free :=
  does_killProgram hsig

theorem does_waitProgram (hsig : Guarded x initial i n A) :
    Does x initial i n A (waitProgram i) fun _ => A.and .free := by
  apply does_look hsig
  intro t _ hA o ho
  split at ho
  · cases ho
  · rename_i hgone
    rw [List.mem_singleton.mp ho]
    exact ⟨rfl, hA, Bool.eq_false_iff.mpr hgone⟩

end Programs

end PlumosBubble.Cpufreq
