import Mathlib.Algebra.Order.BigOperators.Group.Finset
import PlumosBubble.Ggfe.Pool
import PlumosBubble.Transition.Family

/-! The invariant of the pool. A worker owes the current job its part until it has found the
stripes gone and counted itself out; `pending` is the number of those that do, so the caller
returns when nobody can touch the job any more. -/

namespace PlumosBubble.Ggfe.Threads

open Cart3d Transition

variable {n : ℕ} {Job : Type}

section Invariant

/-- The thread that owns the pool is in `ggfe_pool_run`. -/
def MainPlace.InCall (place : MainPlace) : Prop :=
  (∃ within, place = .stripes within) ∨ ∃ asleep, place = .waiting asleep

/-- The worker is at the top of its loop, or gone. -/
def Worker.Rests (w : Worker) : Prop :=
  w.place = .exited ∨ w.place = .waiting true ∨ w.place = .waiting false
deriving Decidable

/-- The worker is done with every job up to the present one. -/
def Worker.AtRest (p : Pool Job) (w : Worker) : Prop := w.seen = p.generation ∧ w.Rests

/-- What the worker still counts for in `pending`. -/
def Worker.owes (generation : UInt64) (w : Worker) : ℤ :=
  if w.seen = generation ∧ w.Rests then 0 else 1

/-- Where a worker can be, by where the caller is. A worker that sleeps has seen the last
generation; one that has left the stripes found them gone. -/
def Worker.Fits (p : Pool Job) (main : MainPlace) (w : Worker) : Prop :=
  match w.place with
  | .waiting true => w.seen = p.generation ∧ p.shutdown = false ∧
      (main.InCall → ggfeStripeCount ≤ p.nextStripe)
  | .waiting false => (w.seen = p.generation → main.InCall → ggfeStripeCount ≤ p.nextStripe) ∧
      (w.seen ≠ p.generation → main.InCall)
  | .stripes _ => w.seen = p.generation ∧ main.InCall
  | .leaving => w.seen = p.generation ∧ main.InCall ∧ ggfeStripeCount ≤ p.nextStripe
  | .exited => w.seen = p.generation ∧ p.shutdown = true

/-- Where the caller can be. It sleeps only while a worker is pending. -/
def MainPlace.Fits (n : ℕ) (p : Pool Job) (main : MainPlace) : Prop :=
  match main with
  | .outside => True
  | .stripes _ => True
  | .waiting asleep => ggfeStripeCount ≤ p.nextStripe ∧
      (asleep = true → 0 < p.started ∧ 0 < p.pending)
  | .joining k => k ≤ n ∧ p.shutdown = true

/-- The relation of the generation, the count of pending workers and the places. -/
structure Inv (s : System n Job) : Prop where
  started : s.pool.started = n ∨ s.pool.started = 0 ∧ ∀ i, (s.worker i).place = .exited
  pending : s.pool.pending = ∑ i, (s.worker i).owes s.pool.generation
  worker : ∀ i, (s.worker i).Fits s.pool s.main
  main : s.main.Fits n s.pool
  shutdown : s.pool.shutdown = true → s.pool.started = 0 ∨ ∃ k, s.main = .joining k
  joined : ∀ k, s.main = .joining k → ∀ i : Fin n, i < k → (s.worker i).place = .exited

@[simp] theorem not_inCall_outside : ¬ MainPlace.outside.InCall := by simp [MainPlace.InCall]

@[simp] theorem not_inCall_joining (k : ℕ) : ¬ (MainPlace.joining k).InCall := by
  simp [MainPlace.InCall]

@[simp] theorem inCall_stripes (within : Stripes) : (MainPlace.stripes within).InCall := by
  simp [MainPlace.InCall]

@[simp] theorem inCall_waiting (asleep : Bool) : (MainPlace.waiting asleep).InCall := by
  simp [MainPlace.InCall]

@[simp] theorem inCall_wake (place : MainPlace) : place.wake.InCall ↔ place.InCall := by
  cases place <;> simp [MainPlace.wake]

theorem inv_poolStart (job : Job) : Inv (poolStart n job) := by
  constructor <;> simp [poolStart, Worker.owes, Worker.Fits, MainPlace.Fits, Worker.Rests]

variable {p p' : Pool Job} {main main' : MainPlace} {w : Worker} {s t : System n Job}

theorem Worker.Fits.mono (h : w.Fits p main) (hgeneration : p'.generation = p.generation)
    (hshutdown : p'.shutdown = p.shutdown) (hstripe : p.nextStripe ≤ p'.nextStripe)
    (hcall : main'.InCall ↔ main.InCall) : w.Fits p' main' := by
  have hgone : ggfeStripeCount ≤ p.nextStripe → ggfeStripeCount ≤ p'.nextStripe :=
    fun hle => hle.trans hstripe
  unfold Worker.Fits at h ⊢
  rw [hgeneration, hshutdown, hcall]
  split at h
  · exact ⟨h.1, h.2.1, fun hin => hgone (h.2.2 hin)⟩
  · exact ⟨fun hseen hin => hgone (h.1 hseen hin), h.2⟩
  · exact h
  · exact ⟨h.1, h.2.1, hgone h.2.2⟩
  · exact h

theorem Worker.Fits.of_atRest (h : w.Fits p main) (hrest : w.AtRest p)
    (hcall : ¬ main'.InCall) : w.Fits p main' := by
  obtain ⟨hseen, hplace⟩ := hrest
  unfold Worker.Fits at h ⊢
  rcases hplace with hplace | hplace | hplace <;> simp_all

theorem Worker.Fits.atRest (h : w.Fits p main) (hcall : ¬ main.InCall) : w.AtRest p := by
  unfold Worker.Fits at h
  unfold Worker.AtRest Worker.Rests
  split at h <;> simp_all

theorem Worker.owes_nonneg (generation : UInt64) (w : Worker) : 0 ≤ w.owes generation := by
  unfold Worker.owes
  split <;> omega

theorem Worker.owes_eq_zero : w.owes p.generation = 0 ↔ w.AtRest p := by
  unfold Worker.owes Worker.AtRest
  split <;> simp_all

theorem Inv.pending_eq_zero (h : Inv s) :
    s.pool.pending = 0 ↔ ∀ i, (s.worker i).AtRest s.pool := by
  rw [h.pending, Finset.sum_eq_zero_iff_of_nonneg fun i _ => Worker.owes_nonneg _ _]
  simp [Worker.owes_eq_zero]

theorem Inv.pending_nonneg (h : Inv s) : 0 ≤ s.pool.pending := by
  rw [h.pending]
  exact Finset.sum_nonneg fun i _ => Worker.owes_nonneg _ _

theorem sum_owes_place (s : System n Job) (i : Fin n) (x : Worker) (generation : UInt64) :
    ∑ j, (Function.update s.worker i x j).owes generation =
      ∑ j, (s.worker j).owes generation + x.owes generation - (s.worker i).owes generation := by
  have := sum_update_add s.worker i x fun w => w.owes generation
  omega

theorem Inv.move (h : Inv s) {i : Fin n} {x : Worker} (hplace : (s.worker i).place ≠ .exited)
    (hstarted : p'.started = s.pool.started) (hgeneration : p'.generation = s.pool.generation)
    (hshutdown : p'.shutdown = s.pool.shutdown) (hstripe : s.pool.nextStripe ≤ p'.nextStripe)
    (hpending : p'.pending =
      s.pool.pending + x.owes s.pool.generation - (s.worker i).owes s.pool.generation)
    (hcall : main'.InCall ↔ s.main.InCall) (hjoin : ∀ k, main' = .joining k → s.main = .joining k)
    (hjoin' : ∀ k, s.main = .joining k → main' = .joining k)
    (hx : x.Fits p' main') (hmain : main'.Fits n p') :
    Inv (⟨p', main', Function.update s.worker i x⟩ : System n Job) where
  started := by
    rcases h.started with hn | ⟨-, hexited⟩
    · exact Or.inl (hstarted.trans hn)
    · exact absurd (hexited i) hplace
  pending := by
    show p'.pending = ∑ j, (Function.update s.worker i x j).owes p'.generation
    rw [hpending, hgeneration, sum_owes_place, h.pending]
  worker := by
    intro j
    show (Function.update s.worker i x j).Fits p' main'
    by_cases hj : j = i
    · rw [hj, Function.update_self]
      exact hx
    · rw [Function.update_of_ne hj]
      exact (h.worker j).mono hgeneration hshutdown hstripe hcall
  main := hmain
  shutdown := by
    intro hdown
    rcases h.shutdown (hshutdown.symm.trans hdown) with hzero | ⟨k, hk⟩
    · exact Or.inl (hstarted.trans hzero)
    · exact Or.inr ⟨k, hjoin' k hk⟩
  joined := by
    intro k hk j hj
    have hexited := h.joined k (hjoin k hk) j hj
    show (Function.update s.worker i x j).place = .exited
    rwa [Function.update_of_ne]
    rintro rfl
    exact hplace hexited

theorem Inv.moveMain (h : Inv s) (hstarted : p'.started = s.pool.started)
    (hgeneration : p'.generation = s.pool.generation)
    (hshutdown : p'.shutdown = s.pool.shutdown) (hstripe : s.pool.nextStripe ≤ p'.nextStripe)
    (hpending : p'.pending = s.pool.pending) (hcall : main'.InCall ↔ s.main.InCall)
    (hjoin : ∀ k, main' ≠ .joining k) (hjoin' : ∀ k, s.main ≠ .joining k)
    (hmain : main'.Fits n p') : Inv (⟨p', main', s.worker⟩ : System n Job) where
  started := hstarted ▸ h.started
  pending := by
    show p'.pending = ∑ j, (s.worker j).owes p'.generation
    rw [hpending, hgeneration, h.pending]
  worker j := (h.worker j).mono hgeneration hshutdown hstripe hcall
  main := hmain
  shutdown := by
    intro hdown
    rcases h.shutdown (hshutdown.symm.trans hdown) with hzero | ⟨k, hk⟩
    · exact Or.inl (hstarted.trans hzero)
    · exact absurd hk (hjoin' k)
  joined k hk := absurd hk (hjoin k)

theorem Worker.Fits.call (hrest : w.AtRest p) (hplace : w.place ≠ .exited)
    (hgeneration : p'.generation ≠ p.generation) (hcall : main'.InCall) :
    w.wake.Fits p' main' ∧ w.wake.owes p'.generation = 1 := by
  obtain ⟨hseen, hexited | hasleep | hawake⟩ := hrest
  · exact absurd hexited hplace
  all_goals
    have hne : ¬ p.generation = p'.generation := fun heq => hgeneration heq.symm
    simp [Worker.wake, Worker.Fits, Worker.owes, *]

theorem MainPlace.Fits.mono (h : main.Fits n p) (hstarted : p'.started = p.started)
    (hshutdown : p'.shutdown = p.shutdown) (hstripe : p.nextStripe ≤ p'.nextStripe)
    (hpending : main = .waiting true → 0 < p.pending → 0 < p'.pending) : main.Fits n p' := by
  unfold MainPlace.Fits at h ⊢
  rw [hstarted, hshutdown]
  split at h
  · trivial
  · trivial
  · refine ⟨h.1.trans hstripe, fun hasleep => ⟨(h.2 hasleep).1, ?_⟩⟩
    exact hpending (by rw [hasleep]) (h.2 hasleep).2
  · exact h

theorem Worker.owes_stripes (generation : UInt64) {w : Worker} (h : ¬ w.Rests) :
    w.owes generation = 1 := by
  unfold Worker.owes
  rw [if_neg fun hrest => h hrest.2]

theorem Inv.call (h : Inv s) (hmain : s.main = .outside) : Inv (poolRun s) := by
  have hrest : ∀ i, (s.worker i).AtRest s.pool := by
    intro i
    exact (h.worker i).atRest (by simp [hmain])
  have hpending : s.pool.pending = 0 := h.pending_eq_zero.mpr hrest
  unfold poolRun
  by_cases hzero : s.pool.started = 0
  · -- no worker is left: the stripes are the caller's alone
    rw [if_pos hzero]
    have hexited : ∀ i, (s.worker i).place = .exited := by
      rcases h.started with hn | ⟨-, hexited⟩
      · intro i
        exact absurd i.isLt (by omega)
      · exact hexited
    constructor
    · exact Or.inr ⟨hzero, hexited⟩
    · exact h.pending
    · intro i
      have hfits := h.worker i
      unfold Worker.Fits at hfits ⊢
      rw [hexited i] at hfits ⊢
      exact hfits
    · trivial
    · exact fun _ => Or.inl hzero
    · intro k hk
      cases hk
  · rw [if_neg hzero]
    have hn : s.pool.started = n := h.started.resolve_right fun hs => hzero hs.1
    have hdown : s.pool.shutdown = false := by
      by_contra hdown
      rcases h.shutdown (by simpa using hdown) with hs | ⟨k, hk⟩
      · exact hzero hs
      · simp [hmain] at hk
    have hplace : ∀ i, (s.worker i).place ≠ .exited := by
      intro i hexited
      have hfits := h.worker i
      simp [Worker.Fits, hexited, hdown] at hfits
    have hnext : s.pool.generation + 1 ≠ s.pool.generation := by
      intro heq
      simp at heq
    have hwake : ∀ i, (s.worker i).wake.Fits { s.pool with
        pending := s.pool.started, nextStripe := 0, generation := s.pool.generation + 1 }
        (.stripes .claiming) ∧ (s.worker i).wake.owes (s.pool.generation + 1) = 1 :=
      fun i => Worker.Fits.call (hrest i) (hplace i) hnext (by simp)
    constructor
    · exact Or.inl hn
    · show (s.pool.started : ℤ) = ∑ i, (s.worker i).wake.owes (s.pool.generation + 1)
      rw [Finset.sum_congr rfl fun i _ => (hwake i).2]
      simp [hn]
    · exact fun i => (hwake i).1
    · trivial
    · intro hs
      rw [hdown] at hs
      cases hs
    · intro k hk
      cases hk

theorem Inv.exited_of_started (h : Inv s) (hzero : s.pool.started = 0) (i : Fin n) :
    (s.worker i).place = .exited := by
  rcases h.started with hn | ⟨-, hexited⟩
  · exact absurd i.isLt (by omega)
  · exact hexited i

theorem Inv.check (h : Inv s) {i : Fin n} (hplace : (s.worker i).place = .waiting false) :
    ((s.worker i).check s.pool).Fits s.pool s.main ∧
      ((s.worker i).check s.pool).owes s.pool.generation =
        (s.worker i).owes s.pool.generation := by
  have hfits := h.worker i
  simp only [Worker.Fits, hplace] at hfits
  obtain ⟨hseen, hlate⟩ := hfits
  unfold Worker.check
  by_cases hdown : s.pool.shutdown = true
  · have hcall : ¬ s.main.InCall := by
      rcases h.shutdown hdown with hzero | ⟨k, hk⟩
      · have hexited := h.exited_of_started hzero i
        simp [hplace] at hexited
      · simp [hk]
    have heq : (s.worker i).seen = s.pool.generation := by
      by_contra hne
      exact hcall (hlate hne)
    rw [if_pos hdown]
    simp [Worker.Fits, Worker.owes, Worker.Rests, heq, hdown, hplace]
  · rw [if_neg hdown]
    by_cases heq : s.pool.generation = (s.worker i).seen
    · rw [if_pos heq]
      simp [Worker.Fits, Worker.owes, Worker.Rests, ← heq, hplace, hdown]
      exact hseen heq.symm
    · rw [if_neg heq]
      have hne : ¬ (s.worker i).seen = s.pool.generation := fun he => heq he.symm
      simp [Worker.Fits, Worker.owes, Worker.Rests, hne, hlate hne]

theorem Inv.leave (h : Inv s) {i : Fin n} (hplace : (s.worker i).place = .leaving) :
    Inv (workerLeave s i) := by
  have hfits := h.worker i
  simp only [Worker.Fits, hplace] at hfits
  obtain ⟨hseen, hcall, hgone⟩ := hfits
  have howes : (s.worker i).owes s.pool.generation = 1 :=
    Worker.owes_stripes _ (by simp [Worker.Rests, hplace])
  have hle : 1 ≤ s.pool.pending := by
    rw [h.pending, ← howes]
    exact Finset.single_le_sum (fun j _ => Worker.owes_nonneg _ (s.worker j)) (Finset.mem_univ i)
  refine h.move (by simp [hplace]) rfl rfl rfl le_rfl ?_ ?_ ?_ ?_ ?_ ?_
  · rw [howes]
    simp [Worker.owes, Worker.Rests, hseen]
  · split <;> simp
  · intro k
    split
    · cases s.main <;> simp [MainPlace.wake]
    · exact fun hk => hk
  · intro k hk
    simp [hk] at hcall
  · simp [Worker.Fits, hseen, hgone]
  · have hmain := h.main
    by_cases hlast : s.pool.pending - 1 = 0
    · rw [if_pos hlast]
      rcases hcall with ⟨within, hin⟩ | ⟨asleep, hin⟩
      · simp [hin, MainPlace.wake, MainPlace.Fits]
      · simp [hin, MainPlace.wake, MainPlace.Fits, hgone]
    · rw [if_neg hlast]
      exact hmain.mono rfl rfl le_rfl fun _ _ => show 0 < s.pool.pending - 1 by omega

theorem Inv.atRest_of_returns (h : Inv s) (hpending : ¬ (0 < s.pool.started ∧ 0 < s.pool.pending))
    (i : Fin n) : (s.worker i).AtRest s.pool := by
  by_cases hzero : s.pool.started = 0
  · have hexited := h.exited_of_started hzero i
    have hfits := h.worker i
    simp only [Worker.Fits, hexited] at hfits
    exact ⟨hfits.1, Or.inl hexited⟩
  · have hnonneg := h.pending_nonneg
    exact h.pending_eq_zero.mp (by omega) i

theorem Inv.ret (h : Inv s) (hmain : s.main = .waiting false)
    (hpending : ¬ (0 < s.pool.started ∧ 0 < s.pool.pending)) :
    Inv { s with main := .outside } where
  started := h.started
  pending := h.pending
  worker i := (h.worker i).of_atRest (h.atRest_of_returns hpending i) not_inCall_outside
  main := trivial
  shutdown hdown := by
    rcases h.shutdown hdown with hzero | ⟨k, hk⟩
    · exact Or.inl hzero
    · simp [hmain] at hk
  joined k hk := by cases hk

theorem Inv.stop (h : Inv s) (hmain : s.main = .outside) : Inv (poolStop s) := by
  unfold poolStop
  by_cases hzero : s.pool.started = 0
  · rwa [if_pos hzero]
  rw [if_neg hzero]
  have hn : s.pool.started = n := h.started.resolve_right fun hs => hzero hs.1
  have hrest : ∀ i, (s.worker i).AtRest s.pool := fun i => (h.worker i).atRest (by simp [hmain])
  have hwake : ∀ i, (s.worker i).wake.AtRest s.pool ∧
      (s.worker i).wake.Fits { s.pool with shutdown := true } (.joining 0) := by
    intro i
    obtain ⟨hseen, hplace⟩ := hrest i
    rcases hplace with hplace | hplace | hplace <;>
      simp [Worker.wake, Worker.AtRest, Worker.Rests, Worker.Fits, hplace, hseen]
  constructor
  · exact Or.inl hn
  · show s.pool.pending = ∑ i, (s.worker i).wake.owes s.pool.generation
    rw [h.pending_eq_zero.mpr hrest, eq_comm]
    exact Finset.sum_eq_zero fun i _ => Worker.owes_eq_zero.mpr (hwake i).1
  · exact fun i => (hwake i).2
  · exact ⟨Nat.zero_le n, rfl⟩
  · exact fun _ => Or.inr ⟨0, rfl⟩
  · intro k hk j hj
    cases hk
    omega

theorem Inv.step {e : Event n Job} (h : Inv s) (hstep : Step s e t) : Inv t := by
  cases hstep with
  | assign job hmain =>
    refine h.moveMain rfl rfl rfl le_rfl rfl Iff.rfl ?_ ?_ ?_ <;> simp [hmain, MainPlace.Fits]
  | call hmain => exact h.call hmain
  | claimMain hmain =>
    refine h.moveMain rfl rfl rfl (Nat.le_succ _) rfl ?_ ?_ ?_ ?_
    · split <;> simp [hmain]
    · intro k
      split <;> simp
    · simp [hmain]
    · split
      · trivial
      · simp [MainPlace.Fits, Pool.claimed]
        omega
  | claimWorker i hplace =>
    have hfits := h.worker i
    simp only [Worker.Fits, hplace] at hfits
    refine h.move (by simp [hplace]) rfl rfl rfl (Nat.le_succ _) ?_ Iff.rfl (fun _ hk => hk)
      (fun _ hk => hk) ?_ (h.main.mono rfl rfl (Nat.le_succ _) fun _ hp => hp)
    · rw [Worker.owes_stripes, Worker.owes_stripes]
      · simp [Pool.claimed]
      · simp [Worker.Rests, hplace]
      · split <;> simp [Worker.Rests]
    · simp only [Worker.Fits]
      by_cases hlt : s.pool.nextStripe < ggfeStripeCount
      · rw [if_pos hlt]
        exact hfits
      · rw [if_neg hlt]
        refine ⟨hfits.1, hfits.2, ?_⟩
        simp [Pool.claimed]
        omega
  | lookMain hmain => exact h
  | lookWorker i hplace => exact h
  | finishMain hmain =>
    refine h.moveMain rfl rfl rfl le_rfl rfl ?_ ?_ ?_ ?_ <;> simp [hmain, MainPlace.Fits]
  | finishWorker i hplace =>
    have hfits := h.worker i
    simp only [Worker.Fits, hplace] at hfits
    refine h.move (by simp [hplace]) rfl rfl rfl le_rfl ?_ Iff.rfl (fun _ hk => hk)
      (fun _ hk => hk) ?_ h.main
    · rw [Worker.owes_stripes, Worker.owes_stripes] <;> simp [Worker.Rests, hplace]
    · exact hfits
  | checkWorker i hplace =>
    obtain ⟨hfits, howes⟩ := h.check hplace
    refine h.move (by simp [hplace]) rfl rfl rfl le_rfl ?_ Iff.rfl (fun _ hk => hk)
      (fun _ hk => hk) hfits h.main
    rw [howes]
    omega
  | leaveWorker i hplace => exact h.leave hplace
  | checkMain hmain hpending =>
    have hfits := h.main
    simp only [hmain, MainPlace.Fits] at hfits
    refine h.moveMain rfl rfl rfl le_rfl rfl ?_ ?_ ?_ ⟨hfits.1, fun _ => hpending⟩ <;>
      simp [hmain]
  | ret hmain hpending => exact h.ret hmain hpending
  | spuriousMain hmain =>
    have hfits := h.main
    simp only [hmain, MainPlace.Fits] at hfits
    refine h.moveMain rfl rfl rfl le_rfl rfl ?_ ?_ ?_ ⟨hfits.1, by simp⟩ <;> simp [hmain]
  | spuriousWorker i hplace =>
    have hfits := h.worker i
    simp only [Worker.Fits, hplace] at hfits
    refine h.move (by simp [hplace]) rfl rfl rfl le_rfl ?_ Iff.rfl (fun _ hk => hk)
      (fun _ hk => hk) ?_ h.main
    · simp [Worker.owes, Worker.Rests, hplace]
    · simp [Worker.Fits, hfits.1]
      exact hfits.2.2
  | stop hmain => exact h.stop hmain
  | join i hmain hplace =>
    have hfits := h.main
    simp only [hmain, MainPlace.Fits] at hfits
    constructor
    · exact h.started
    · exact h.pending
    · intro j
      exact (h.worker j).mono rfl rfl le_rfl (by simp [hmain])
    · exact ⟨i.isLt, hfits.2⟩
    · exact fun _ => Or.inr ⟨_, rfl⟩
    · intro k hk j hj
      cases hk
      by_cases hji : j = i
      · rw [hji]
        exact hplace
      · have hne : (j : ℕ) ≠ i := fun heq => hji (Fin.ext heq)
        exact h.joined i hmain j (by omega)
  | stopped hmain =>
    have hexited : ∀ i, (s.worker i).place = .exited := fun i => h.joined n hmain i i.isLt
    constructor
    · exact Or.inr ⟨rfl, hexited⟩
    · exact h.pending
    · intro i
      have hfits := h.worker i
      simp only [Worker.Fits, hexited i] at hfits ⊢
      exact hfits
    · trivial
    · exact fun _ => Or.inl rfl
    · intro k hk
      cases hk

end Invariant

end PlumosBubble.Ggfe.Threads
