import Mathlib.Logic.Function.Basic
import PlumosBubble.Cart3d.Stripes
import PlumosBubble.Transition.Run

/-! The rasteriser's worker pool (`plumos_ggfe.c`). Every section between
`pthread_mutex_lock` and `pthread_mutex_unlock`, up to a `pthread_cond_wait` in it, is one
step; a thread that waits is asleep until a broadcast, a signal or a spurious wake-up, and
then takes the lock again whenever it comes to run. What a stripe draws is done outside the
lock: between the step that claims it and the step that finishes it the thread may look at
the job at any time. -/

namespace PlumosBubble.Ggfe.Threads

open Cart3d Transition

/-- `GGFE_STRIPES`, and the shared part of `struct ggfe_pool`. `job` stands for the fields
from `job` on, which a stripe is drawn by. -/
structure Pool (Job : Type) where
  started : ℕ
  shutdown : Bool
  generation : UInt64
  pending : ℤ
  nextStripe : ℕ
  job : Job

/-- Where a thread is in `ggfe_run_stripes`. -/
inductive Stripes where
  | claiming
  | executing (stripe : ℕ)
  deriving DecidableEq

/-- Where a thread is in `ggfe_worker_main`. -/
inductive WorkerPlace where
  | waiting (asleep : Bool)
  | stripes (within : Stripes)
  | leaving
  | exited
  deriving DecidableEq

/-- A worker, with its local `seen`. -/
structure Worker where
  place : WorkerPlace
  seen : UInt64
  deriving DecidableEq

/-- Where the thread that owns the pool is: outside the functions of the pool, in
`ggfe_pool_run` or at a `pthread_join` of `ggfe_pool_stop`. -/
inductive MainPlace where
  | outside
  | stripes (within : Stripes)
  | waiting (asleep : Bool)
  | joining (worker : ℕ)
  deriving DecidableEq

structure System (n : ℕ) (Job : Type) where
  pool : Pool Job
  main : MainPlace
  worker : Fin n → Worker

inductive Thread (n : ℕ) where
  | main
  | worker (i : Fin n)
  deriving DecidableEq

/-- What a step does, as far as the threads share it. -/
inductive Event (n : ℕ) (Job : Type) where
  | assign (job : Job)
  | call (job : Job)
  | claim (thread : Thread n) (stripe : ℕ)
  | look (thread : Thread n) (stripe : ℕ) (job : Job)
  | finish (thread : Thread n) (stripe : ℕ) (job : Job)
  | check (thread : Thread n)
  | leave (thread : Thread n)
  | spurious (thread : Thread n)
  | ret
  | stop
  | join (worker : ℕ)
  | stopped

variable {n : ℕ} {Job : Type}

/-- The pool that `ggfe_pool_start` leaves, with its `n` threads not yet run. -/
def poolStart (n : ℕ) (job : Job) : System n Job where
  pool := ⟨n, false, 0, 0, 0, job⟩
  main := .outside
  worker _ := ⟨.waiting false, 0⟩

/-- What `pthread_cond_broadcast(&p->work_ready)` does to a worker. -/
def Worker.wake (w : Worker) : Worker :=
  match w.place with
  | .waiting _ => { w with place := .waiting false }
  | _ => w

/-- What `pthread_cond_signal(&p->work_done)` does. -/
def MainPlace.wake : MainPlace → MainPlace
  | .waiting _ => .waiting false
  | place => place

/-- The first section of `ggfe_pool_run`. -/
def poolRun (s : System n Job) : System n Job :=
  if s.pool.started = 0 then
    { s with pool := { s.pool with nextStripe := 0 }, main := .stripes .claiming }
  else
    { pool := { s.pool with
        pending := s.pool.started, nextStripe := 0, generation := s.pool.generation + 1 }
      main := .stripes .claiming
      worker := fun i => (s.worker i).wake }

/-- `p->next_stripe++`. -/
def Pool.claimed (p : Pool Job) : Pool Job := { p with nextStripe := p.nextStripe + 1 }

/-- The first section of the loop of `ggfe_worker_main`. -/
def Worker.check (p : Pool Job) (w : Worker) : Worker :=
  if p.shutdown then { w with place := .exited }
  else if p.generation = w.seen then { w with place := .waiting true }
  else { place := .stripes .claiming, seen := p.generation }

/-- The last section of the loop of `ggfe_worker_main`. -/
def workerLeave (s : System n Job) (i : Fin n) : System n Job where
  pool := { s.pool with pending := s.pool.pending - 1 }
  main := if s.pool.pending - 1 = 0 then s.main.wake else s.main
  worker := Function.update s.worker i { s.worker i with place := .waiting false }

/-- The first section of `ggfe_pool_stop`. -/
def poolStop (s : System n Job) : System n Job :=
  if s.pool.started = 0 then s
  else
    { pool := { s.pool with shutdown := true }
      main := .joining 0
      worker := fun i => (s.worker i).wake }

/-- The worker goes to another place. -/
def System.place (s : System n Job) (i : Fin n) (place : WorkerPlace) : System n Job :=
  { s with worker := Function.update s.worker i { s.worker i with place := place } }

/-- The steps of the threads. -/
inductive Step : System n Job → Event n Job → System n Job → Prop
  | assign {s} (job : Job) : s.main = .outside →
      Step s (.assign job) { s with pool := { s.pool with job := job } }
  | call {s} : s.main = .outside → Step s (.call s.pool.job) (poolRun s)
  | claimMain {s} : s.main = .stripes .claiming →
      Step s (.claim .main s.pool.nextStripe)
        { s with
          pool := s.pool.claimed
          main := if s.pool.nextStripe < ggfeStripeCount
            then .stripes (.executing s.pool.nextStripe) else .waiting false }
  | claimWorker {s} (i : Fin n) : (s.worker i).place = .stripes .claiming →
      Step s (.claim (.worker i) s.pool.nextStripe)
        ({ s with pool := s.pool.claimed }.place i
          (if s.pool.nextStripe < ggfeStripeCount
            then .stripes (.executing s.pool.nextStripe) else .leaving))
  | lookMain {s} {k : ℕ} : s.main = .stripes (.executing k) →
      Step s (.look .main k s.pool.job) s
  | lookWorker {s} {k : ℕ} (i : Fin n) : (s.worker i).place = .stripes (.executing k) →
      Step s (.look (.worker i) k s.pool.job) s
  | finishMain {s} {k : ℕ} : s.main = .stripes (.executing k) →
      Step s (.finish .main k s.pool.job) { s with main := .stripes .claiming }
  | finishWorker {s} {k : ℕ} (i : Fin n) : (s.worker i).place = .stripes (.executing k) →
      Step s (.finish (.worker i) k s.pool.job) (s.place i (.stripes .claiming))
  | checkWorker {s} (i : Fin n) : (s.worker i).place = .waiting false →
      Step s (.check (.worker i))
        { s with worker := Function.update s.worker i ((s.worker i).check s.pool) }
  | leaveWorker {s} (i : Fin n) : (s.worker i).place = .leaving →
      Step s (.leave (.worker i)) (workerLeave s i)
  | checkMain {s} : s.main = .waiting false → 0 < s.pool.started ∧ 0 < s.pool.pending →
      Step s (.check .main) { s with main := .waiting true }
  | ret {s} : s.main = .waiting false → ¬ (0 < s.pool.started ∧ 0 < s.pool.pending) →
      Step s .ret { s with main := .outside }
  | spuriousMain {s} : s.main = .waiting true →
      Step s (.spurious .main) { s with main := .waiting false }
  | spuriousWorker {s} (i : Fin n) : (s.worker i).place = .waiting true →
      Step s (.spurious (.worker i)) (s.place i (.waiting false))
  | stop {s} : s.main = .outside → Step s .stop (poolStop s)
  | join {s} (i : Fin n) : s.main = .joining i → (s.worker i).place = .exited →
      Step s (.join i) { s with main := .joining (i + 1) }
  | stopped {s} : s.main = .joining n →
      Step s .stopped { s with pool := { s.pool with started := 0 }, main := .outside }

end PlumosBubble.Ggfe.Threads
