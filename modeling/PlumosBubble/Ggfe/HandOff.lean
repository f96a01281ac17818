import Mathlib.Data.Multiset.Range
import PlumosBubble.Ggfe.PoolInvariant

/-! How the pool hands a job to its workers: the stripes claimed in a call are those below
the counter, each of them is finished or in one thread's hands, and when the call returns no
hands are left. -/

namespace PlumosBubble.Ggfe.Threads

open Cart3d Transition

variable {n : ℕ} {Job : Type}

section Spec

/-- An event inside a call for `job`: nobody looks at another one. -/
def Event.Within (job : Job) : Event n Job → Prop
  | .look _ _ job' | .finish _ _ job' => job' = job
  | .claim _ _ | .check _ | .leave _ | .spurious _ => True
  | .assign _ | .call _ | .ret | .stop | .join _ | .stopped => False

/-- An event between two calls: no stripe is touched. -/
def Event.Between : Event n Job → Prop
  | .assign _ | .check _ | .spurious _ | .stop | .join _ | .stopped => True
  | .claim _ _ | .look _ _ _ | .finish _ _ _ | .leave _ | .call _ | .ret => False

/-- The stripes claimed in these events, in order. -/
def claimedStripes (es : List (Event n Job)) : List ℕ :=
  es.filterMap fun
    | .claim _ k => if k < ggfeStripeCount then some k else none
    | _ => none

/-- The stripes finished in these events, in order. -/
def finishedStripes (es : List (Event n Job)) : List ℕ :=
  es.filterMap fun
    | .finish _ k _ => some k
    | _ => none

/-- The events of a call that executed every stripe of its job once. -/
structure Complete (job : Job) (es : List (Event n Job)) : Prop where
  within : ∀ e ∈ es, e.Within job
  claimed : claimedStripes es = List.range ggfeStripeCount
  finished : (finishedStripes es).Perm (List.range ggfeStripeCount)

/-- A history of complete calls. -/
inductive Served : List (Event n Job) → Prop
  | start : Served []
  | between {es : List (Event n Job)} {e : Event n Job} : Served es → e.Between →
      Served (es ++ [e])
  | call {es during : List (Event n Job)} {job : Job} : Served es → Complete job during →
      Served (es ++ .call job :: during ++ [.ret])

/-- A history of complete calls and a call for `job` that has not returned. -/
def Serving (job : Job) (es : List (Event n Job)) : Prop :=
  ∃ before during, es = before ++ .call job :: during ∧ Served before ∧
    (∀ e ∈ during, e.Within job) ∧ (claimedStripes during).Nodup ∧
      (finishedStripes during).Subperm (claimedStripes during)

/-- The event is neither a spurious wake-up nor a mere look at the job. -/
def Event.Ordinary : Event n Job → Prop
  | .look _ _ _ | .spurious _ => False
  | _ => True

end Spec

section Work

/-- The steps that are left to a thread in `ggfe_run_stripes`, each stripe aside. -/
def Stripes.weight : Stripes → ℕ
  | .claiming => 0
  | .executing _ => 1

def MainPlace.weight (n : ℕ) : MainPlace → ℕ
  | .outside => 0
  | .waiting true => 1
  | .waiting false => 2
  | .stripes within => 3 + within.weight
  | .joining i => n - i + 1

def Worker.weight (generation : UInt64) (w : Worker) : ℕ :=
  match w.place with
  | .exited => 0
  | .waiting true => 0
  | .waiting false => if w.seen = generation then 1 else 5
  | .leaving => 3
  | .stripes within => 4 + within.weight

/-- A bound on the steps before the present call returns. -/
def System.work (s : System n Job) : ℕ :=
  2 * (ggfeStripeCount - s.pool.nextStripe) + s.main.weight n +
    ∑ i, (s.worker i).weight s.pool.generation

end Work

/-- What holds after any events of the pool. -/
structure HandedOff (es : List (Event n Job)) (s : System n Job) : Prop where
  /-- Outside a call every call before has executed its stripes, and no worker can touch a
  job before the next. -/
  returned : ¬ s.main.InCall → Served es ∧ ∀ i, (s.worker i).AtRest s.pool
  /-- In a call the job is the one it was made with. -/
  running : s.main.InCall → Serving s.pool.job es
  /-- Calls and `ggfe_pool_stop` return: some thread can go on, and each step leaves less. -/
  progress : s.main ≠ .outside → (∃ e t, Step s e t ∧ e.Ordinary) ∧
    ∀ e t, Step s e t → e.Ordinary → t.work < s.work
  /-- No worker waits once the pool is told to stop, and none is left when it has. -/
  stopped : s.pool.shutdown = true → (∀ i, (s.worker i).place ≠ .waiting true) ∧
    ((¬ ∃ i, s.main = .joining i) → ∀ i, (s.worker i).place = .exited)

section Ledger

/-- The stripes that are being drawn. -/
def Stripes.hands : Stripes → Multiset ℕ
  | .claiming => 0
  | .executing k => {k}

def MainPlace.hands : MainPlace → Multiset ℕ
  | .stripes within => within.hands
  | _ => 0

def Worker.hands (w : Worker) : Multiset ℕ :=
  match w.place with
  | .stripes within => within.hands
  | _ => 0

def System.hands (s : System n Job) : Multiset ℕ := s.main.hands + ∑ i, (s.worker i).hands

/-- The stripes claimed in a call are those below the counter; each is finished or being
drawn, once. -/
structure Ledger (during : List (Event n Job)) (s : System n Job) : Prop where
  claimed : claimedStripes during = List.range (min s.pool.nextStripe ggfeStripeCount)
  finished : (finishedStripes during : Multiset ℕ) + s.hands =
    Multiset.range (min s.pool.nextStripe ggfeStripeCount)

variable {s t : System n Job} {e : Event n Job} {during : List (Event n Job)}

theorem claimedStripes_append (es fs : List (Event n Job)) :
    claimedStripes (es ++ fs) = claimedStripes es ++ claimedStripes fs := List.filterMap_append

theorem finishedStripes_append (es fs : List (Event n Job)) :
    finishedStripes (es ++ fs) = finishedStripes es ++ finishedStripes fs := List.filterMap_append

theorem sum_hands_update (s : System n Job) (i : Fin n) (x : Worker) :
    ∑ j, (Function.update s.worker i x j).hands + (s.worker i).hands =
      ∑ j, (s.worker j).hands + x.hands :=
  sum_update_add s.worker i x Worker.hands

theorem Ledger.silent (h : Ledger during s) (hclaimed : claimedStripes [e] = [])
    (hfinished : finishedStripes [e] = []) (hstripe : t.pool.nextStripe = s.pool.nextStripe)
    (hhands : t.hands = s.hands) : Ledger (during ++ [e]) t where
  claimed := by rw [claimedStripes_append, hclaimed, List.append_nil, hstripe, h.claimed]
  finished := by
    rw [finishedStripes_append, hfinished, List.append_nil, hstripe, hhands, h.finished]

theorem Ledger.claim (h : Ledger during s) {thread : Thread n}
    (hstripe : t.pool.nextStripe = s.pool.nextStripe + 1)
    (hhands : t.hands = s.hands +
      if s.pool.nextStripe < ggfeStripeCount then {s.pool.nextStripe} else 0) :
    Ledger (during ++ [.claim thread s.pool.nextStripe]) t := by
  have hfinished : finishedStripes [@Event.claim n Job thread s.pool.nextStripe] = [] := rfl
  by_cases hlt : s.pool.nextStripe < ggfeStripeCount
  · have hmin : min s.pool.nextStripe ggfeStripeCount = s.pool.nextStripe := by omega
    have hmin' : min t.pool.nextStripe ggfeStripeCount = s.pool.nextStripe + 1 := by omega
    constructor
    · rw [claimedStripes_append, h.claimed, hmin, hmin', List.range_succ]
      simp [claimedStripes, hlt]
    · rw [finishedStripes_append, hfinished, List.append_nil, hhands, if_pos hlt, ← add_assoc,
        h.finished, hmin, hmin', Multiset.range_succ, ← Multiset.singleton_add, add_comm]
  · have hmin : min t.pool.nextStripe ggfeStripeCount =
        min s.pool.nextStripe ggfeStripeCount := by omega
    constructor
    · rw [claimedStripes_append, h.claimed, hmin]
      simp [claimedStripes, hlt]
    · rw [finishedStripes_append, hfinished, List.append_nil, hhands, if_neg hlt, add_zero,
        h.finished, hmin]

theorem Ledger.finish (h : Ledger during s) {thread : Thread n} {k : ℕ} {job : Job}
    (hstripe : t.pool.nextStripe = s.pool.nextStripe) (hhands : {k} + t.hands = s.hands) :
    Ledger (during ++ [.finish thread k job]) t where
  claimed := by
    have hclaimed : claimedStripes [Event.finish thread k job] = [] := rfl
    rw [claimedStripes_append, hclaimed, List.append_nil, hstripe, h.claimed]
  finished := by
    have hfinished : finishedStripes [Event.finish thread k job] = [k] := rfl
    rw [finishedStripes_append, hfinished, hstripe, ← h.finished, ← hhands, ← Multiset.coe_add,
      add_assoc]
    rfl

theorem Ledger.complete (h : Ledger during s) (hgone : ggfeStripeCount ≤ s.pool.nextStripe)
    (hhands : s.hands = 0) {job : Job} (hwithin : ∀ e ∈ during, e.Within job) :
    Complete job during where
  within := hwithin
  claimed := by rw [h.claimed, min_eq_right hgone]
  finished := by
    have hall := h.finished
    rw [hhands, add_zero, min_eq_right hgone] at hall
    exact Multiset.coe_eq_coe.mp hall

theorem Ledger.subperm (h : Ledger during s) :
    (finishedStripes during).Subperm (claimedStripes during) := by
  rw [← Multiset.coe_le, h.claimed]
  show _ ≤ Multiset.range _
  rw [← h.finished]
  exact Multiset.le_add_right _ _

end Ledger

section History

/-- The history so far: complete calls, and the ledger of the one that has not returned. -/
structure Trace (es : List (Event n Job)) (s : System n Job) : Prop where
  served : ¬ s.main.InCall → Served es
  serving : s.main.InCall → ∃ before during, es = before ++ .call s.pool.job :: during ∧
    Served before ∧ (∀ e ∈ during, e.Within s.pool.job) ∧ Ledger during s

variable {es : List (Event n Job)} {s t : System n Job} {e : Event n Job}

theorem Trace.inside (h : Trace es s) (hcall : s.main.InCall) (hcall' : t.main.InCall)
    (hjob : t.pool.job = s.pool.job) (hwithin : e.Within s.pool.job)
    (hledger : ∀ during, Ledger during s → Ledger (during ++ [e]) t) : Trace (es ++ [e]) t where
  served hout := absurd hcall' hout
  serving _ := by
    obtain ⟨before, during, rfl, hserved, hduring, hlist⟩ := h.serving hcall
    refine ⟨before, during ++ [e], by simp [hjob], hserved, ?_, hledger during hlist⟩
    rw [hjob]
    intro f hf
    rcases List.mem_append.mp hf with hf | hf
    · exact hduring f hf
    · rw [List.mem_singleton.mp hf]
      exact hwithin

theorem Trace.outside (h : Trace es s) (hcall : ¬ s.main.InCall) (hcall' : ¬ t.main.InCall)
    (hbetween : e.Between) : Trace (es ++ [e]) t where
  served _ := (h.served hcall).between hbetween
  serving hin := absurd hin hcall'

theorem Trace.aside (h : Trace es s) (hcall : t.main.InCall ↔ s.main.InCall)
    (hjob : t.pool.job = s.pool.job) (hwithin : ∀ job, e.Within job)
    (hbetween : ¬ s.main.InCall → e.Between) (hclaimed : claimedStripes [e] = [])
    (hfinished : finishedStripes [e] = []) (hstripe : t.pool.nextStripe = s.pool.nextStripe)
    (hhands : t.hands = s.hands) : Trace (es ++ [e]) t := by
  by_cases hin : s.main.InCall
  · exact h.inside hin (hcall.mpr hin) hjob (hwithin _) fun during hlist =>
      hlist.silent hclaimed hfinished hstripe hhands
  · exact h.outside hin (fun hin' => hin (hcall.mp hin')) (hbetween hin)

theorem hands_of_atRest {w : Worker} (h : w.Rests) : w.hands = 0 := by
  unfold Worker.hands
  rcases h with h | h | h <;> rw [h]

theorem hands_wake (w : Worker) : w.wake.hands = w.hands := by
  unfold Worker.wake
  split
  · rename_i hplace
    simp [Worker.hands, hplace]
  · rfl

theorem hands_check {p : Pool Job} {w : Worker} (hplace : w.place = .waiting false) :
    (w.check p).hands = w.hands := by
  unfold Worker.check
  split
  · simp [Worker.hands, hplace]
  · split <;> simp [Worker.hands, hplace, Stripes.hands]

theorem hands_update {s : System n Job} {i : Fin n} {x : Worker} {p : Pool Job}
    {main : MainPlace} (hmain : main.hands = s.main.hands) (hx : x.hands = (s.worker i).hands) :
    System.hands ⟨p, main, Function.update s.worker i x⟩ = s.hands := by
  have hsum := sum_hands_update s i x
  rw [hx] at hsum
  unfold System.hands
  rw [hmain, add_right_cancel hsum]

theorem Trace.call (h : Trace es s) (hinv : Inv s) (hmain : s.main = .outside) :
    Trace (es ++ [.call s.pool.job]) (poolRun s) := by
  have hrest : ∀ i, (s.worker i).AtRest s.pool := fun i =>
    (hinv.worker i).atRest (by simp [hmain])
  have hstart : (poolRun s).main = .stripes .claiming := by
    unfold poolRun
    split <;> rfl
  have hjob : (poolRun s).pool.job = s.pool.job := by
    unfold poolRun
    split <;> rfl
  have hstripe : (poolRun s).pool.nextStripe = 0 := by
    unfold poolRun
    split <;> rfl
  have hhands : (poolRun s).hands = 0 := by
    have hworker : ∀ i, ((poolRun s).worker i).hands = 0 := by
      intro i
      unfold poolRun
      split
      · exact hands_of_atRest (hrest i).2
      · exact (hands_wake _).trans (hands_of_atRest (hrest i).2)
    unfold System.hands
    rw [hstart, Finset.sum_eq_zero fun i _ => hworker i]
    rfl
  constructor
  · intro hout
    simp [hstart] at hout
  · intro _
    refine ⟨es, [], by rw [hjob], h.served (by simp [hmain]), by simp, ?_, ?_⟩
    · simp [claimedStripes, hstripe]
    · simp [finishedStripes, hstripe, hhands]

theorem Trace.ret (h : Trace es s) (hinv : Inv s) (hmain : s.main = .waiting false)
    (hpending : ¬ (0 < s.pool.started ∧ 0 < s.pool.pending)) :
    Trace (es ++ [.ret]) { s with main := .outside } where
  served _ := by
    obtain ⟨before, during, rfl, hserved, hwithin, hlist⟩ := h.serving (by simp [hmain])
    have hfits := hinv.main
    simp only [hmain, MainPlace.Fits] at hfits
    have hhands : s.hands = 0 := by
      unfold System.hands
      rw [hmain, Finset.sum_eq_zero fun i _ =>
        hands_of_atRest (hinv.atRest_of_returns hpending i).2]
      rfl
    exact hserved.call (hlist.complete hfits.1 hhands hwithin)
  serving hin := by simp at hin

theorem Trace.step (h : Trace es s) (hinv : Inv s) (hstep : Step s e t) : Trace (es ++ [e]) t := by
  have hbusy : ∀ i, (s.worker i).Rests ∨ s.main.InCall := by
    intro i
    by_cases hin : s.main.InCall
    · exact Or.inr hin
    · exact Or.inl ((hinv.worker i).atRest hin).2
  cases hstep with
  | assign job hmain => exact h.outside (by simp [hmain]) (by simp [hmain]) trivial
  | call hmain => exact h.call hinv hmain
  | claimMain hmain =>
    refine h.inside (by simp [hmain]) ?_ rfl trivial fun during hlist => hlist.claim rfl ?_
    · show MainPlace.InCall (ite _ _ _)
      split <;> simp
    · unfold System.hands
      rw [hmain]
      split <;> simp [MainPlace.hands, Stripes.hands, add_comm]
  | claimWorker i hplace =>
    have hin : s.main.InCall := (hbusy i).resolve_left (by simp [Worker.Rests, hplace])
    refine h.inside hin hin rfl trivial fun during hlist => hlist.claim rfl ?_
    have hsum := sum_hands_update s i { s.worker i with
      place := if s.pool.nextStripe < ggfeStripeCount
        then .stripes (.executing s.pool.nextStripe) else .leaving }
    have hold : (s.worker i).hands = 0 := by simp [Worker.hands, hplace, Stripes.hands]
    rw [hold, add_zero] at hsum
    unfold System.hands System.place
    dsimp only
    rw [hsum, ← add_assoc]
    split <;> simp [Worker.hands, Stripes.hands]
  | lookMain hmain =>
    exact h.inside (by simp [hmain]) (by simp [hmain]) rfl rfl fun during hlist =>
      hlist.silent rfl rfl rfl rfl
  | lookWorker i hplace =>
    have hin : s.main.InCall := (hbusy i).resolve_left (by simp [Worker.Rests, hplace])
    exact h.inside hin hin rfl rfl fun during hlist => hlist.silent rfl rfl rfl rfl
  | finishMain hmain =>
    refine h.inside (by simp [hmain]) (by simp) rfl rfl fun during hlist => hlist.finish rfl ?_
    simp [System.hands, MainPlace.hands, Stripes.hands, hmain]
  | finishWorker i hplace =>
    have hin : s.main.InCall := (hbusy i).resolve_left (by simp [Worker.Rests, hplace])
    refine h.inside hin hin rfl rfl fun during hlist => hlist.finish rfl ?_
    have hsum := sum_hands_update s i { s.worker i with place := .stripes .claiming }
    have hold : ∀ k, (s.worker i).place = .stripes (.executing k) → (s.worker i).hands = {k} := by
      intro k hk
      simp [Worker.hands, hk, Stripes.hands]
    have hnew : Worker.hands { s.worker i with place := .stripes .claiming } = 0 := rfl
    rw [hold _ hplace, hnew, add_zero] at hsum
    unfold System.hands System.place
    rw [← hsum]
    dsimp only
    ac_rfl
  | checkWorker i hplace =>
    exact h.aside Iff.rfl rfl (fun _ => trivial) (fun _ => trivial) rfl rfl rfl
      (hands_update rfl (hands_check hplace))
  | leaveWorker i hplace =>
    have hin : s.main.InCall := (hbusy i).resolve_left (by simp [Worker.Rests, hplace])
    refine h.aside ?_ rfl (fun _ => trivial) (fun hout => absurd hin hout) rfl rfl rfl
      (hands_update ?_ (by simp [Worker.hands, hplace]))
    · show MainPlace.InCall (ite _ _ _) ↔ _
      split <;> simp
    · split
      · cases s.main <;> rfl
      · rfl
  | checkMain hmain hpending =>
    exact h.aside (by simp [hmain]) rfl (fun _ => trivial) (fun _ => trivial) rfl rfl rfl
      (by simp [System.hands, MainPlace.hands, hmain])
  | ret hmain hpending => exact h.ret hinv hmain hpending
  | spuriousMain hmain =>
    exact h.aside (by simp [hmain]) rfl (fun _ => trivial) (fun _ => trivial) rfl rfl rfl
      (by simp [System.hands, MainPlace.hands, hmain])
  | spuriousWorker i hplace =>
    exact h.aside Iff.rfl rfl (fun _ => trivial) (fun _ => trivial) rfl rfl rfl
      (hands_update rfl (by simp [Worker.hands, hplace]))
  | stop hmain =>
    refine h.outside (by simp [hmain]) ?_ trivial
    unfold poolStop
    split <;> simp [hmain]
  | join i hmain hplace => exact h.outside (by simp [hmain]) (by simp) trivial
  | stopped hmain => exact h.outside (by simp [hmain]) (by simp) trivial

end History

section Progress

variable {s t : System n Job} {e : Event n Job}

theorem Inv.worker_goes_on (h : Inv s) {i : Fin n} (hpending : ¬ (s.worker i).AtRest s.pool) :
    ∃ e t, Step s e t ∧ e.Ordinary := by
  have hfits := h.worker i
  unfold Worker.Fits at hfits
  unfold Worker.AtRest Worker.Rests at hpending
  cases hplace : (s.worker i).place with
  | waiting asleep =>
    cases asleep with
    | true => simp_all
    | false => exact ⟨_, _, .checkWorker i hplace, trivial⟩
  | stripes within =>
    cases within with
    | claiming => exact ⟨_, _, .claimWorker i hplace, trivial⟩
    | executing k => exact ⟨_, _, .finishWorker i hplace, trivial⟩
  | leaving => exact ⟨_, _, .leaveWorker i hplace, trivial⟩
  | exited => simp_all

theorem Inv.goes_on (h : Inv s) (hmain : s.main ≠ .outside) : ∃ e t, Step s e t ∧ e.Ordinary := by
  have hfits := h.main
  unfold MainPlace.Fits at hfits
  cases hplace : s.main with
  | outside => exact absurd hplace hmain
  | stripes within =>
    cases within with
    | claiming => exact ⟨_, _, .claimMain hplace, trivial⟩
    | executing k => exact ⟨_, _, .finishMain hplace, trivial⟩
  | waiting asleep =>
    cases asleep with
    | false =>
      by_cases hpending : 0 < s.pool.started ∧ 0 < s.pool.pending
      · exact ⟨_, _, .checkMain hplace hpending, trivial⟩
      · exact ⟨_, _, .ret hplace hpending, trivial⟩
    | true =>
      -- the caller sleeps only while some worker is pending, and that one can go on
      rw [hplace] at hfits
      have hsome : ¬ ∀ i, (s.worker i).AtRest s.pool := by
        intro hrest
        have hzero := h.pending_eq_zero.mpr hrest
        have hpositive := (hfits.2 rfl).2
        omega
      obtain ⟨i, hi⟩ := not_forall.mp hsome
      exact h.worker_goes_on hi
  | joining k =>
    rw [hplace] at hfits
    by_cases hk : k = n
    · rw [hk] at hplace
      exact ⟨_, _, .stopped hplace, trivial⟩
    have hlt : k < n := by omega
    have hworker := h.worker ⟨k, hlt⟩
    rw [hplace] at hworker
    unfold Worker.Fits at hworker
    cases hat : (s.worker ⟨k, hlt⟩).place with
    | waiting asleep =>
      cases asleep with
      | true => simp [hat, hfits.2] at hworker
      | false => exact ⟨_, _, .checkWorker _ hat, trivial⟩
    | stripes within => simp [hat] at hworker
    | leaving => simp [hat] at hworker
    | exited => exact ⟨_, _, .join ⟨k, hlt⟩ hplace hat, trivial⟩

theorem work_move {s : System n Job} {i : Fin n} {x : Worker} {p : Pool Job} {main : MainPlace}
    (hgeneration : p.generation = s.pool.generation)
    (hless : 2 * (ggfeStripeCount - p.nextStripe) + main.weight n +
        x.weight s.pool.generation <
      2 * (ggfeStripeCount - s.pool.nextStripe) + s.main.weight n +
        (s.worker i).weight s.pool.generation) :
    System.work ⟨p, main, Function.update s.worker i x⟩ < s.work := by
  have hsum := sum_update_add s.worker i x (Worker.weight s.pool.generation)
  unfold System.work
  dsimp only
  rw [hgeneration]
  omega

theorem weight_check {p : Pool Job} {w : Worker} (hplace : w.place = .waiting false) :
    (w.check p).weight p.generation < w.weight p.generation := by
  unfold Worker.check
  by_cases hdown : p.shutdown = true
  · rw [if_pos hdown]
    simp only [Worker.weight, hplace]
    split <;> omega
  · rw [if_neg hdown]
    by_cases heq : p.generation = w.seen
    · rw [if_pos heq]
      simp [Worker.weight, hplace, ← heq]
    · rw [if_neg heq]
      have hne : ¬ w.seen = p.generation := fun he => heq he.symm
      simp [Worker.weight, hplace, hne, Stripes.weight]

theorem weight_wake (main : MainPlace) : main.wake.weight n ≤ main.weight n + 1 := by
  unfold MainPlace.wake
  split
  · rename_i asleep
    cases asleep <;> simp [MainPlace.weight]
  · omega

theorem Inv.work_lt (h : Inv s) (hstep : Step s e t) (hmain : s.main ≠ .outside)
    (hord : e.Ordinary) : t.work < s.work := by
  cases hstep with
  | assign job hout => exact absurd hout hmain
  | call hout => exact absurd hout hmain
  | stop hout => exact absurd hout hmain
  | lookMain _ => exact hord.elim
  | lookWorker _ _ => exact hord.elim
  | spuriousMain _ => exact hord.elim
  | spuriousWorker _ _ => exact hord.elim
  | claimMain hplace =>
    unfold System.work
    rw [hplace]
    dsimp only [Pool.claimed]
    split <;> simp only [MainPlace.weight, Stripes.weight] <;> omega
  | claimWorker i hplace =>
    show System.work ⟨s.pool.claimed, s.main, Function.update s.worker i _⟩ < s.work
    refine work_move rfl ?_
    simp only [Worker.weight, hplace, Pool.claimed, Stripes.weight]
    by_cases hlt : s.pool.nextStripe < ggfeStripeCount
    · simp only [if_pos hlt]
      omega
    · simp only [if_neg hlt]
      omega
  | finishMain hplace =>
    unfold System.work
    rw [hplace]
    simp only [MainPlace.weight, Stripes.weight]
    omega
  | finishWorker i hplace =>
    refine work_move rfl ?_
    simp only [Worker.weight, hplace, Stripes.weight]
    omega
  | checkWorker i hplace =>
    have hless := weight_check (p := s.pool) hplace
    apply work_move rfl
    omega
  | leaveWorker i hplace =>
    have hfits := h.worker i
    simp only [Worker.Fits, hplace] at hfits
    have hwake := @weight_wake n s.main
    refine work_move rfl ?_
    simp only [Worker.weight, hplace, hfits.1, if_true]
    split <;> omega
  | checkMain hplace hpending =>
    unfold System.work
    rw [hplace]
    simp only [MainPlace.weight]
    omega
  | ret hplace hpending =>
    unfold System.work
    rw [hplace]
    simp only [MainPlace.weight]
    omega
  | join i hplace hexited =>
    unfold System.work
    rw [hplace]
    simp only [MainPlace.weight]
    have := i.isLt
    omega
  | stopped hplace =>
    unfold System.work
    rw [hplace]
    simp only [MainPlace.weight]
    omega

theorem exists_return {es : List (Event n Job)} {start : System n Job}
    (h : Run Step start es s) (hinv : Inv s) :
    ∃ fs t, Run Step start (es ++ fs) t ∧ t.main = .outside := by
  generalize hwork : s.work = bound
  induction bound using Nat.strongRecOn generalizing es s with
  | ind bound ih =>
    by_cases hmain : s.main = .outside
    · exact ⟨[], s, by rwa [List.append_nil], hmain⟩
    · obtain ⟨e, u, hstep, hord⟩ := hinv.goes_on hmain
      obtain ⟨fs, t, hrun, hout⟩ := ih u.work (hwork ▸ hinv.work_lt hstep hmain hord)
        (h.concat hstep) (hinv.step hstep) rfl
      exact ⟨e :: fs, t, by simpa using hrun, hout⟩

end Progress

section HandOff

variable {es : List (Event n Job)} {s : System n Job} {job : Job}

theorem inv_run (h : Run Step (poolStart n job) es s) : Inv s :=
  h.keeps (inv_poolStart job) fun hinv hstep => hinv.step hstep

theorem trace_run (h : Run Step (poolStart n job) es s) : Trace es s := by
  apply h.invariant
  · constructor
    · exact fun _ => .start
    · intro hin
      simp [poolStart] at hin
  · exact fun hrun htrace hstep => htrace.step (inv_run hrun) hstep

/-- Any number of workers, in any order of their steps, executes every stripe of every job
once, by the job's own fields, before the call returns. -/
theorem pool_hands_off (h : Run Step (poolStart n job) es s) : HandedOff es s := by
  have hinv := inv_run h
  have htrace := trace_run h
  constructor
  · intro hout
    exact ⟨htrace.served hout, fun i => (hinv.worker i).atRest hout⟩
  · intro hin
    obtain ⟨before, during, hes, hserved, hwithin, hlist⟩ := htrace.serving hin
    refine ⟨before, during, hes, hserved, hwithin, ?_, hlist.subperm⟩
    rw [hlist.claimed]
    exact List.nodup_range
  · intro hmain
    exact ⟨hinv.goes_on hmain, fun e t hstep hord => hinv.work_lt hstep hmain hord⟩
  · intro hdown
    constructor
    · intro i hplace
      have hfits := hinv.worker i
      simp [Worker.Fits, hplace, hdown] at hfits
    · intro hjoin
      exact hinv.exited_of_started ((hinv.shutdown hdown).resolve_right hjoin)

/-- Three workers, two calls with different jobs and the end of the pool. -/
theorem pool_hands_off_sample : ∃ es fs gs s, s.main = .outside ∧
    HandedOff (n := 3) (.call 1 :: es ++ [.assign 2] ++ [.call 2] ++ fs ++ [.stop] ++ gs) s := by
  have hcall : Run Step (poolStart 3 1) [.call 1] (poolRun (poolStart 3 1)) :=
    .single (.call rfl)
  obtain ⟨es, t, hrun, hout⟩ := exists_return hcall (inv_run hcall)
  have hsecond := (hrun.concat (.assign 2 hout)).concat (.call hout)
  obtain ⟨fs, u, hrun', hout'⟩ := exists_return hsecond (inv_run hsecond)
  have hstop := hrun'.concat (.stop hout')
  obtain ⟨gs, v, hrun'', hout''⟩ := exists_return hstop (inv_run hstop)
  exact ⟨es, fs, gs, v, hout'', pool_hands_off hrun''⟩

end HandOff

end PlumosBubble.Ggfe.Threads
