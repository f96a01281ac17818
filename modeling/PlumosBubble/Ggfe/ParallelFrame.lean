import PlumosBubble.Ggfe.HandOff

/-! The frame that the pool draws. Its threads write the stripes of a job in an order that nobody
decides, and go on to the next job; what they leave is what one thread leaves that does the jobs
one after the other. -/

namespace PlumosBubble.Ggfe.Threads

open Cart3d Cart3d.FloatOps Transition

variable {F : Type} [FloatOps F] {n : ℕ}

/-- The jobs that write the target: `GGFE_JOB_PREPARE` with its background, and
`GGFE_JOB_RASTER` with its list. -/
inductive FrameJob (F : Type) [FloatOps F] where
  | prepare (background : ℕ → Fin 3 → UInt8)
  | raster (draws : List (Draw F)) (zwrite : Bool)

section Frame

variable (width height : ℤ)

/-- What `ggfe_run_stripes` does in the rows of a stripe. -/
def FrameJob.band (job : FrameJob F) (pixels : ℕ → Pixel F) (stripe : ℤ × ℤ) : ℕ → Pixel F :=
  match job with
  | .prepare background => fun i =>
    if stripe.1 * width ≤ i ∧ i < stripe.2 * width then ⟨background i, const 0⟩ else pixels i
  | .raster draws zwrite => drawListBand width height draws zwrite stripe.1 stripe.2 pixels

/-- The job of one thread. -/
def FrameJob.whole (pixels : ℕ → Pixel F) (job : FrameJob F) : ℕ → Pixel F :=
  job.band width height pixels (0, height)

/-- What an event leaves of the frame: a stripe that is finished is written. -/
def paint (pixels : ℕ → Pixel F) : Event n (FrameJob F) → ℕ → Pixel F
  | .finish _ k job => job.band width height pixels (ggfeStripe height k)
  | _ => pixels

/-- The jobs of the calls, in order. -/
def calledJobs {Job : Type} (es : List (Event n Job)) : List Job :=
  es.filterMap fun
    | .call job => some job
    | _ => none

theorem calledJobs_append {Job : Type} (es fs : List (Event n Job)) :
    calledJobs (es ++ fs) = calledJobs es ++ calledJobs fs := List.filterMap_append

variable {width height}

theorem foldl_prepare (background : ℕ → Fin 3 → UInt8) (stripes : List (ℤ × ℤ))
    (pixels : ℕ → Pixel F) (i : ℕ) :
    stripes.foldl ((FrameJob.prepare background).band width height) pixels i =
      if ∃ stripe ∈ stripes, stripe.1 * width ≤ i ∧ i < stripe.2 * width then
        ⟨background i, const 0⟩ else pixels i := by
  induction stripes generalizing pixels with
  | nil => simp
  | cons stripe stripes ih =>
    rw [List.foldl_cons, ih]
    simp only [List.mem_cons, exists_eq_or_imp, FrameJob.band]
    by_cases hrest : ∃ stripe ∈ stripes, stripe.1 * width ≤ i ∧ i < stripe.2 * width
    · rw [if_pos hrest, if_pos (Or.inr hrest)]
    · rw [if_neg hrest]
      exact if_congr (or_iff_left hrest).symm rfl rfl

/-- Consecutive stripes cover their rows. -/
theorem exists_stripe_iff {a z : ℤ} {stripes : List (ℤ × ℤ)} (h : Consecutive a z stripes)
    (hwidth : 0 ≤ width) (i : ℤ) :
    (∃ stripe ∈ stripes, stripe.1 * width ≤ i ∧ i < stripe.2 * width) ↔
      a * width ≤ i ∧ i < z * width := by
  induction h with
  | nil y => simp
  | @cons a b z stripes hle hrest ih =>
    have hfirst := Int.mul_le_mul_of_nonneg_right hle hwidth
    have hlast := Int.mul_le_mul_of_nonneg_right hrest.le hwidth
    simp only [List.mem_cons, exists_eq_or_imp, ih]
    omega

theorem FrameJob.foldl_band (job : FrameJob F) (hwidth : 0 ≤ width) (hheight : 0 ≤ height)
    {order : List (ℤ × ℤ)} (horder : order.Perm (ggfeStripes height)) (pixels : ℕ → Pixel F) :
    order.foldl (job.band width height) pixels = job.whole width height pixels := by
  have hstripes := consecutive_ggfeStripes hheight
  cases job with
  | prepare background =>
    funext i
    rw [foldl_prepare]
    have hcover := exists_stripe_iff hstripes hwidth (i : ℤ)
    simp only [← horder.mem_iff] at hcover
    exact if_congr hcover rfl rfl
  | raster draws zwrite =>
    show drawStripes width height draws zwrite order pixels = drawListBand _ _ _ _ _ _ _
    rw [drawStripes_eq, drawListBand_eq, runAll_stripes hstripes horder]

end Frame

variable {width height : ℤ} {es : List (Event n (FrameJob F))} {job : FrameJob F}

theorem foldl_paint_within (h : ∀ e ∈ es, e.Within job) (pixels : ℕ → Pixel F) :
    es.foldl (paint width height) pixels =
      ((finishedStripes es).map (ggfeStripe height)).foldl (job.band width height) pixels := by
  induction es generalizing pixels with
  | nil => rfl
  | cons e es ih =>
    obtain ⟨he, hes⟩ := List.forall_mem_cons.mp h
    rw [List.foldl_cons, ih hes]
    cases e with
    | finish thread k job' =>
      cases (show job' = job from he)
      rfl
    | claim _ _ | look _ _ _ | check _ | leave _ | spurious _ => rfl
    | assign _ | call _ | ret | stop | join _ | stopped => exact he.elim

/-- A call leaves the frame of one thread that does its job. -/
theorem Complete.frame (h : Complete job es) (hwidth : 0 ≤ width) (hheight : 0 ≤ height)
    (pixels : ℕ → Pixel F) :
    es.foldl (paint width height) pixels = job.whole width height pixels := by
  rw [foldl_paint_within h.within]
  exact job.foldl_band hwidth hheight (h.finished.map _) pixels

theorem Complete.called (h : Complete job es) : calledJobs es = [] := by
  rw [calledJobs, List.filterMap_eq_nil_iff]
  intro e he
  cases e with
  | call _ => exact (h.within _ he).elim
  | _ => rfl

theorem Served.frame (h : Served es) (hwidth : 0 ≤ width) (hheight : 0 ≤ height)
    (pixels : ℕ → Pixel F) :
    es.foldl (paint width height) pixels =
      (calledJobs es).foldl (FrameJob.whole width height) pixels := by
  induction h with
  | start => rfl
  | @between es e _ he ih =>
    rw [List.foldl_append, ih, calledJobs_append, List.foldl_append]
    cases e with
    | assign _ | check _ | spurious _ | stop | join _ | stopped => rfl
    | claim _ _ | look _ _ _ | finish _ _ _ | leave _ | call _ | ret => exact he.elim
  | @call es during job _ hcomplete ih =>
    have hcalled : calledJobs (es ++ .call job :: during ++ [.ret]) = calledJobs es ++ [job] := by
      rw [calledJobs_append, calledJobs_append]
      show calledJobs es ++ job :: calledJobs during ++ [] = _
      rw [hcomplete.called, List.append_nil]
    rw [hcalled, List.foldl_append, List.foldl_append, List.foldl_append, ih, List.foldl_cons]
    exact hcomplete.frame hwidth hheight _

/-- Whatever the threads do when, between two calls the frame is that of one thread that has done
the jobs of all calls so far, in their order. -/
theorem frame_drawn {s : System n (FrameJob F)} (h : Run Step (poolStart n job) es s)
    (hout : ¬ s.main.InCall) (hwidth : 0 ≤ width) (hheight : 0 ≤ height)
    (pixels : ℕ → Pixel F) :
    es.foldl (paint width height) pixels =
      (calledJobs es).foldl (FrameJob.whole width height) pixels :=
  ((trace_run h).served hout).frame hwidth hheight pixels

def clearedJob : FrameJob ℚ := .prepare fun _ _ => 7

def drawnJob : FrameJob ℚ := .raster [sampleDraw] true

/-- The frame is cleared, and a triangle is drawn into it. -/
def sampleEvents (es fs : List (Event 3 (FrameJob ℚ))) : List (Event 3 (FrameJob ℚ)) :=
  .call clearedJob :: es ++ [.assign drawnJob] ++ [.call drawnJob] ++ fs

/-- Three workers. -/
theorem frame_drawn_sample : ∃ es fs,
    (sampleEvents es fs).foldl (paint 4 4) blackPixels =
      (calledJobs (sampleEvents es fs)).foldl (FrameJob.whole 4 4) blackPixels := by
  have hcall : Run Step (poolStart 3 clearedJob) [.call clearedJob]
      (poolRun (poolStart 3 clearedJob)) := .single (.call rfl)
  obtain ⟨es, t, hrun, hout⟩ := exists_return hcall (inv_run hcall)
  have hsecond := (hrun.concat (.assign drawnJob hout)).concat (.call hout)
  obtain ⟨fs, u, hrun', hout'⟩ := exists_return hsecond (inv_run hsecond)
  have hbetween : ¬u.main.InCall := by simp [hout', MainPlace.InCall]
  exact ⟨es, fs, frame_drawn hrun' hbetween (by decide) (by decide) blackPixels⟩

end PlumosBubble.Ggfe.Threads
