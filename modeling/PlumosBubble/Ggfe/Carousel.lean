import PlumosBubble.Sequence.History
import PlumosBubble.Ggfe.Scroll

/-! Runs of the carousel: any sequence of requests, position reads and changes of the
motion model. What a queued request may do is read off the log: a motion that starts from
the queue follows the record that queued it, with nothing in between. -/

namespace PlumosBubble.Ggfe

open Sequence ScrollState

/-- A call on the carousel. -/
inductive ScrollOp where
  | request (delta now : ℤ)
  | position (now : ℤ)
  | toggle
  deriving DecidableEq

/-- The carousel and its log so far. -/
structure Ride where
  scroll : ScrollState
  log : List ScrollLog
  deriving DecidableEq

/-- A motion that starts from the queue follows the record that queued its target. -/
def Answers (before : List ScrollLog) : ScrollLog → Prop
  | .startQueued _ _ selected _ =>
    ∃ logical delta, before.getLast? = some (.queued selected logical delta)
  | _ => True

/-- Every motion that starts from the queue follows the record that queued its target. -/
def Answered (log : List ScrollLog) : Prop := Always Answers log

section Runs

variable (round : ℚ → ℚ) (count : ℤ)

/-- One call. -/
def Ride.step (r : Ride) : ScrollOp → Ride
  | .request delta now =>
    let (scroll, log) := r.scroll.requestAt round count delta now
    ⟨scroll, r.log ++ log⟩
  | .position now =>
    let (scroll, log, _) := r.scroll.position round now
    ⟨scroll, r.log ++ log⟩
  | .toggle => ⟨r.scroll.toggleMotion, r.log⟩

def Ride.run (r : Ride) (ops : List ScrollOp) : Ride := ops.foldl (Ride.step round count) r

@[simp] theorem Ride.run_nil (r : Ride) : r.run round count [] = r := rfl

@[simp] theorem Ride.run_cons (r : Ride) (op : ScrollOp) (ops : List ScrollOp) :
    r.run round count (op :: ops) = (r.step round count op).run round count ops := rfl

theorem Ride.run_append (r : Ride) (ops rest : List ScrollOp) :
    r.run round count (ops ++ rest) = (r.run round count ops).run round count rest :=
  List.foldl_append

/-- At rest, with nothing queued. -/
structure Settled (s : ScrollState) : Prop where
  nonneg : 0 ≤ s.target
  lt : s.target < count
  idle : s.active = false
  logical : s.toPos = s.target
  physical : s.fromPos = round s.target
  unqueued : s.pendingActive = false

/-- The three positions agree, and a queued request waits behind the running motion. -/
structure Accounted (r : Ride) : Prop where
  nonneg : 0 ≤ r.scroll.target
  lt : r.scroll.target < count
  logical : r.scroll.toPos ≡ r.scroll.target [ZMOD count]
  rest : r.scroll.active = false →
    r.scroll.fromPos = round r.scroll.target ∧ r.scroll.toPos = r.scroll.target
  pending : r.scroll.pendingActive = true →
    0 ≤ r.scroll.pendingTarget ∧ r.scroll.pendingTarget < count ∧
      r.scroll.pendingTo ≡ r.scroll.pendingTarget [ZMOD count]
  behind : r.scroll.pendingActive = true → r.scroll.active = true ∧
    ∃ logical delta, r.log.getLast? = some (.queued r.scroll.pendingTarget logical delta)
  answered : Answered r.log

/-- No `int` overflows in the call, and in the snap model it neither moves the carousel
on nor ends its motion while a request of the gallery model is still queued. -/
def Safe (s : ScrollState) : ScrollOp → Prop
  | .request delta _ =>
    IsInt (s.target + delta.tmod count) ∧ IsInt (s.toPos + delta.tmod count) ∧
      (s.model = .snap → s.pendingActive = true → ¬Moves count delta)
  | .position now =>
    s.model = .snap → s.pendingActive = true → now - s.startMs < s.durationMs
  | .toggle => True

instance (s : ScrollState) (op : ScrollOp) : Decidable (Safe count s op) :=
  match op with
  | .request .. => inferInstanceAs (Decidable (_ ∧ _ ∧ _))
  | .position _ => inferInstanceAs (Decidable (_ → _))
  | .toggle => inferInstanceAs (Decidable True)

/-- Every call of the run is safe where it is made. -/
def SafeRun (r : Ride) : List ScrollOp → Prop
  | [] => True
  | op :: ops => Safe count r.scroll op ∧ SafeRun (r.step round count op) ops

instance decidableSafeRun (r : Ride) (ops : List ScrollOp) :
    Decidable (SafeRun round count r ops) :=
  match ops with
  | [] => inferInstanceAs (Decidable True)
  | op :: ops =>
    have := decidableSafeRun (r.step round count op) ops
    inferInstanceAs (Decidable (_ ∧ _))

variable {round count}

theorem Settled.accounted {s : ScrollState} (h : Settled round count s) :
    Accounted round count ⟨s, []⟩ where
  nonneg := h.nonneg
  lt := h.lt
  logical := by
    show s.toPos ≡ s.target [ZMOD count]
    rw [h.logical]
  rest _ := ⟨h.physical, h.logical⟩
  pending hpending := by simp [h.unqueued] at hpending
  behind hpending := by simp [h.unqueued] at hpending
  answered := Always.nil

theorem Accounted.position {r : Ride} (h : Accounted round count r) (now : ℤ)
    (hsafe : Safe count r.scroll (.position now)) :
    Accounted round count (r.step round count (.position now)) := by
  obtain ⟨-, hstate, hlog⟩ | ⟨hactive, -, -, hpending, hstate, hlog⟩ |
    ⟨hactive, hdue, hmodel, hstate, hlog⟩ := position_cases round r.scroll now
  · simp only [Ride.step, hstate, hlog, List.append_nil]
    exact h
  · obtain ⟨hnonneg, hlt, hlogical⟩ := h.pending hpending
    simp only [Ride.step, hstate, hlog]
    exact {
      nonneg := hnonneg
      lt := hlt
      logical := hlogical
      rest := fun hidle => by simp [ScrollState.takeQueued] at hidle
      pending := fun hqueued => by simp [ScrollState.takeQueued] at hqueued
      behind := fun hqueued => by simp [ScrollState.takeQueued] at hqueued
      answered := h.answered.concat (h.behind hpending).2 }
  · have hunqueued : r.scroll.pendingActive = false := by
      rcases hmodel with hsnap | hfalse
      · by_contra hne
        have := hsafe hsnap (by simpa using hne)
        omega
      · exact hfalse
    simp only [Ride.step, hstate, hlog, List.append_nil]
    exact {
      nonneg := h.nonneg
      lt := h.lt
      logical := Int.ModEq.refl _
      rest := fun _ => ⟨rfl, rfl⟩
      pending := fun hqueued => by simp [ScrollState.settle, hunqueued] at hqueued
      behind := fun hqueued => by simp [ScrollState.settle, hunqueued] at hqueued
      answered := h.answered }

theorem Accounted.aim {r : Ride} (h : Accounted round count r) (hcount : 0 < count)
    (hunqueued : r.scroll.pendingActive = false) (delta : ℤ)
    (htarget : IsInt (r.scroll.target + delta)) (hlogical : IsInt (r.scroll.toPos + delta))
    (origin : ℚ) (now : ℤ) (line : ScrollLog) (hline : Answers r.log line) :
    Accounted round count ⟨r.scroll.aim origin
      (wrapIndex (toInt (r.scroll.target + delta)) count)
      (toInt (r.scroll.toPos + delta)) now, r.log ++ [line]⟩ where
  nonneg := wrapIndex_nonneg hcount _
  lt := wrapIndex_lt hcount _
  logical := by
    show toInt _ ≡ wrapIndex (toInt _) count [ZMOD count]
    rw [toInt_of_isInt htarget, toInt_of_isInt hlogical]
    exact (h.logical.add_right delta).trans (wrapIndex_modEq hcount _).symm
  rest hidle := by simp [ScrollState.aim] at hidle
  pending hpending := by simp [ScrollState.aim, hunqueued] at hpending
  behind hpending := by simp [ScrollState.aim, hunqueued] at hpending
  answered := h.answered.concat hline

theorem Accounted.enqueue {r : Ride} (h : Accounted round count r) (hcount : 0 < count)
    (hactive : r.scroll.active = true) {delta : ℤ}
    (htarget : IsInt (r.scroll.target + delta)) (hlogical : IsInt (r.scroll.toPos + delta)) :
    Accounted round count ⟨r.scroll.enqueue
      (wrapIndex (toInt (r.scroll.target + delta)) count) (toInt (r.scroll.toPos + delta)),
      r.log ++ [.queued (wrapIndex (toInt (r.scroll.target + delta)) count)
        (toInt (r.scroll.toPos + delta)) delta]⟩ where
  nonneg := h.nonneg
  lt := h.lt
  logical := h.logical
  rest hidle := by simp [ScrollState.enqueue, hactive] at hidle
  pending _ := by
    refine ⟨wrapIndex_nonneg hcount _, wrapIndex_lt hcount _, ?_⟩
    show toInt _ ≡ wrapIndex (toInt _) count [ZMOD count]
    rw [toInt_of_isInt htarget, toInt_of_isInt hlogical]
    exact (h.logical.add_right delta).trans (wrapIndex_modEq hcount _).symm
  behind _ := ⟨hactive, _, _, List.getLast?_concat ..⟩
  answered := h.answered.concat trivial

theorem Accounted.request {r : Ride} (h : Accounted round count r) (hcount : 0 < count)
    {delta now : ℤ} (hsafe : Safe count r.scroll (.request delta now)) :
    Accounted round count (r.step round count (.request delta now)) := by
  obtain ⟨htarget, hlogical, hqueue⟩ := hsafe
  by_cases hmoves : Moves count delta
  · cases hmodel : r.scroll.model with
    | snap =>
      have hunqueued : r.scroll.pendingActive = false := by
        by_contra hne
        exact hqueue hmodel (by simpa using hne) hmoves
      have hposition := h.position now fun _ hpending => by simp [hunqueued] at hpending
      obtain ⟨origin, hrequest⟩ := ScrollState.requestAt_snap round hmoves hmodel now
      -- the read either leaves the carousel alone or settles it on its target
      have hkept : (r.scroll.position round now).1.pendingActive = false ∧
          (r.scroll.position round now).1.target = r.scroll.target ∧
          ((r.scroll.position round now).1.toPos = r.scroll.toPos ∨
            (r.scroll.position round now).1.toPos = r.scroll.target) := by
        obtain ⟨-, hstate, -⟩ | ⟨-, -, -, hpending, -⟩ | ⟨-, -, -, hstate, -⟩ :=
          position_cases round r.scroll now
        · rw [hstate]
          exact ⟨hunqueued, rfl, Or.inl rfl⟩
        · simp [hunqueued] at hpending
        · rw [hstate]
          exact ⟨hunqueued, rfl, Or.inr rfl⟩
      obtain ⟨hpending', htarget', hlogical'⟩ := hkept
      have haim := hposition.aim hcount hpending' (delta.tmod count)
        (by simpa [Ride.step, htarget'] using htarget)
        (by
          rcases hlogical' with heq | heq
          · simpa [Ride.step, heq] using hlogical
          · simpa [Ride.step, heq] using htarget)
        origin now (.start origin
          (toInt ((r.scroll.position round now).1.toPos + delta.tmod count))
          (wrapIndex (toInt ((r.scroll.position round now).1.target + delta.tmod count)) count)
          (delta.tmod count) r.scroll.durationMs .snap) trivial
      simp only [Ride.step, hrequest, ← List.append_assoc]
      exact haim
    | gallery =>
      have hrequest := ScrollState.requestAt_gallery round hmoves hmodel now
      cases hactive : r.scroll.active with
      | true =>
        simp only [Ride.step, hrequest, hactive, if_true]
        exact h.enqueue hcount hactive htarget hlogical
      | false =>
        have hunqueued : r.scroll.pendingActive = false := by
          by_contra hne
          have hrunning := (h.behind (by simpa using hne)).1
          simp [hactive] at hrunning
        simp only [Ride.step, hrequest, hactive, Bool.false_eq_true, if_false]
        exact h.aim hcount hunqueued _ htarget hlogical _ now _ trivial
  · simp only [Ride.step, ScrollState.requestAt_of_not_moves round hmoves, List.append_nil]
    exact h

theorem Accounted.toggle {r : Ride} (h : Accounted round count r) :
    Accounted round count (r.step round count .toggle) where
  nonneg := h.nonneg
  lt := h.lt
  logical := h.logical
  rest := h.rest
  pending := h.pending
  behind := h.behind
  answered := h.answered

theorem Accounted.step {r : Ride} (h : Accounted round count r) (hcount : 0 < count)
    {op : ScrollOp} (hsafe : Safe count r.scroll op) :
    Accounted round count (r.step round count op) := by
  cases op with
  | request delta now => exact h.request hcount hsafe
  | position now => exact h.position now hsafe
  | toggle => exact h.toggle

theorem Accounted.run (hcount : 0 < count) {ops : List ScrollOp} :
    ∀ {r : Ride}, Accounted round count r → SafeRun round count r ops →
      Accounted round count (r.run round count ops) := by
  induction ops with
  | nil => exact fun h _ => h
  | cons op ops ih => exact fun h hsafe => ih (h.step hcount hsafe.1) hsafe.2

theorem SafeRun.append {ops rest : List ScrollOp} :
    ∀ {r : Ride}, SafeRun round count r (ops ++ rest) →
      SafeRun round count r ops ∧ SafeRun round count (r.run round count ops) rest := by
  induction ops with
  | nil => exact fun h => ⟨trivial, h⟩
  | cons op ops ih =>
    intro r h
    obtain ⟨hops, hrest⟩ := ih h.2
    exact ⟨⟨h.1, hops⟩, hrest⟩

/-- The sum of the distances asked for. -/
def travel : List ScrollOp → ℤ
  | [] => 0
  | .request delta _ :: ops => delta + travel ops
  | _ :: ops => travel ops

variable (round) in
theorem snap_step {r : Ride} (hcount : 0 < count) (hmodel : r.scroll.model = .snap)
    {op : ScrollOp} (hop : op ≠ .toggle) (hsafe : Safe count r.scroll op) :
    (r.step round count op).scroll.model = .snap ∧
      (r.step round count op).scroll.target ≡ r.scroll.target + travel [op] [ZMOD count] := by
  have hread : ∀ now, (r.scroll.position round now).1.model = .snap ∧
      (r.scroll.position round now).1.target = r.scroll.target := by
    intro now
    obtain ⟨-, hstate, -⟩ | ⟨-, -, hgallery, -⟩ | ⟨-, -, -, hstate, -⟩ :=
      position_cases round r.scroll now
    · rw [hstate]
      exact ⟨hmodel, rfl⟩
    · simp [hmodel] at hgallery
    · rw [hstate]
      exact ⟨hmodel, rfl⟩
  cases op with
  | toggle => exact absurd rfl hop
  | position now =>
    refine ⟨(hread now).1, ?_⟩
    show (r.scroll.position round now).1.target ≡ r.scroll.target + 0 [ZMOD count]
    rw [(hread now).2, Int.add_zero]
  | request delta now =>
    by_cases hmoves : Moves count delta
    · obtain ⟨origin, hrequest⟩ := ScrollState.requestAt_snap round hmoves hmodel now
      simp only [Ride.step, hrequest]
      refine ⟨(hread now).1, ?_⟩
      show wrapIndex (toInt ((r.scroll.position round now).1.target + _)) count ≡
        r.scroll.target + (delta + 0) [ZMOD count]
      rw [(hread now).2, toInt_of_isInt hsafe.1, Int.add_zero]
      exact (wrapIndex_modEq hcount _).trans ((tmod_modEq delta count).add_left _)
    · simp only [Ride.step, ScrollState.requestAt_of_not_moves round hmoves]
      refine ⟨hmodel, ?_⟩
      show r.scroll.target ≡ r.scroll.target + (delta + 0) [ZMOD count]
      have hzero : delta ≡ 0 [ZMOD count] := by
        by_cases hone : count ≤ 1
        · obtain rfl : count = 1 := by omega
          exact Int.modEq_one
        · have hmod : delta.tmod count = 0 := by
            by_contra hne
            exact hmoves ⟨by omega, hne⟩
          rw [← hmod]
          exact (tmod_modEq delta count).symm
      rw [Int.add_zero]
      simpa using (hzero.symm.add_left r.scroll.target)

theorem snap_run (hcount : 0 < count) {ops : List ScrollOp} :
    ∀ {r : Ride}, r.scroll.model = .snap → .toggle ∉ ops → SafeRun round count r ops →
      (r.run round count ops).scroll.target ≡ r.scroll.target + travel ops [ZMOD count] := by
  induction ops with
  | nil =>
    intro r _ _ _
    show r.scroll.target ≡ r.scroll.target + 0 [ZMOD count]
    rw [Int.add_zero]
  | cons op ops ih =>
    intro r hmodel hops hsafe
    obtain ⟨hhead, htail⟩ : op ≠ .toggle ∧ ScrollOp.toggle ∉ ops := by
      constructor
      · rintro rfl
        exact hops List.mem_cons_self
      · exact fun hmem => hops (List.mem_cons_of_mem _ hmem)
    obtain ⟨hmodel', hstep⟩ := snap_step round hcount hmodel hhead hsafe.1
    have hrest := ih hmodel' htail hsafe.2
    have htravel : travel (op :: ops) = travel [op] + travel ops := by
      cases op <;> simp [travel]
    rw [Ride.run_cons, htravel, ← Int.add_assoc]
    exact hrest.trans (hstep.add_right _)

/-- In every run of safe calls from a settled carousel: the target is an entry and agrees
with the logical destination; at rest all three positions agree; a stretch in the snap
model moves the target by the sum of its requests; and a motion starts from the queue only
right after the request that it answers was queued, so no request is answered twice or
after another motion. -/
theorem carousel_accounting (round : ℚ → ℚ) {count : ℤ} (hcount : 1 ≤ count)
    {s : ScrollState} (hsettled : Settled round count s) {ops : List ScrollOp}
    (hsafe : SafeRun round count ⟨s, []⟩ ops) :
    (0 ≤ (Ride.run round count ⟨s, []⟩ ops).scroll.target ∧
      (Ride.run round count ⟨s, []⟩ ops).scroll.target < count ∧
      (Ride.run round count ⟨s, []⟩ ops).scroll.toPos ≡
        (Ride.run round count ⟨s, []⟩ ops).scroll.target [ZMOD count]) ∧
    ((Ride.run round count ⟨s, []⟩ ops).scroll.active = false →
      (Ride.run round count ⟨s, []⟩ ops).scroll.fromPos =
          round (Ride.run round count ⟨s, []⟩ ops).scroll.target ∧
        (Ride.run round count ⟨s, []⟩ ops).scroll.toPos =
          (Ride.run round count ⟨s, []⟩ ops).scroll.target) ∧
    (∀ before after, ops = before ++ after →
      (Ride.run round count ⟨s, []⟩ before).scroll.model = .snap → .toggle ∉ after →
      (Ride.run round count ⟨s, []⟩ ops).scroll.target =
        ((Ride.run round count ⟨s, []⟩ before).scroll.target + travel after) % count) ∧
    Answered (Ride.run round count ⟨s, []⟩ ops).log := by
  have hend := hsettled.accounted.run hcount hsafe
  refine ⟨⟨hend.nonneg, hend.lt, hend.logical⟩, hend.rest, ?_, hend.answered⟩
  intro before after hops hmodel hafter
  subst hops
  obtain ⟨-, hsafe'⟩ := hsafe.append
  have hmoved := snap_run hcount hmodel hafter hsafe'
  rw [← Ride.run_append] at hmoved
  rw [← hmoved.eq]
  exact (Int.emod_eq_of_lt hend.nonneg hend.lt).symm

theorem settled_startScroll {round : ℚ → ℚ} (hround : round 0 = 0) {count : ℤ}
    (hcount : 1 ≤ count) (model : Motion) (durationMs : ℤ) :
    Settled round count (startScroll model durationMs) :=
  ⟨le_rfl, hcount, rfl, rfl, by simp [startScroll, hround], rfl⟩

theorem carousel_accounting_sample :
    Answered (Ride.run id 5 ⟨startScroll .gallery 360, []⟩
      [.request 1 0, .request 1 10, .position 400, .position 800, .toggle, .request (-3) 900]).log :=
  (carousel_accounting id (by decide) (settled_startScroll rfl (by decide) .gallery 360)
    (by decide)).2.2.2

/-- A request queued in the gallery model, whose motion then ends in the snap model. -/
def strandedOps : List ScrollOp :=
  [.request 1 0, .request 1 10, .toggle, .position 300, .toggle, .request (-1) 1000,
    .position 1400]

/-- The stranded request starts a motion behind a request that it was not queued behind. -/
theorem stranded_request_starts :
    Settled id 5 (startScroll .gallery 360) ∧
      ¬Answered (Ride.run id 5 ⟨startScroll .gallery 360, []⟩ strandedOps).log := by
  refine ⟨settled_startScroll rfl (by decide) .gallery 360, ?_⟩
  intro h
  obtain ⟨logical, delta, hlast⟩ := h
    [.start 0 1 1 1 360 .gallery, .queued 2 2 1, .start 1 0 0 (-1) 360 .gallery]
    (.startQueued 0 2 2 360) [] (by decide)
  simp at hlast

end Runs

end PlumosBubble.Ggfe
