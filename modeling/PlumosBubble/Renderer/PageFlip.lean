import PlumosBubble.Transition.Run

/-! `plumos_fbdev_drm_present`: page flips between two buffers. The kernel takes a flip only
while none is pending, completes it at any later time by showing its buffer, and queues one
event for it. A wait that fails gives up on a flip that the kernel has accepted. -/

namespace PlumosBubble.Renderer

open Transition

/-- The two buffers, which are those of the indices 0 and 1. -/
inductive Buffer
  | first
  | second
  deriving DecidableEq

def Buffer.other : Buffer → Buffer
  | first => second
  | second => first

/-- Where the renderer is: it draws, or it waits for the events of a flip. -/
inductive Place
  | drawing
  | waiting
  deriving DecidableEq

/-- The fields of the renderer, and the kernel's side of the display. -/
structure Display where
  place : Place
  /-- `drm_page_flip_pending`. -/
  flipPending : Bool
  /-- `drm_front`. -/
  front : Buffer
  /-- `drm_draw`. -/
  draw : Buffer
  /-- The buffer whose map is `mem`. -/
  mem : Buffer
  /-- The buffer that is scanned out. -/
  scanout : Buffer
  /-- The target of the flip that is pending. -/
  target : Option Buffer
  /-- How many events are queued. -/
  events : ℕ
  deriving DecidableEq

/-- What `plumos_fbdev_drm_init` leaves behind: the first buffer is set on the CRTC. -/
def Display.init : Display where
  place := .drawing
  flipPending := false
  front := .first
  draw := .second
  mem := .second
  scanout := .first
  target := none
  events := 0

/-- The steps of a present and of the kernel. `gaveUp` is a wait that ends because `poll` or
`drmHandleEvent` fails or `poll` times out; `handled n` is a `drmHandleEvent` that reads `n`
events. -/
inductive Event
  | completed
  | refused
  | accepted
  | gaveUp
  | handled (n : ℕ)
  | presented
  deriving DecidableEq

inductive Step : Display → Event → Display → Prop
  | completed {s : Display} {b : Buffer} : s.target = some b →
      Step s .completed { s with scanout := b, target := none, events := s.events + 1 }
  | refused {s : Display} : s.place = .drawing →
      Step s .refused { s with flipPending := false }
  | accepted {s : Display} : s.place = .drawing → s.target = none →
      Step s .accepted { s with place := .waiting, flipPending := true, target := some s.draw }
  | gaveUp {s : Display} : s.place = .waiting → s.flipPending = true →
      Step s .gaveUp { s with place := .drawing, flipPending := false }
  | handled {s : Display} {n : ℕ} : s.place = .waiting → s.flipPending = true → n ≤ s.events →
      Step s (.handled n)
        { s with events := s.events - n, flipPending := s.flipPending && n = 0 }
  | presented {s : Display} : s.place = .waiting → s.flipPending = false →
      Step s .presented
        { s with place := .drawing, front := s.draw, draw := s.draw.other, mem := s.draw.other }

/-- Nothing is seen of what is being drawn; a present that has just returned 1 has shown the
frame, which is in the buffer not drawn into. -/
def Hidden (events : List Event) (s : Display) : Prop :=
  (s.place = .drawing → s.scanout ≠ s.mem ∧ s.target ≠ some s.mem) ∧
    ∀ before, events = before ++ [.presented] → s.scanout = s.front

/-- What holds as long as no wait is given up. -/
inductive Settled (s : Display) : Prop
  | drawing : s.place = .drawing → s.target = none → s.events = 0 → s.scanout = s.draw.other →
      Settled s
  | pending : s.place = .waiting → s.flipPending = true → s.target = some s.draw →
      s.events = 0 → s.scanout = s.draw.other → Settled s
  | shown : s.place = .waiting → s.target = none → s.scanout = s.draw →
      s.events = (if s.flipPending then 1 else 0) → Settled s

/-- The fields of the renderer agree. -/
structure Fields (s : Display) : Prop where
  front : s.front = s.draw.other
  mem : s.mem = s.draw

variable {s t : Display} {e : Event} {events : List Event}

theorem Buffer.other_ne (b : Buffer) : b.other ≠ b := by
  cases b <;> simp [Buffer.other]

@[simp] theorem Buffer.other_other (b : Buffer) : b.other.other = b := by
  cases b <;> rfl

theorem fields_step (h : Fields s) (hstep : Step s e t) : Fields t := by
  cases hstep with
  | presented hplace hflip => exact ⟨(Buffer.other_other s.draw).symm, rfl⟩
  | completed _ => exact ⟨h.front, h.mem⟩
  | refused _ => exact ⟨h.front, h.mem⟩
  | accepted _ _ => exact ⟨h.front, h.mem⟩
  | gaveUp _ _ => exact ⟨h.front, h.mem⟩
  | handled _ _ _ => exact ⟨h.front, h.mem⟩

theorem settled_step (h : Settled s) (hstep : Step s e t) (he : e ≠ .gaveUp) : Settled t := by
  cases hstep with
  | completed hb =>
    cases h with
    | drawing _ htarget _ _ =>
      rw [htarget] at hb
      cases hb
    | pending hplace hflip htarget hevents hscan =>
      rw [htarget] at hb
      cases hb
      exact .shown hplace rfl rfl (by simp [hflip, hevents])
    | shown _ htarget _ _ =>
      rw [htarget] at hb
      cases hb
  | refused hplace =>
    cases h with
    | drawing _ htarget hevents hscan => exact .drawing hplace htarget hevents hscan
    | pending hwaiting _ _ _ _ => rw [hplace] at hwaiting; cases hwaiting
    | shown hwaiting _ _ _ => rw [hplace] at hwaiting; cases hwaiting
  | accepted hplace htarget =>
    cases h with
    | drawing _ _ hevents hscan => exact .pending rfl rfl rfl hevents hscan
    | pending hwaiting _ _ _ _ => rw [hplace] at hwaiting; cases hwaiting
    | shown hwaiting _ _ _ => rw [hplace] at hwaiting; cases hwaiting
  | gaveUp _ _ => exact absurd rfl he
  | @handled n hplace hflip hn =>
    cases h with
    | drawing hdrawing _ _ _ => rw [hplace] at hdrawing; cases hdrawing
    | pending _ _ htarget hevents hscan =>
      have hzero : n = 0 := by omega
      subst hzero
      exact .pending hplace (by simp [hflip]) htarget hevents hscan
    | shown _ htarget hscan hevents =>
      rw [if_pos hflip] at hevents
      refine .shown hplace htarget hscan ?_
      by_cases hzero : n = 0
      · simp [hflip, hzero, hevents]
      · simp only [hzero, decide_false, Bool.and_false, Bool.false_eq_true, if_false]
        omega
  | presented hplace hflip =>
    cases h with
    | drawing hdrawing _ _ _ => rw [hplace] at hdrawing; cases hdrawing
    | pending _ hwaits _ _ _ => rw [hflip] at hwaits; cases hwaits
    | shown _ htarget hscan hevents =>
      exact .drawing rfl htarget (by simpa [hflip] using hevents) (by simp [hscan])

theorem fields_run (h : Run Step Display.init events t) : Fields t :=
  h.keeps (I := Fields) ⟨rfl, rfl⟩ fun hfields hstep => fields_step hfields hstep

theorem settled_run (h : Run Step Display.init events t) (hnone : Event.gaveUp ∉ events) :
    Settled t := by
  refine h.invariant (I := fun events t => Event.gaveUp ∉ events → Settled t)
    (fun _ => .drawing rfl rfl rfl rfl) (fun {es s e u} _ hold hstep hnot => ?_) hnone
  rw [List.mem_append, List.mem_singleton, not_or] at hnot
  exact settled_step (hold hnot.1) hstep (Ne.symm hnot.2)

theorem hidden_of_settled (hfields : Fields t) (h : Settled t)
    (hlast : ∀ before, events = before ++ [.presented] → t.place = .drawing) :
    Hidden events t := by
  constructor
  · intro hplace
    rw [hfields.mem]
    cases h with
    | drawing _ htarget _ hscan =>
      rw [htarget, hscan]
      exact ⟨Buffer.other_ne _, by simp⟩
    | pending hwaiting _ _ _ _ => rw [hplace] at hwaiting; cases hwaiting
    | shown hwaiting _ _ _ => rw [hplace] at hwaiting; cases hwaiting
  · intro before heq
    have hplace := hlast before heq
    rw [hfields.front]
    cases h with
    | drawing _ _ _ hscan => exact hscan
    | pending hwaiting _ _ _ _ => rw [hplace] at hwaiting; cases hwaiting
    | shown hwaiting _ _ _ => rw [hplace] at hwaiting; cases hwaiting

theorem place_presented {before : List Event}
    (h : Run Step Display.init (before ++ [.presented]) t) : t.place = .drawing := by
  obtain ⟨s, -, hstep⟩ := h.last
  cases hstep
  rfl

theorem not_hidden_gaveUp (hfields : Fields s) (h : Settled s) (hstep : Step s .gaveUp t)
    (events : List Event) : ¬Hidden events t := by
  rintro ⟨hhidden, -⟩
  cases hstep with
  | gaveUp hplace hflip =>
    obtain ⟨hscan, htarget⟩ := hhidden rfl
    cases h with
    | drawing hdrawing _ _ _ => rw [hplace] at hdrawing; cases hdrawing
    | pending _ _ hpending _ _ => exact htarget (by rw [hpending, hfields.mem])
    | shown _ _ hshown _ => exact hscan (by rw [hshown, hfields.mem])

theorem hidden_iff (h : Run Step Display.init events t) :
    (∀ es rest s, events = es ++ rest → Run Step Display.init es s → Hidden es s) ↔
      Event.gaveUp ∉ events := by
  constructor
  · intro hall hmem
    obtain ⟨es, rest, rfl, hfirst⟩ := List.eq_append_cons_of_mem hmem
    have hsplit : es ++ Event.gaveUp :: rest = (es ++ [.gaveUp]) ++ rest := by simp
    rw [hsplit] at h hall
    obtain ⟨u, hu, -⟩ := h.split
    have hhidden := hall (es ++ [.gaveUp]) rest u rfl hu
    obtain ⟨s, hs, hstep⟩ := hu.last
    exact not_hidden_gaveUp (fields_run hs) (settled_run hs hfirst) hstep _ hhidden
  · rintro hnone es rest s rfl hs
    rw [List.mem_append, not_or] at hnone
    refine hidden_of_settled (fields_run hs) (settled_run hs hnone.1) ?_
    rintro before rfl
    exact place_presented hs

end PlumosBubble.Renderer
