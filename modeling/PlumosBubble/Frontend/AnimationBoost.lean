import PlumosBubble.Frontend.Animation
import PlumosBubble.Frontend.GalleryRuns

/-! When the bracket of the animation boost holds. A launch from the gallery does not wait for the
slide that its render finds in progress, and what is given back may not arrive. Everything else
keeps the bracket. -/

namespace PlumosBubble.Animation

open Frontend Transition State
open Gallery (Screen Action Clock)

section Conditions

/-- The slide of TOP goes on behind a render. -/
def TopMoving (s : State) (look : Look) (now : ℤ) : Prop :=
  s.lists.screen = .top ∧ s.top.active = true ∧
    ¬(s.top.toPage = look.page s.topCursor ∧ look.slides = true ∧ 0 < s.top.durationMs ∧
      s.top.durationMs ≤ now - s.top.startMs)

/-- The slide of the gallery goes on behind a render, or another one has begun. -/
def GalleryMoving (lists : Gallery.State) (clock : Clock) : Prop :=
  lists.screen = .gallery ∧
    if startsPending lists clock = true then clock.again - clock.start < Gallery.transitionMs
    else lists.slide.active = true ∧ galleryEnded lists clock = false

/-- What is put back arrives, or is there. -/
def Returned (c : Cpu) (io : Io) : Prop :=
  c.boosted = true → (c.snapshot ≠ "" ∧ io.restores = true) ∨ c.found = some c.governor

/-- A render that ends the slides puts the governor back. -/
def CarefulRender (s : State) (clock : Clock) (look : Look) (io : Io) : Prop :=
  ¬TopMoving s look clock.progress → ¬GalleryMoving s.lists clock →
    Returned (boostedBy s.cpu s.lists clock io) io

/-- What an event has to meet: nothing is launched while the gallery slides under a boost, and
what is put back arrives. -/
def Careful (s : State) : Event → Prop
  | .action action inputs env =>
    (launches s.lists action inputs = true →
      CarefulRender s inputs.clock env.look env.io ∧
        (GalleryMoving s.lists inputs.clock →
          (boostedBy s.cpu s.lists inputs.clock env.io).boosted = false)) ∧
      (runsCommands s.lists.screen = true → action = .a → env.runs = true →
        Returned s.cpu env.io)
  | .render clock look io => CarefulRender s clock look io
  | .exited io => Returned s.cpu io
  | .scanned _ _ | .governed _ => True

end Conditions

section CpuFacts

variable {c : Cpu} {io : Io} {governor : String}

/-- A boost knows the governor that it has found, unless the file could not be read. -/
def Cpu.Knows (c : Cpu) : Prop :=
  c.boosted = true → ∃ found, c.found = some found ∧ (c.snapshot = found ∨ c.snapshot = "")

/-- Without a boost the governor is the one found. -/
def Cpu.Kept (c : Cpu) : Prop := c.boosted = false → ∀ found ∈ c.found, c.governor = found

theorem restoreSnapshot_self (reads restores : Bool) :
    Cpu.restoreSnapshot (if reads = true then governor else "") restores governor = governor := by
  unfold Cpu.restoreSnapshot
  cases reads with
  | true => exact ite_self governor
  | false => exact if_neg fun h => h.1 rfl

theorem boost_eq_or (c : Cpu) (io : Io) :
    (c.boost io).boosted = true ∨
      c.boosted = false ∧ (c.boost io).boosted = false ∧ (c.boost io).governor = c.governor ∧
        (c.boost io).found = c.found := by
  unfold Cpu.boost
  cases hboosted : c.boosted with
  | true => exact Or.inl (by simp [hboosted])
  | false =>
    cases haccepts : io.accepts with
    | true => exact Or.inl (by simp)
    | false =>
      refine Or.inr ⟨rfl, ?_⟩
      simp [restoreSnapshot_self]

theorem knows_boost (h : c.Knows) : (c.boost io).Knows := by
  unfold Cpu.boost
  by_cases hboosted : c.boosted = true
  · rwa [if_pos hboosted]
  · rw [if_neg hboosted]
    by_cases haccepts : io.accepts = true
    · rw [if_pos haccepts]
      refine fun _ => ⟨c.governor, rfl, ?_⟩
      cases io.reads with
      | true => exact Or.inl rfl
      | false => exact Or.inr rfl
    · rw [if_neg haccepts]
      exact fun hboosted' => absurd hboosted' hboosted

theorem kept_boost (h : c.Kept) : (c.boost io).Kept := by
  intro hboosted found hfound
  rcases boost_eq_or c io with htrue | ⟨hfalse, -, hgovernor, hsame⟩
  · rw [htrue] at hboosted
    cases hboosted
  · rw [hsame] at hfound
    rw [hgovernor]
    exact h hfalse found hfound

theorem restore_boosted : (c.restore io).boosted = false := by
  unfold Cpu.restore
  split_ifs with hboosted
  · rfl
  · exact Bool.eq_false_iff.mpr hboosted

theorem knows_restore : (c.restore io).Knows := fun hboosted => by
  rw [restore_boosted] at hboosted
  cases hboosted

theorem kept_restore (hknows : c.Knows) (hkept : c.Kept) :
    (c.restore io).Kept ↔ Returned c io := by
  unfold Cpu.restore
  by_cases hboosted : c.boosted = true
  · obtain ⟨found, hfound, hsnapshot⟩ := hknows hboosted
    rw [if_pos hboosted]
    unfold Cpu.Kept Returned Cpu.restoreSnapshot
    simp only [hboosted, hfound, Option.mem_some_iff, forall_eq', forall_const, Option.some.injEq]
    by_cases hwrites : c.snapshot ≠ "" ∧ io.restores = true
    · have hsame := hsnapshot.resolve_right hwrites.1
      rw [if_pos hwrites]
      exact ⟨fun _ => Or.inl hwrites, fun _ => hsame⟩
    · rw [if_neg hwrites]
      exact ⟨fun hgovernor => Or.inr hgovernor.symm,
        fun h => (h.resolve_left hwrites).symm⟩
  · rw [if_neg hboosted]
    exact ⟨fun _ hboosted' => absurd hboosted' hboosted, fun _ => hkept⟩

theorem knows_governed (h : c.Knows) : (c.governed governor).Knows := by
  intro hboosted
  have hboosted' : c.boosted = true := hboosted
  unfold Cpu.governed
  rw [if_pos hboosted']
  exact h hboosted'

theorem kept_governed : (c.governed governor).Kept := by
  intro hboosted found hfound
  have hboosted' : c.boosted = false := hboosted
  simp [Cpu.governed, hboosted'] at hfound

end CpuFacts

section Renders

variable {s : State} {clock : Clock} {look : Look} {io : Io} {lists : Gallery.State}

/-- The slide is over by the clock. -/
def lapsed (slide : Gallery.Slide) (now : ℤ) : Bool :=
  0 < slide.durationMs && slide.durationMs ≤ now - slide.startMs

theorem transitionProgress_eq (lists : Gallery.State) (now : ℤ) :
    lists.transitionProgress now =
      if lists.slide.active = true ∧ lapsed lists.slide now = true then
        { lists with slide := { lists.slide with active := false } }
      else lists := by
  unfold Gallery.State.transitionProgress lapsed
  simp only [Bool.and_eq_true, decide_eq_true_eq]
  by_cases hstill : lists.slide.active = false ∨ lists.slide.durationMs ≤ 0
  · have hnot : ¬(lists.slide.active = true ∧ 0 < lists.slide.durationMs ∧
        lists.slide.durationMs ≤ now - lists.slide.startMs) := by
      rintro ⟨hactive, hduration, -⟩
      rcases hstill with hinactive | hzero
      · rw [hinactive] at hactive
        cases hactive
      · omega
    rw [if_pos hstill, if_neg hnot]
  · have hboth : lists.slide.active = true ∧ 0 < lists.slide.durationMs := by
      simpa using hstill
    rw [if_neg hstill]
    simp only [hboth.1, hboth.2, true_and]

/-- A move waits that leads to another place. -/
def Waits (lists : Gallery.State) : Prop :=
  lists.pending.active = true ∧ lists.romCount ≠ 0 ∧
    (if lists.romCount ≤ lists.pending.cursor then lists.romCount - 1
      else lists.pending.cursor) ≠ lists.romCursor

theorem startPending_of_waits (now : ℤ) (h : Waits lists) :
    (lists.startPending now).1 = true ∧
      (lists.startPending now).2.slide.active = true ∧
      (lists.startPending now).2.slide.startMs = now ∧
      (lists.startPending now).2.slide.durationMs = Gallery.transitionMs := by
  obtain ⟨hactive, hcount, htarget⟩ := h
  have hgo : ¬(lists.pending.active = false ∨ lists.romCount = 0) := by
    simp [hactive, hcount]
  unfold Gallery.State.startPending
  rw [if_neg hgo]
  dsimp only
  rw [if_neg htarget]
  obtain ⟨memory, side, heq⟩ := Gallery.slideTo_eq
    { lists with pending := { lists.pending with active := false } } lists.pending.direction now
    htarget hcount
  rw [heq]
  exact ⟨rfl, rfl, rfl, rfl⟩

theorem startPending_of_not_waits (now : ℤ) (h : ¬Waits lists) :
    (lists.startPending now).1 = false ∧
      (lists.startPending now).2.slide = lists.slide := by
  unfold Gallery.State.startPending
  by_cases hnone : lists.pending.active = false ∨ lists.romCount = 0
  · rw [if_pos hnone]
    exact ⟨rfl, rfl⟩
  · have hpending : lists.pending.active = true := by
      cases hactive : lists.pending.active with
      | true => rfl
      | false => exact absurd (Or.inl hactive) hnone
    have htarget : (if lists.romCount ≤ lists.pending.cursor then lists.romCount - 1
        else lists.pending.cursor) = lists.romCursor := by
      by_contra hne
      exact h ⟨hpending, fun hcount => hnone (Or.inr hcount), hne⟩
    rw [if_neg hnone]
    dsimp only
    rw [if_pos htarget]
    exact ⟨rfl, rfl⟩

theorem startsPending_eq_true : startsPending lists clock = true ↔
    lists.screen = .gallery ∧
      (lists.slide.active = false ∨ galleryEnded lists clock = true) ∧ Waits lists := by
  unfold startsPending Waits
  simp [and_assoc]

theorem startPending_render (hslide : lists.slide.active = false) :
    (if (lists.startPending clock.start).1 = true then
      (lists.startPending clock.start).2.transitionProgress clock.again
      else (lists.startPending clock.start).2).slide.active = true ↔
    Waits lists ∧ clock.again - clock.start < Gallery.transitionMs := by
  by_cases hwaits : Waits lists
  · obtain ⟨hfst, hactive, hstart, hduration⟩ := startPending_of_waits clock.start hwaits
    rw [if_pos hfst, transitionProgress_eq]
    unfold lapsed
    rw [hactive, hstart, hduration]
    have hpos : (0 : ℤ) < Gallery.transitionMs := by decide
    split_ifs with hover
    · simp only [hpos, decide_true, Bool.true_and, decide_eq_true_eq, true_and] at hover
      simp [hover]
    · simp only [hpos, decide_true, Bool.true_and, decide_eq_true_eq, true_and] at hover
      simp only [hactive, hwaits, true_and, true_iff]
      exact Int.not_le.mp hover
  · obtain ⟨hfst, hsame⟩ := startPending_of_not_waits clock.start hwaits
    rw [if_neg (Bool.eq_false_iff.mp hfst), hsame, hslide]
    simp [hwaits]

theorem pending_render (hslide : lists.slide.active = false) :
    (if lists.slide.active = false ∧ lists.pending.active = true then
      if (lists.startPending clock.start).1 = true then
        (lists.startPending clock.start).2.transitionProgress clock.again
      else (lists.startPending clock.start).2
      else lists).slide.active = true ↔
    Waits lists ∧ clock.again - clock.start < Gallery.transitionMs := by
  by_cases hpending : lists.pending.active = true
  · rw [if_pos ⟨hslide, hpending⟩]
    exact startPending_render hslide
  · rw [if_neg fun h => hpending h.2, hslide]
    refine ⟨fun h => absurd h Bool.false_ne_true, fun h => absurd h.1.1 hpending⟩

theorem renderGallery_slide_active : (lists.renderGallery clock).slide.active = true ↔
    if lists.slide.active = false ∨ galleryEnded lists clock = true then
      Waits lists ∧ clock.again - clock.start < Gallery.transitionMs
    else lists.slide.active = true := by
  unfold Gallery.State.renderGallery
  by_cases hactive : lists.slide.active = true
  · have hnot : ¬lists.slide.active = false := by simp [hactive]
    by_cases htarget : lists.slide.toCursor = lists.romCursor
    · have hended : galleryEnded lists clock = lapsed lists.slide clock.progress := by
        simp [galleryEnded, lapsed, htarget]
      rw [if_pos ⟨hactive, htarget⟩, hended]
      by_cases hover : lapsed lists.slide clock.progress = true
      · have hoff : lists.transitionProgress clock.progress =
            { lists with slide := { lists.slide with active := false } } := by
          rw [transitionProgress_eq, if_pos ⟨hactive, hover⟩]
        rw [hoff, if_pos (Or.inr hover)]
        exact @pending_render clock { lists with slide := { lists.slide with active := false } } rfl
      · have hstill : lists.transitionProgress clock.progress = lists := by
          rw [transitionProgress_eq, if_neg fun h => hover h.2]
        rw [hstill, if_neg (not_or.mpr ⟨hnot, hover⟩)]
        dsimp only
        rw [if_neg fun h => hnot h.1]
    · have hended : ¬galleryEnded lists clock = true := by simp [galleryEnded, htarget]
      rw [if_neg fun h => htarget h.2, if_neg fun h => hnot h.1,
        if_neg (not_or.mpr ⟨hnot, hended⟩)]
  · have hinactive := Bool.eq_false_iff.mpr hactive
    rw [if_neg fun h => hactive h.1, if_pos (Or.inl hinactive)]
    exact pending_render hinactive

theorem render_slide_active :
    (lists.render clock).slide.active = true ↔ GalleryMoving lists clock := by
  unfold Gallery.State.render GalleryMoving
  by_cases hscreen : lists.screen = .gallery
  · rw [if_pos hscreen]
    simp only [hscreen, true_and]
    rw [renderGallery_slide_active]
    by_cases hended : lists.slide.active = false ∨ galleryEnded lists clock = true
    · have hstill : ¬(lists.slide.active = true ∧ galleryEnded lists clock = false) := by
        rintro ⟨hactive, hnot⟩
        rcases hended with h | h
        · exact Bool.false_ne_true (h.symm.trans hactive)
        · exact Bool.false_ne_true (hnot.symm.trans h)
      rw [if_pos hended]
      by_cases hwaits : Waits lists
      · rw [if_pos (startsPending_eq_true.mpr ⟨hscreen, hended, hwaits⟩)]
        exact and_iff_right hwaits
      · rw [if_neg fun h => hwaits (startsPending_eq_true.mp h).2.2]
        exact ⟨fun h => absurd h.1 hwaits, fun h => absurd h hstill⟩
    · rw [if_neg hended, if_neg fun h => hended (startsPending_eq_true.mp h).2.1]
      push Not at hended
      simp [hended.1, hended.2]
  · rw [if_neg hscreen]
    simp [hscreen, Gallery.State.resetGallery]

theorem render_top_active :
    (s.render clock look io).top.active = true ↔ TopMoving s look clock.progress := by
  unfold State.render TopMoving
  dsimp only
  split_ifs with htop
  · unfold State.renderTop
    split_ifs with hover
    · simp [hover.2]
    · simp only [htop, true_and]
      refine ⟨fun hactive => ⟨hactive, fun hended => hover ⟨hactive, hended⟩⟩, And.left⟩
  · simp [htop]

theorem render_cpu_moving (h : TopMoving s look clock.progress ∨ GalleryMoving s.lists clock) :
    (s.render clock look io).cpu = boostedBy s.cpu s.lists clock io := by
  rw [← @render_top_active s clock look io, ← render_slide_active] at h
  refine if_neg fun hstill => ?_
  rcases h with htop | hslide
  · exact Bool.false_ne_true (hstill.1.symm.trans htop)
  · exact Bool.false_ne_true (hstill.2.symm.trans hslide)

theorem render_cpu_still (htop : ¬TopMoving s look clock.progress)
    (hslide : ¬GalleryMoving s.lists clock) :
    (s.render clock look io).cpu = (boostedBy s.cpu s.lists clock io).restore io := by
  rw [← @render_top_active s clock look io, Bool.not_eq_true] at htop
  rw [← render_slide_active, Bool.not_eq_true] at hslide
  exact if_pos ⟨htop, hslide⟩

end Renders

section Steps

variable {s t : State} {e : Event} {clock : Clock} {look : Look} {io : Io}

theorem knows_boostedBy {c : Cpu} {lists : Gallery.State} (h : c.Knows) :
    (boostedBy c lists clock io).Knows := by
  unfold boostedBy
  split_ifs
  · exact knows_boost h
  · exact h

theorem kept_boostedBy {c : Cpu} {lists : Gallery.State} (h : c.Kept) :
    (boostedBy c lists clock io).Kept := by
  unfold boostedBy
  split_ifs
  · exact kept_boost h
  · exact h

theorem knows_render (h : s.cpu.Knows) : (s.render clock look io).cpu.Knows := by
  by_cases hmoving : TopMoving s look clock.progress ∨ GalleryMoving s.lists clock
  · rw [render_cpu_moving hmoving]
    exact knows_boostedBy h
  · rw [not_or] at hmoving
    rw [render_cpu_still hmoving.1 hmoving.2]
    exact knows_restore

theorem kept_render (hknows : s.cpu.Knows) (hkept : s.cpu.Kept) :
    (s.render clock look io).cpu.Kept ↔ CarefulRender s clock look io := by
  unfold CarefulRender
  by_cases hmoving : TopMoving s look clock.progress ∨ GalleryMoving s.lists clock
  · rw [render_cpu_moving hmoving]
    refine ⟨fun _ htop hslide => ?_, fun _ => kept_boostedBy hkept⟩
    exact absurd hmoving (not_or.mpr ⟨htop, hslide⟩)
  · rw [not_or] at hmoving
    rw [render_cpu_still hmoving.1 hmoving.2, kept_restore (knows_boostedBy hknows)
      (kept_boostedBy hkept)]
    exact ⟨fun h _ _ => h, fun h => h hmoving.1 hmoving.2⟩

theorem render_sliding (h : (s.render clock look io).cpu.boosted = true) :
    (s.render clock look io).top.active = true ∨
      (s.render clock look io).lists.slide.active = true := by
  by_cases hmoving : TopMoving s look clock.progress ∨ GalleryMoving s.lists clock
  · exact hmoving.imp render_top_active.mpr render_slide_active.mpr
  · rw [not_or] at hmoving
    rw [render_cpu_still hmoving.1 hmoving.2, restore_boosted] at h
    cases h

theorem render_cpu_commands (h : runsCommands s.lists.screen = true) :
    (s.render clock look io).cpu = s.cpu.restore io := by
  simp only [runsCommands, ne_eq, decide_not, Bool.and_eq_true, Bool.not_eq_true',
    decide_eq_false_iff_not] at h
  have hpending : boostedBy s.cpu s.lists clock io = s.cpu :=
    if_neg fun hstarts => h.1.1.1.2 (startsPending_eq_true.mp hstarts).1
  rw [render_cpu_still (fun hmoving => h.1.1.1.1 hmoving.1) (fun hmoving => h.1.1.1.2 hmoving.1),
    hpending]

theorem launches_screen {lists : Gallery.State} {action : Action} {inputs : Gallery.Inputs}
    (h : launches lists action inputs = true) :
    lists.screen ≠ .top ∧ runsCommands lists.screen = false := by
  simp only [launches, Bool.and_eq_true, Bool.or_eq_true, decide_eq_true_eq] at h
  rcases h.1.2 with ((hscreen | hscreen) | hscreen) | hscreen
  all_goals
    rw [hscreen]
    decide

theorem cpu_moveTop (s : State) (action : Action) (look : Look) (now : ℤ) (io : Io) :
    (s.moveTop action look now io).cpu = s.cpu ∨
      (s.moveTop action look now io).cpu = s.cpu.boost io := by
  unfold State.moveTop
  split_ifs
  · exact Or.inl rfl
  · dsimp only
    unfold State.startTop
    split_ifs
    · exact Or.inl rfl
    · exact Or.inr rfl

theorem act_cases (s : State) (action : Action) (inputs : Gallery.Inputs) (env : Env) :
    (launches s.lists action inputs = true ∧
      (s.act action inputs env).cpu = (s.render inputs.clock env.look env.io).cpu ∧
      (s.act action inputs env).child = true) ∨
    (runsCommands s.lists.screen = true ∧ action = .a ∧ env.runs = true ∧
      (s.act action inputs env).cpu = s.cpu.restore env.io ∧
      (s.act action inputs env).child = true) ∨
    (launches s.lists action inputs = false ∧
      ¬(runsCommands s.lists.screen = true ∧ action = .a ∧ env.runs = true) ∧
      ((s.act action inputs env).cpu = s.cpu ∨
        (s.act action inputs env).cpu = s.cpu.boost env.io) ∧
      (s.act action inputs env).child = false) := by
  unfold State.act
  split_ifs with hmove hlaunch hcommand hslide
  · refine Or.inr (Or.inr ⟨?_, ?_, cpu_moveTop .., rfl⟩)
    · refine Bool.eq_false_iff.mpr fun h => (launches_screen h).1 hmove.1
    · rw [hmove.1]
      exact fun h => Bool.false_ne_true h.1
  · exact Or.inl ⟨hlaunch, rfl, rfl⟩
  · exact Or.inr (Or.inl ⟨hcommand.1, hcommand.2.1, hcommand.2.2,
      render_cpu_commands hcommand.1, rfl⟩)
  · exact Or.inr (Or.inr ⟨Bool.eq_false_iff.mpr hlaunch, hcommand, Or.inr rfl, rfl⟩)
  · exact Or.inr (Or.inr ⟨Bool.eq_false_iff.mpr hlaunch, hcommand, Or.inl rfl, rfl⟩)

theorem act_due (s : State) (action : Action) (inputs : Gallery.Inputs) (env : Env) :
    (s.act action inputs env).lists.due = true := by
  unfold State.act
  split_ifs <;> rfl

theorem render_launch (hscreen : s.lists.screen ≠ .top) :
    (s.render clock look io).cpu.boosted = false ↔
      (GalleryMoving s.lists clock → (boostedBy s.cpu s.lists clock io).boosted = false) := by
  by_cases hmoving : GalleryMoving s.lists clock
  · rw [render_cpu_moving (Or.inr hmoving)]
    exact ⟨fun h _ => h, fun h => h hmoving⟩
  · rw [render_cpu_still (fun h => hscreen h.1) hmoving, restore_boosted]
    exact ⟨fun _ h => absurd h hmoving, fun _ => rfl⟩

/-- What every event keeps. -/
structure Sound (s : State) : Prop where
  knows : s.cpu.Knows
  sliding : s.lists.due = false → s.cpu.boosted = true →
    s.top.active = true ∨ s.lists.slide.active = true

theorem sound_initial (h : Initial s) : Sound s where
  knows := fun hboosted => absurd (h.boosted.symm.trans hboosted) Bool.false_ne_true
  sliding := fun hdue => absurd (hdue.symm.trans h.due) Bool.false_ne_true

theorem bracketed_initial (h : Initial s) : Bracketed s where
  sliding := (sound_initial h).sliding
  governor := fun _ found hfound => by
    rw [h.found] at hfound
    cases hfound
  child := fun hchild => absurd (h.child.symm.trans hchild) Bool.false_ne_true

theorem scanned_or (lists : Gallery.State) (systemId : CString) (load : Gallery.Load) :
    (lists.scanned systemId load).due = true ∨ lists.scanned systemId load = lists := by
  unfold Gallery.State.scanned
  split_ifs
  · exact Or.inl rfl
  · exact Or.inr rfl

theorem sound_step (h : Sound s) (hstep : Step s e t) : Sound t := by
  cases hstep with
  | @action action inputs env _ _ =>
    refine ⟨?_, fun hdue => absurd (hdue.symm.trans (act_due ..)) Bool.false_ne_true⟩
    rcases act_cases s action inputs env with ⟨-, hcpu, -⟩ | ⟨-, -, -, hcpu, -⟩ | ⟨-, -, hcpu, -⟩
    · rw [hcpu]
      exact knows_render h.knows
    · rw [hcpu]
      exact knows_restore
    · rcases hcpu with hcpu | hcpu
      · rw [hcpu]
        exact h.knows
      · rw [hcpu]
        exact knows_boost h.knows
  | render _ => exact ⟨knows_render h.knows, fun _ => render_sliding⟩
  | @scanned systemId load _ _ =>
    refine ⟨h.knows, fun hdue hboosted => ?_⟩
    rcases scanned_or s.lists systemId load with htrue | hsame
    · exact absurd (hdue.symm.trans htrue) Bool.false_ne_true
    · have hdue' : (s.lists.scanned systemId load).due = false := hdue
      rw [hsame] at hdue'
      show s.top.active = true ∨ (s.lists.scanned systemId load).slide.active = true
      rw [hsame]
      exact h.sliding hdue' hboosted
  | governed => exact ⟨knows_governed h.knows, h.sliding⟩
  | exited _ =>
    refine ⟨knows_restore, fun _ hboosted => ?_⟩
    exact absurd (restore_boosted.symm.trans hboosted) Bool.false_ne_true

/-- The step lemma: an event keeps the bracket exactly if it meets its condition. -/
theorem bracketed_step (h : Sound s) (hkept : s.cpu.Kept) (hstep : Step s e t) :
    Bracketed t ↔ Careful s e := by
  have ht := sound_step h hstep
  have hbracketed : Bracketed t ↔ t.cpu.Kept ∧ (t.child = true → t.cpu.boosted = false) :=
    ⟨fun hb => ⟨hb.governor, hb.child⟩, fun hb => ⟨ht.sliding, hb.1, hb.2⟩⟩
  rw [hbracketed]
  cases hstep with
  | @action action inputs env _ _ =>
    rcases act_cases s action inputs env with
      ⟨hlaunch, hcpu, hchild⟩ | ⟨hcommands, ha, hruns, hcpu, hchild⟩ |
        ⟨hlaunch, hcommands, hcpu, hchild⟩
    · obtain ⟨hscreen, hother⟩ := launches_screen hlaunch
      rw [hcpu, hchild, kept_render h.knows hkept, render_launch hscreen]
      refine ⟨fun hboth => ⟨fun _ => ⟨hboth.1, hboth.2 rfl⟩, fun hcommands => ?_⟩,
        fun hboth => ⟨(hboth.1 hlaunch).1, fun _ => (hboth.1 hlaunch).2⟩⟩
      exact absurd (hother.symm.trans hcommands) Bool.false_ne_true
    · have hlaunch : ¬launches s.lists action inputs = true := fun hlaunch =>
        absurd ((launches_screen hlaunch).2.symm.trans hcommands) Bool.false_ne_true
      rw [hcpu, hchild, kept_restore h.knows hkept, and_iff_left fun _ => restore_boosted]
      exact ⟨fun hreturned => ⟨fun hlaunch' => absurd hlaunch' hlaunch, fun _ _ _ => hreturned⟩,
        fun hboth => hboth.2 hcommands ha hruns⟩
    · have hkept' : (s.act action inputs env).cpu.Kept := by
        rcases hcpu with hcpu | hcpu
        · rw [hcpu]
          exact hkept
        · rw [hcpu]
          exact kept_boost hkept
      refine ⟨fun _ => ⟨fun hlaunch' => ?_, fun hscreen ha hruns => ?_⟩, fun _ => ⟨hkept', ?_⟩⟩
      · exact absurd (hlaunch.symm.trans hlaunch') Bool.false_ne_true
      · exact absurd ⟨hscreen, ha, hruns⟩ hcommands
      · exact fun htrue => absurd (hchild.symm.trans htrue) Bool.false_ne_true
  | @render clock look io _ =>
    rw [and_iff_left fun hchild : false = true => absurd hchild Bool.false_ne_true]
    exact kept_render h.knows hkept
  | scanned _ _ =>
    exact ⟨fun _ => trivial, fun _ => ⟨hkept, fun hchild => absurd hchild Bool.false_ne_true⟩⟩
  | governed =>
    exact ⟨fun _ => trivial,
      fun _ => ⟨kept_governed, fun hchild => absurd hchild Bool.false_ne_true⟩⟩
  | exited _ =>
    rw [and_iff_left fun hchild : false = true => absurd hchild Bool.false_ne_true]
    exact kept_restore h.knows hkept

end Steps

section Runs

variable {s : State}

/-- TOP with one system, before the first render. -/
def start : State where
  lists := { Gallery.shelf with
    screen := .top, romEntryScreen := .roms, romEntries := [], due := true }
  topCount := 1
  topCursor := 0
  top := ⟨0, 0, 0, false⟩
  cpu := ⟨false, "", "ondemand", none⟩
  child := false
  exited := false

/-- The graphic mode with slides. -/
def graphic : Look := ⟨true, false, true, 260⟩

/-- Every file is read and written. -/
def working : Env := ⟨graphic, ⟨true, true, true⟩, false, 1, 0⟩

theorem initial_start : Initial start := ⟨rfl, rfl, rfl, rfl⟩

/-- What an action meets at a time: its system, where it opens one, is a shelf. -/
def inputsAt (now : ℤ) : Gallery.Inputs :=
  { Gallery.inputsAt now with
    load := ⟨Gallery.shelf.romEntries, true, true⟩
    choice := .system (lit "nes") }

end Runs

end PlumosBubble.Animation
