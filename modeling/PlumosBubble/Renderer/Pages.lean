import Mathlib.Data.UInt
import Mathlib.Tactic.SplitIfs
import PlumosBubble.Renderer.PageFlip

/-! The framebuffer path of `plumos_fbdev_renderer.h`: `plumos_fbdev_renderer_init` takes over
a panned framebuffer, and `plumos_fbdev_present` pans between two pages of it. Offsets are in
bytes; a `long` holds the product of two 32-bit numbers of a display. -/

namespace PlumosBubble.Renderer

/-- What `init` finds: the screen's variables, what else can fail, and whether the
environment turns double buffering off. -/
structure Screen where
  opened : Bool
  xres : UInt32
  yres : UInt32
  yresVirtual : UInt32
  xoffset : UInt32
  yoffset : UInt32
  bitsPerPixel : UInt32
  lineLength : UInt32
  smemLen : UInt32
  doubleBufferOff : Bool
  mapped : Bool
  allocated : Bool

/-- The fields of the renderer that presenting reads, with the offset of the page that the
kernel shows. -/
structure Pages where
  yres : UInt32
  yresVirtual : UInt32
  lineLength : UInt32
  mapSize : ℕ
  frameBytes : ℕ
  visibleYoffset : UInt32
  drawYoffset : UInt32
  visibleOffset : ℕ
  activeOffset : ℕ
  doubleBuffer : Bool
  shadow : Bool
  shownOffset : ℕ

namespace Screen

def bytesPerPixel (s : Screen) : ℕ := ((s.bitsPerPixel + 7) / 8).toNat

def mapSize (s : Screen) : ℕ :=
  if s.smemLen ≠ 0 then s.smemLen.toNat else s.lineLength.toNat * s.yresVirtual.toNat

def frameBytes (s : Screen) : ℕ := s.lineLength.toNat * s.yres.toNat

def visibleOffset (s : Screen) : ℕ :=
  s.yoffset.toNat * s.lineLength.toNat + s.xoffset.toNat * s.bytesPerPixel

/-- The row at which the first frame is drawn, if there are two pages. -/
def drawYoffset (s : Screen) : UInt32 := if s.yoffset < s.yres then s.yres else 0

/-- `init` accepts the format and the page that is shown. -/
def accepted (s : Screen) : Bool :=
  s.opened && (s.bytesPerPixel = 2 || s.bytesPerPixel = 3 || s.bytesPerPixel = 4) &&
    s.lineLength ≠ 0 && s.xres ≠ 0 && s.yres ≠ 0 && 0 < s.mapSize &&
    s.visibleOffset + s.frameBytes ≤ s.mapSize

/-- `plumos_fbdev_frame_offset_valid`. -/
def frameOffsetValid (frameBytes mapSize offset : ℕ) : Bool :=
  0 < frameBytes && offset + frameBytes ≤ mapSize

/-- `init` finds room for a second page. -/
def pageable (s : Screen) : Bool :=
  !s.doubleBufferOff && s.yres * 2 ≤ s.yresVirtual && s.yoffset + s.yres ≤ s.yresVirtual &&
    frameOffsetValid s.frameBytes s.mapSize (s.drawYoffset.toNat * s.lineLength.toNat) &&
    s.drawYoffset + s.yres ≤ s.yresVirtual

/-- `plumos_fbdev_renderer_init` on a framebuffer. -/
def init (s : Screen) : Option Pages :=
  if s.accepted && s.mapped && (s.pageable || s.allocated) then some
    { yres := s.yres
      yresVirtual := s.yresVirtual
      lineLength := s.lineLength
      mapSize := s.mapSize
      frameBytes := s.frameBytes
      visibleYoffset := s.yoffset
      drawYoffset := if s.pageable then s.drawYoffset else s.yoffset
      visibleOffset := s.visibleOffset
      activeOffset := if s.pageable then s.drawYoffset.toNat * s.lineLength.toNat
        else s.visibleOffset
      doubleBuffer := s.pageable
      shadow := !s.pageable
      shownOffset := s.visibleOffset }
  else none

end Screen

namespace Pages

def frameOffsetValid (p : Pages) (offset : ℕ) : Bool :=
  Screen.frameOffsetValid p.frameBytes p.mapSize offset

/-- The row at which the frame after the next is drawn. -/
def nextDrawYoffset (p : Pages) : UInt32 := if p.drawYoffset = 0 then p.yres else 0

def nextDrawOffset (p : Pages) : ℕ := p.nextDrawYoffset.toNat * p.lineLength.toNat

/-- There is no room for the frame after the next. -/
def noRoom (p : Pages) : Bool :=
  !p.frameOffsetValid p.nextDrawOffset || p.yresVirtual < p.nextDrawYoffset + p.yres

/-- A pan that succeeds: the kernel shows the page that has been drawn. -/
def panned (p : Pages) : Pages :=
  { p with
    visibleYoffset := p.drawYoffset
    visibleOffset := p.activeOffset
    shownOffset := p.drawYoffset.toNat * p.lineLength.toNat
    doubleBuffer := p.doubleBuffer && !p.noRoom
    activeOffset := if p.noRoom then p.activeOffset else p.nextDrawOffset
    drawYoffset := if p.noRoom then p.drawYoffset else p.nextDrawYoffset }

/-- A pan that fails: the frame is copied to the page that is shown. -/
def panFailed (p : Pages) : Pages :=
  { p with
    activeOffset := if p.frameOffsetValid p.visibleOffset && p.visibleOffset ≠ p.activeOffset
      then p.visibleOffset else p.activeOffset
    doubleBuffer := false }

/-- `plumos_fbdev_present`, whose pan succeeds or fails. -/
def present (p : Pages) (pans : Bool) : Pages :=
  if p.shadow || !p.doubleBuffer then p else if pans then p.panned else p.panFailed

/-- The pages at two offsets have no byte in common. -/
def Apart (p : Pages) (a b : ℕ) : Prop := a + p.frameBytes ≤ b ∨ b + p.frameBytes ≤ a

/-- With two pages, the one being drawn is not the one that is seen. -/
def Hidden (p : Pages) : Prop := p.doubleBuffer = true → p.Apart p.activeOffset p.shownOffset

/-- The rows of the two pages, and the offset of the one being drawn. -/
structure Paged (p : Pages) : Prop where
  frame : p.frameBytes = p.lineLength.toNat * p.yres.toNat
  rows : p.drawYoffset = 0 ∨ p.drawYoffset = p.yres
  active : p.activeOffset = p.drawYoffset.toNat * p.lineLength.toNat

end Pages

section Facts

variable {s : Screen} {p : Pages}

theorem paged_panned (h : p.Paged) (hdouble : p.panned.doubleBuffer = true) :
    p.panned.Paged ∧ p.panned.Hidden := by
  have hroom : p.noRoom = false := by
    simp only [Pages.panned, Bool.and_eq_true, Bool.not_eq_true'] at hdouble
    exact hdouble.2
  refine ⟨⟨h.frame, ?_, ?_⟩, fun _ => ?_⟩
  · simp only [Pages.panned, hroom, Pages.nextDrawYoffset]
    by_cases hzero : p.drawYoffset = 0
    · exact Or.inr (by simp [hzero])
    · exact Or.inl (by simp [hzero])
  · simp [Pages.panned, hroom, Pages.nextDrawOffset]
  · simp only [Pages.Apart, Pages.panned, hroom, Pages.nextDrawOffset, Pages.nextDrawYoffset,
      Bool.false_eq_true, if_false, h.frame]
    by_cases hzero : p.drawYoffset = 0
    · right
      rw [if_pos hzero, hzero, UInt32.toNat_zero, Nat.zero_mul, Nat.zero_add, Nat.mul_comm]
    · left
      rw [if_neg hzero, h.rows.resolve_left hzero, UInt32.toNat_zero, Nat.zero_mul, Nat.zero_add,
        Nat.mul_comm]

theorem hidden_present {pans : Bool} (h : (p.doubleBuffer = true → p.Paged) ∧ p.Hidden) :
    ((p.present pans).doubleBuffer = true → (p.present pans).Paged) ∧
      (p.present pans).Hidden := by
  unfold Pages.present
  split_ifs with hsingle hpans
  · exact h
  · simp only [Bool.or_eq_true, not_or, Bool.not_eq_true'] at hsingle
    have hpaged := h.1 (by simpa using hsingle.2)
    exact ⟨fun hdouble => (paged_panned hpaged hdouble).1,
      fun hdouble => (paged_panned hpaged hdouble).2 hdouble⟩
  · have hnone : p.panFailed.doubleBuffer ≠ true := by simp [Pages.panFailed]
    exact ⟨fun hdouble => absurd hdouble hnone, fun hdouble => absurd hdouble hnone⟩

theorem hidden_presents {pans : List Bool} (h : (p.doubleBuffer = true → p.Paged) ∧ p.Hidden) :
    (pans.foldl Pages.present p).Hidden := by
  induction pans generalizing p with
  | nil => exact h.2
  | cons first pans ih => exact ih (hidden_present h)

theorem init_eq_some (h : s.init = some p) :
    s.accepted = true ∧ p.doubleBuffer = s.pageable ∧ p.frameBytes = s.frameBytes ∧
      p.shownOffset = s.visibleOffset ∧ p.lineLength = s.lineLength ∧ p.yres = s.yres ∧
      (s.pageable = true → p.drawYoffset = s.drawYoffset ∧
        p.activeOffset = s.drawYoffset.toNat * s.lineLength.toNat) := by
  unfold Screen.init at h
  by_cases haccepted : (s.accepted && s.mapped && (s.pageable || s.allocated)) = true
  · rw [if_pos haccepted] at h
    cases h
    simp only [Bool.and_eq_true] at haccepted
    refine ⟨haccepted.1.1, rfl, rfl, rfl, rfl, rfl, fun hpageable => ?_⟩
    simp [hpageable]
  · rw [if_neg haccepted] at h
    cases h

theorem paged_init (h : s.init = some p) (hpageable : s.pageable = true) : p.Paged := by
  obtain ⟨-, -, hframe, -, hline, hyres, hdraw⟩ := init_eq_some h
  obtain ⟨hrow, hactive⟩ := hdraw hpageable
  refine ⟨by rw [hframe, hline, hyres]; rfl, ?_, by rw [hactive, hrow, hline]⟩
  rw [hrow, hyres]
  unfold Screen.drawYoffset
  split_ifs
  · exact Or.inr rfl
  · exact Or.inl rfl

/-- The page that `init` draws into first is apart from the one it has found, exactly if that
one begins the memory, lies behind two pages, or does not begin in the rows of the first. -/
theorem hidden_init (h : s.init = some p) :
    p.Hidden ↔ (s.pageable = true → s.yres ≤ s.yoffset ∨ s.visibleOffset = 0 ∨
      2 * s.frameBytes ≤ s.visibleOffset) := by
  obtain ⟨haccepted, hdouble, hframe, hshown, -, -, hdraw⟩ := init_eq_some h
  unfold Pages.Hidden Pages.Apart
  rw [hdouble]
  refine imp_congr_right fun hpageable => ?_
  obtain ⟨-, hactive⟩ := hdraw hpageable
  rw [hframe, hshown, hactive]
  unfold Screen.drawYoffset
  by_cases hlt : s.yoffset < s.yres
  · have hnot : ¬s.yres ≤ s.yoffset := UInt32.not_le.mpr hlt
    have hpage : s.yres.toNat * s.lineLength.toNat = s.frameBytes := Nat.mul_comm _ _
    have hpos : 0 < s.frameBytes := by
      simp only [Screen.pageable, Screen.frameOffsetValid, Bool.and_eq_true,
        decide_eq_true_eq] at hpageable
      exact hpageable.1.2.1
    rw [if_pos hlt, hpage]
    simp only [hnot, false_or]
    omega
  · have hle : s.yres ≤ s.yoffset := UInt32.not_lt.mp hlt
    rw [if_neg hlt]
    refine ⟨fun _ => Or.inl hle, fun _ => Or.inl ?_⟩
    have hrow : s.yres.toNat ≤ s.yoffset.toNat := UInt32.le_iff_toNat_le.mp hle
    have hmul := Nat.mul_le_mul_right s.lineLength.toNat hrow
    unfold Screen.frameBytes Screen.visibleOffset
    rw [UInt32.toNat_zero, Nat.zero_mul, Nat.zero_add, Nat.mul_comm s.lineLength.toNat]
    omega

theorem hidden_presents_iff (h : s.init = some p) :
    (∀ pans : List Bool, (pans.foldl Pages.present p).Hidden) ↔
      (s.pageable = true → s.yres ≤ s.yoffset ∨ s.visibleOffset = 0 ∨
        2 * s.frameBytes ≤ s.visibleOffset) := by
  rw [← hidden_init h]
  have hpaged : p.doubleBuffer = true → p.Paged := fun hdouble =>
    paged_init h ((init_eq_some h).2.1 ▸ hdouble)
  exact ⟨fun hall => hall [], fun hfirst pans => hidden_presents ⟨hpaged, hfirst⟩⟩

end Facts

/-- What is being drawn is never seen: with page flips exactly if no wait for a flip is given
up, and with two pages of a framebuffer exactly if the page that `init` finds begins the
memory, lies behind two pages, or does not begin in the rows of the first. -/
theorem drawing_unseen_iff (events : List Event) (t : Display) (s : Screen) (p : Pages) :
    (Transition.Run Step Display.init events t →
      ((∀ es rest u, events = es ++ rest → Transition.Run Step Display.init es u →
        Hidden es u) ↔ Event.gaveUp ∉ events)) ∧
    (s.init = some p →
      ((∀ pans : List Bool, (pans.foldl Pages.present p).Hidden) ↔
        (s.pageable = true → s.yres ≤ s.yoffset ∨ s.visibleOffset = 0 ∨
          2 * s.frameBytes ≤ s.visibleOffset))) :=
  ⟨fun h => hidden_iff h, fun h => hidden_presents_iff h⟩

theorem drawing_unseen_sample :
    Hidden [.accepted, .completed, .handled 1, .presented]
        ⟨.drawing, false, .second, .first, .first, .second, none, 0⟩ ∧
      ∀ p, (⟨true, 640, 480, 960, 0, 480, 32, 2560, 2457600, false, true, true⟩ : Screen).init =
          some p → ∀ pans : List Bool, (pans.foldl Pages.present p).Hidden := by
  constructor
  · have haccepted := Transition.Run.single (Step.accepted (s := Display.init) rfl rfl)
    have hcompleted := haccepted.concat (.completed rfl)
    have hhandled := hcompleted.concat (.handled (n := 1) rfl rfl (Nat.le_refl 1))
    have hpresented := hhandled.concat (.presented rfl rfl)
    let s : Screen := ⟨true, 640, 480, 960, 0, 480, 32, 2560, 2457600, false, true, true⟩
    let p : Pages := ⟨480, 960, 2560, 2457600, 1228800, 480, 0, 1228800, 0, true, true, 1228800⟩
    exact ((drawing_unseen_iff _ _ s p).1 hpresented).mpr (by decide) _ [] _ (by simp) hpresented
  · intro p h
    exact ((drawing_unseen_iff [] Display.init _ p).2 h).mpr fun _ => Or.inl (by decide)

/-- A flip that takes longer than the wait shows the buffer that is drawn into, and a screen
that is panned by half a page shows half of the page that is drawn into. -/
theorem drawing_seen :
    (∃ events t, Transition.Run Step Display.init events t ∧ t.place = .drawing ∧
      t.scanout = t.mem) ∧
    ∃ (s : Screen) (p : Pages), s.init = some p ∧ p.doubleBuffer = true ∧
      ¬p.Apart p.activeOffset p.shownOffset := by
  constructor
  · refine ⟨[.accepted, .gaveUp, .completed], ⟨.drawing, false, .first, .second, .second, .second,
      none, 1⟩, ?_, rfl, rfl⟩
    have haccepted := Transition.Run.single (Step.accepted (s := Display.init) rfl rfl)
    have hgaveUp := haccepted.concat (.gaveUp rfl rfl)
    exact hgaveUp.concat (.completed rfl)
  · refine ⟨⟨true, 640, 480, 960, 0, 240, 32, 2560, 2457600, false, true, true⟩, _, rfl, ?_, ?_⟩
    · decide
    · unfold Pages.Apart
      decide

end PlumosBubble.Renderer
