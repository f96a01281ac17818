import Mathlib.Data.Int.ModEq
import Mathlib.Data.Rat.Init
import Mathlib.Algebra.Order.Ring.Unbundled.Rat
import Mathlib.Tactic.Ring

/-! The carousel of `plumos_ggfe.c`: `ggfe_scroll_request_at`, `ggfe_scroll_position` and
the motion row of the menu, over any sequence of calls. Floats are rationals, and `round`
is the rounding of a float expression. -/

namespace PlumosBubble.Ggfe

/-- The value of an `int` expression with the exact result `x`. -/
def toInt (x : ℤ) : ℤ := x.bmod (2 ^ 32)

/-- `x` is a value of an `int`: an expression with this exact result does not overflow. -/
def IsInt (x : ℤ) : Prop := -2 ^ 31 ≤ x ∧ x < 2 ^ 31

instance (x : ℤ) : Decidable (IsInt x) := inferInstanceAs (Decidable (_ ∧ _))

theorem toInt_of_isInt {x : ℤ} (h : IsInt x) : toInt x = x := by
  obtain ⟨hlow, hhigh⟩ := h
  unfold toInt
  apply Int.bmod_eq_of_le <;> omega

/-- `ggfe_wrap_index`. -/
def wrapIndex (index count : ℤ) : ℤ :=
  if count ≤ 0 then 0
  else if index.tmod count < 0 then index.tmod count + count
  else index.tmod count

theorem wrapIndex_eq {count : ℤ} (h : 0 < count) (index : ℤ) :
    wrapIndex index count = index % count := by
  have hlow := Int.emod_nonneg index h.ne'
  have hhigh := Int.emod_lt_of_pos index h
  unfold wrapIndex
  rw [if_neg (by omega), Int.tmod_eq_emod]
  split_ifs <;> omega

theorem wrapIndex_nonneg {count : ℤ} (h : 0 < count) (index : ℤ) : 0 ≤ wrapIndex index count := by
  rw [wrapIndex_eq h]
  exact Int.emod_nonneg index h.ne'

theorem wrapIndex_lt {count : ℤ} (h : 0 < count) (index : ℤ) : wrapIndex index count < count := by
  rw [wrapIndex_eq h]
  exact Int.emod_lt_of_pos index h

theorem wrapIndex_modEq {count : ℤ} (h : 0 < count) (index : ℤ) :
    wrapIndex index count ≡ index [ZMOD count] := by
  rw [wrapIndex_eq h]
  exact Int.mod_modEq index count

theorem tmod_modEq (delta count : ℤ) : delta.tmod count ≡ delta [ZMOD count] := by
  apply Int.ModEq.symm
  rw [Int.modEq_iff_dvd]
  exact ⟨-delta.tdiv count, by rw [Int.tmod_def]; ring⟩

/-- `enum ggfe_motion`. -/
inductive Motion where
  | snap
  | gallery
  deriving DecidableEq

/-- `struct ggfe_scroll_state`. -/
structure ScrollState where
  model : Motion
  durationMs : ℤ
  target : ℤ
  fromPos : ℚ
  toPos : ℤ
  active : Bool
  pendingTarget : ℤ
  pendingTo : ℤ
  pendingActive : Bool
  startMs : ℤ
  deriving DecidableEq

/-- The `ggfe_scroll=` lines of the log. -/
inductive ScrollLog where
  | start (fromPos : ℚ) (toPos selected delta durationMs : ℤ) (model : Motion)
  | queued (target logical delta : ℤ)
  | startQueued (fromPos : ℚ) (toPos selected durationMs : ℤ)
  deriving DecidableEq

/-- The carousel as `main` starts it. -/
def startScroll (model : Motion) (durationMs : ℤ) : ScrollState :=
  ⟨model, durationMs, 0, 0, 0, false, 0, 0, false, 0⟩

section Calls

variable (round : ℚ → ℚ)

/-- `ggfe_lerp`. -/
def lerp (a b k : ℚ) : ℚ := round (a + round (round (b - a) * k))

/-- `ggfe_ease_in_out`. -/
def easeInOut (k : ℚ) : ℚ :=
  round (round (round (3 * k) * k) - round (round (round (2 * k) * k) * k))

/-- `ggfe_ease_back`. -/
def easeBack (k : ℚ) : ℚ :=
  let d := round (k - 1)
  round (round (1 + round (round (round (round (19 / 10) * d) * d) * d)) +
    round (round (round (9 / 10) * d) * d))

namespace ScrollState

/-- A motion that ends with nothing queued behind it. -/
def settle (s : ScrollState) : ScrollState :=
  { s with active := false, fromPos := round s.target, toPos := s.target }

/-- A motion that ends with a request queued behind it. -/
def takeQueued (s : ScrollState) (now : ℤ) : ScrollState :=
  { s with
    pendingActive := false
    fromPos := round s.toPos
    target := s.pendingTarget
    toPos := s.pendingTo
    startMs := now
    active := true }

/-- `ggfe_scroll_position`. -/
def position (s : ScrollState) (now : ℤ) : ScrollState × List ScrollLog × ℚ :=
  if !s.active then (s, [], round s.target)
  else if s.durationMs ≤ now - s.startMs then
    if s.model = .gallery ∧ s.pendingActive then
      (s.takeQueued round now,
        [.startQueued (round s.toPos) s.pendingTo s.pendingTarget s.durationMs], round s.toPos)
    else (s.settle round, [], round s.target)
  else if now - s.startMs ≤ 0 then (s, [], s.fromPos)
  else
    let progress := round (round ↑(now - s.startMs) / round s.durationMs)
    (s, [], lerp round s.fromPos (round s.toPos)
      (if s.model = .snap then easeBack round progress else easeInOut round progress))

/-- The start of a motion to `next`, with the logical destination `nextTo`. -/
def aim (s : ScrollState) (origin : ℚ) (next nextTo now : ℤ) : ScrollState :=
  { s with fromPos := origin, target := next, toPos := nextTo, startMs := now, active := true }

/-- A request held back by the motion that is running. -/
def enqueue (s : ScrollState) (next nextTo : ℤ) : ScrollState :=
  { s with pendingTarget := next, pendingTo := nextTo, pendingActive := true }

/-- `ggfe_scroll_request_at`, on a carousel of `count` entries. -/
def requestAt (count : ℤ) (s : ScrollState) (delta now : ℤ) : ScrollState × List ScrollLog :=
  if delta = 0 ∨ count ≤ 1 then (s, [])
  else
    let delta := delta.tmod count
    if delta = 0 then (s, [])
    else if s.model = .snap then
      let (s, log, origin) := s.position round now
      let next := wrapIndex (toInt (s.target + delta)) count
      let nextTo := toInt (s.toPos + delta)
      (s.aim origin next nextTo now,
        log ++ [.start origin nextTo next delta s.durationMs .snap])
    else
      let next := wrapIndex (toInt (s.target + delta)) count
      let nextTo := toInt (s.toPos + delta)
      if s.active then (s.enqueue next nextTo, [.queued next nextTo delta])
      else
        (s.aim (round s.toPos) next nextTo now,
          [.start (round s.toPos) nextTo next delta s.durationMs .gallery])

/-- The motion row of the menu. -/
def toggleMotion (s : ScrollState) : ScrollState :=
  let model := if s.model = .snap then .gallery else .snap
  { s with model, durationMs := if model = .gallery then 360 else 240 }

theorem position_cases (s : ScrollState) (now : ℤ) :
    ((s.active = false ∨ now - s.startMs < s.durationMs) ∧
      (s.position round now).1 = s ∧ (s.position round now).2.1 = []) ∨
    (s.active = true ∧ s.durationMs ≤ now - s.startMs ∧
      s.model = .gallery ∧ s.pendingActive = true ∧
      (s.position round now).1 = s.takeQueued round now ∧
      (s.position round now).2.1 =
        [.startQueued (round s.toPos) s.pendingTo s.pendingTarget s.durationMs]) ∨
    (s.active = true ∧ s.durationMs ≤ now - s.startMs ∧
      (s.model = .snap ∨ s.pendingActive = false) ∧
      (s.position round now).1 = s.settle round ∧ (s.position round now).2.1 = []) := by
  cases hactive : s.active with
  | false =>
    apply Or.inl
    simp [position, hactive]
  | true =>
    by_cases hdue : s.durationMs ≤ now - s.startMs
    · apply Or.inr
      by_cases hqueued : s.model = .gallery ∧ s.pendingActive
      · apply Or.inl
        simp [position, hactive, hdue, hqueued]
      · apply Or.inr
        have hmodel : s.model = .snap ∨ s.pendingActive = false := by
          cases h : s.model <;> simp_all
        simp [position, hactive, hdue, hqueued, hmodel]
    · apply Or.inl
      by_cases hearly : now - s.startMs ≤ 0 <;> simp [position, hactive, hdue, hearly] <;> omega

theorem position_durationMs (s : ScrollState) (now : ℤ) :
    (s.position round now).1.durationMs = s.durationMs := by
  obtain ⟨-, h, -⟩ | ⟨-, -, -, -, h, -⟩ | ⟨-, -, -, h, -⟩ := position_cases round s now <;>
    rw [h] <;> rfl

/-- A request that moves the carousel: its distance is not a number of whole turns. -/
def Moves (count delta : ℤ) : Prop := 1 < count ∧ delta.tmod count ≠ 0

instance (count delta : ℤ) : Decidable (Moves count delta) := inferInstanceAs (Decidable (_ ∧ _))

theorem requestAt_of_not_moves {count delta : ℤ} (h : ¬Moves count delta) (s : ScrollState)
    (now : ℤ) : s.requestAt round count delta now = (s, []) := by
  unfold requestAt
  by_cases hone : count ≤ 1
  · rw [if_pos (Or.inr hone)]
  have hzero : delta.tmod count = 0 := by
    by_contra hne
    exact h ⟨by omega, hne⟩
  simp only [if_pos hzero, ite_self]

theorem Moves.ne_zero {count delta : ℤ} (h : Moves count delta) : ¬(delta = 0 ∨ count ≤ 1) := by
  obtain ⟨hcount, hmod⟩ := h
  rintro (rfl | hone)
  · simp at hmod
  · omega

theorem requestAt_snap {count delta : ℤ} (h : Moves count delta) {s : ScrollState}
    (hmodel : s.model = .snap) (now : ℤ) :
    ∃ origin, s.requestAt round count delta now =
      ((s.position round now).1.aim origin
        (wrapIndex (toInt ((s.position round now).1.target + delta.tmod count)) count)
        (toInt ((s.position round now).1.toPos + delta.tmod count)) now,
        (s.position round now).2.1 ++ [.start origin
          (toInt ((s.position round now).1.toPos + delta.tmod count))
          (wrapIndex (toInt ((s.position round now).1.target + delta.tmod count)) count)
          (delta.tmod count) s.durationMs .snap]) := by
  refine ⟨(s.position round now).2.2, ?_⟩
  simp only [requestAt, if_neg h.ne_zero, if_neg h.2, if_pos hmodel, position_durationMs]

theorem requestAt_gallery {count delta : ℤ} (h : Moves count delta) {s : ScrollState}
    (hmodel : s.model = .gallery) (now : ℤ) :
    s.requestAt round count delta now =
      if s.active then
        (s.enqueue (wrapIndex (toInt (s.target + delta.tmod count)) count)
          (toInt (s.toPos + delta.tmod count)),
          [.queued (wrapIndex (toInt (s.target + delta.tmod count)) count)
            (toInt (s.toPos + delta.tmod count)) (delta.tmod count)])
      else
        (s.aim (round s.toPos) (wrapIndex (toInt (s.target + delta.tmod count)) count)
          (toInt (s.toPos + delta.tmod count)) now,
          [.start (round s.toPos) (toInt (s.toPos + delta.tmod count))
            (wrapIndex (toInt (s.target + delta.tmod count)) count) (delta.tmod count)
            s.durationMs .gallery]) := by
  have hsnap : ¬s.model = .snap := by simp [hmodel]
  simp only [requestAt, if_neg h.ne_zero, if_neg h.2, if_neg hsnap]

end ScrollState

end Calls

end PlumosBubble.Ggfe
