import Mathlib.Data.List.Nodup
import Mathlib.Data.List.Count
import Mathlib.Data.List.Perm.Basic
import PlumosBubble.Sequence.Local
import PlumosBubble.Cart3d.Raster

/-! Drawing a list in stripes. A row of a triangle changes the pixels of that row alone,
each by what it holds; so a pixel ends as the triangles that reach its row leave it, in the
order of the list, however the rows are split. -/

namespace PlumosBubble.Cart3d

open Sequence FloatOps

variable {F : Type} [FloatOps F]

/-- The stripes `(y, y')` run from one row to another without a gap. -/
inductive Consecutive : ℤ → ℤ → List (ℤ × ℤ) → Prop
  | nil (y : ℤ) : Consecutive y y []
  | cons {y y' z : ℤ} {stripes : List (ℤ × ℤ)} : y ≤ y' → Consecutive y' z stripes →
      Consecutive y z ((y, y') :: stripes)

/-- Draw the list stripe by stripe. -/
def drawStripes (width height : ℤ) (draws : List (Draw F)) (zwrite : Bool)
    (stripes : List (ℤ × ℤ)) (pixels : ℕ → Pixel F) : ℕ → Pixel F :=
  stripes.foldl (fun pixels stripe =>
    drawListBand width height draws zwrite stripe.1 stripe.2 pixels) pixels

section Rows

variable (width height : ℤ)

/-- A pixel lies in the row. -/
def inRow (y : ℤ) (i : ℕ) : Bool := ((i / width.toNat : ℕ) : ℤ) = y

/-- The triangle is drawn in the row. -/
def touches (y : ℤ) (d : Draw F) : Bool :=
  !le (-const 1e-6) (area d.s) && (setup width d).minx ≤ (setup width d).maxx &&
    floorMin (d.s 0 1) (d.s 1 1) (d.s 2 1) ≤ y && y ≤ ceilMax (d.s 0 1) (d.s 1 1) (d.s 2 1)

/-- The rows of the triangles that are drawn in a band, in their order. -/
def bandSchedule (draws : List (Draw F)) (bandY0 bandY1 : ℤ) : List (Draw F × ℤ) :=
  draws.flatMap fun d =>
    if d.ymax < max bandY0 0 || min bandY1 height ≤ d.ymin then []
    else (bandRows width d (max bandY0 0) (min bandY1 height)).map (d, ·)

variable {width height}

theorem local_writeFragment (d : Draw F) (zwrite : Bool) {x y : ℤ} (hx : 0 ≤ x)
    (hwidth : x < width) (hy : 0 ≤ y) (f : Fragment F) :
    Local (writeFragment width d zwrite y f x) (inRow width y) := by
  have hrow : inRow width y (pixelIndex width x y) = true := by
    have hpos : 0 < width.toNat := by omega
    have hlt : x.toNat < width.toNat := by omega
    have hdiv : (y.toNat * width.toNat + x.toNat) / width.toNat = y.toNat := by
      rw [Nat.mul_comm, Nat.mul_add_div hpos, Nat.div_eq_of_lt hlt, Nat.add_zero]
    rw [inRow, pixelIndex, hdiv, Int.toNat_of_nonneg hy, decide_eq_true rfl]
  constructor
  · intro b i hi
    unfold writeFragment
    split_ifs
    · apply Function.update_of_ne
      rintro rfl
      simp [hrow] at hi
    · rfl
  · intro b b' i hb
    unfold writeFragment
    split_ifs
    · by_cases hi : i = pixelIndex width x y
      · subst hi
        rw [Function.update_self, Function.update_self, hb]
      · rw [Function.update_of_ne hi, Function.update_of_ne hi, hb]
    · exact hb

theorem local_rasterRow (d : Draw F) (zwrite : Bool) {y : ℤ} (hy : 0 ≤ y) :
    Local (rasterRow width d zwrite y) (inRow width y) := by
  refine @Local.foldl _ _ _ _ (fun f _ => f.step (setup width d))
    (fun f x => writeFragment width d zwrite y f x) _ _ ?_ _
  intro f x hx
  obtain ⟨hlo, hhi⟩ := Int.mem_range_iff.mp hx
  have hminx : 0 ≤ (setup width d).minx := le_max_left _ _
  have hmaxx : (setup width d).maxx ≤ width - 1 := min_le_left _ _
  have hleft := le_trans (le_max_right _ _) hlo
  have hright := le_trans (Int.lt_add_one_iff.mp hhi) (min_le_right _ _)
  exact local_writeFragment d zwrite (by omega) (by omega) hy f

theorem nodup_range (m n : ℤ) : (Int.range m n).Nodup :=
  List.Nodup.map (fun a b hab => by omega) List.nodup_range

theorem filter_range_eq (m n y : ℤ) :
    (Int.range m n).filter (· = y) = if m ≤ y ∧ y < n then [y] else [] := by
  rw [List.filter_eq]
  split_ifs with h
  · rw [List.count_eq_one_of_mem (nodup_range m n) (Int.mem_range_iff.mpr h), List.replicate_one]
  · rw [List.count_eq_zero_of_not_mem fun hmem => h (Int.mem_range_iff.mp hmem),
      List.replicate_zero]

theorem touches_iff {d : Draw F} {y : ℤ} : touches width y d = true ↔
    le (-const 1e-6) (area d.s) = false ∧ (setup width d).minx ≤ (setup width d).maxx ∧
      d.ymin ≤ y ∧ y ≤ d.ymax := by
  rw [d.ymin_eq, d.ymax_eq]
  simp [touches, and_assoc]

theorem filter_bandRows (d : Draw F) (bandY0 bandY1 y : ℤ) :
    (bandRows width d bandY0 bandY1).filter (· = y) =
      if bandY0 ≤ y ∧ y < bandY1 ∧ touches width y d = true then [y] else [] := by
  unfold bandRows
  rw [← d.ymin_eq, ← d.ymax_eq]
  simp only [touches_iff]
  cases harea : le (-const 1e-6) (area d.s) with
  | true => simp
  | false =>
    simp only [Bool.false_eq_true, if_false, true_and]
    by_cases hnone : (setup width d).maxx < (setup width d).minx ∨
        min (bandY1 - 1) d.ymax < max bandY0 d.ymin
    · rw [if_pos (by simpa using hnone), List.filter_nil, if_neg]
      omega
    · rw [if_neg (by simpa using hnone), filter_range_eq]
      congr 1
      apply propext
      omega

theorem filter_bandSchedule (draws : List (Draw F)) (bandY0 bandY1 y : ℤ) :
    (bandSchedule width height draws bandY0 bandY1).filter (fun k => k.2 = y) =
      if max bandY0 0 ≤ y ∧ y < min bandY1 height then
        (draws.filter (touches width y)).map (·, y)
      else [] := by
  have hdraw : ∀ d : Draw F,
      (if d.ymax < max bandY0 0 || min bandY1 height ≤ d.ymin then []
        else (bandRows width d (max bandY0 0) (min bandY1 height)).map (d, ·)).filter
          (fun k => k.2 = y) =
      if max bandY0 0 ≤ y ∧ y < min bandY1 height ∧ touches width y d = true then [(d, y)]
      else [] := by
    intro d
    by_cases hreject : d.ymax < max bandY0 0 ∨ min bandY1 height ≤ d.ymin
    · -- the test on the rows of the triangle only skips what is not drawn in the band
      rw [if_pos (by simpa using hreject), List.filter_nil, if_neg]
      rw [touches_iff]
      omega
    · rw [if_neg (by simpa using hreject), List.filter_map]
      show ((bandRows width d _ _).filter (· = y)).map (d, ·) = _
      rw [filter_bandRows]
      split_ifs <;> rfl
  unfold bandSchedule
  rw [List.filter_flatMap]
  induction draws with
  | nil => simp
  | cons d draws ih =>
    rw [List.flatMap_cons, ih, hdraw]
    by_cases hband : max bandY0 0 ≤ y ∧ y < min bandY1 height
    · rw [if_pos hband, if_pos hband]
      cases htouches : touches width y d with
      | true => simp [hband, htouches]
      | false => simp [htouches]
    · rw [if_neg hband, if_neg hband, if_neg fun h => hband ⟨h.1, h.2.1⟩, List.append_nil]

theorem drawListBand_eq (draws : List (Draw F)) (zwrite : Bool) (bandY0 bandY1 : ℤ)
    (pixels : ℕ → Pixel F) :
    drawListBand width height draws zwrite bandY0 bandY1 pixels =
      runAll (fun k => rasterRow width k.1 zwrite k.2)
        (bandSchedule width height draws bandY0 bandY1) pixels := by
  unfold drawListBand bandSchedule
  induction draws generalizing pixels with
  | nil => rfl
  | cons d draws ih =>
    rw [List.foldl_cons, List.flatMap_cons, runAll_append, ih]
    congr 1
    split_ifs
    · rfl
    · rw [rasterBand, runAll, List.foldl_map]

theorem drawStripes_eq (draws : List (Draw F)) (zwrite : Bool) (stripes : List (ℤ × ℤ))
    (pixels : ℕ → Pixel F) :
    drawStripes width height draws zwrite stripes pixels =
      runAll (fun k => rasterRow width k.1 zwrite k.2)
        (stripes.flatMap fun stripe => bandSchedule width height draws stripe.1 stripe.2)
        pixels := by
  unfold drawStripes
  induction stripes generalizing pixels with
  | nil => rfl
  | cons stripe stripes ih =>
    rw [List.foldl_cons, List.flatMap_cons, runAll_append, ih, drawListBand_eq]

theorem nonneg_of_mem_bandSchedule {draws : List (Draw F)} {bandY0 bandY1 : ℤ}
    {k : Draw F × ℤ} (h : k ∈ bandSchedule width height draws bandY0 bandY1) : 0 ≤ k.2 := by
  have hmem : k ∈ (bandSchedule width height draws bandY0 bandY1).filter (fun k' => k'.2 = k.2) :=
    List.mem_filter.mpr ⟨h, by simp⟩
  rw [filter_bandSchedule] at hmem
  split_ifs at hmem with hband
  · exact le_trans (le_max_right _ _) hband.1
  · cases hmem

theorem flatMap_ite {α β : Type*} (p : α → Bool) (l : List β) (xs : List α) :
    (xs.flatMap fun x => if p x then l else []) = (List.replicate (xs.countP p) l).flatten := by
  induction xs with
  | nil => rfl
  | cons x xs ih =>
    cases hx : p x with
    | true =>
      rw [List.flatMap_cons, ih, if_pos hx, List.countP_cons_of_pos hx, List.replicate_succ,
        List.flatten_cons]
    | false =>
      rw [List.flatMap_cons, ih, if_neg (by simp [hx]), List.countP_cons_of_neg (by simp [hx]),
        List.nil_append]

theorem Consecutive.le {a z : ℤ} {stripes : List (ℤ × ℤ)} (h : Consecutive a z stripes) :
    a ≤ z := by
  induction h with
  | nil y => exact le_refl y
  | cons hle _ ih => exact le_trans hle ih

theorem Consecutive.countP {a z : ℤ} {stripes : List (ℤ × ℤ)} (h : Consecutive a z stripes)
    (ha : 0 ≤ a) (hz : z ≤ height) (y : ℤ) :
    stripes.countP (fun stripe => max stripe.1 0 ≤ y && y < min stripe.2 height) =
      if a ≤ y ∧ y < z then 1 else 0 := by
  induction h with
  | nil y' =>
    rw [List.countP_nil, if_neg]
    omega
  | @cons a b z stripes hle hrest ih =>
    have hend := hrest.le
    by_cases hin : a ≤ y ∧ y < b
    · rw [List.countP_cons_of_pos (by simp; omega), ih (by omega) hz, if_neg (by omega),
        if_pos (by omega)]
    · rw [List.countP_cons_of_neg (by simp; omega), ih (by omega) hz]
      congr 1
      apply propext
      omega

theorem filter_stripes {stripes order : List (ℤ × ℤ)} (h : Consecutive 0 height stripes)
    (horder : order.Perm stripes) (draws : List (Draw F)) (y : ℤ) :
    (order.flatMap fun stripe => bandSchedule width height draws stripe.1 stripe.2).filter
        (fun k => k.2 = y) =
      (bandSchedule width height draws 0 height).filter (fun k => k.2 = y) := by
  have hcount := horder.countP_eq fun stripe => max stripe.1 0 ≤ y && y < min stripe.2 height
  rw [h.countP (le_refl 0) (le_refl height)] at hcount
  have hbands : (fun stripe : ℤ × ℤ =>
      (bandSchedule width height draws stripe.1 stripe.2).filter (fun k => k.2 = y)) =
      fun stripe => if max stripe.1 0 ≤ y && y < min stripe.2 height then
        (draws.filter (touches width y)).map (·, y) else [] := by
    funext stripe
    rw [filter_bandSchedule]
    simp only [Bool.and_eq_true, decide_eq_true_eq]
  rw [List.filter_flatMap, hbands, flatMap_ite, hcount, filter_bandSchedule, max_self, min_self]
  split_ifs <;> simp

theorem runAll_stripes {stripes order : List (ℤ × ℤ)} (h : Consecutive 0 height stripes)
    (horder : order.Perm stripes) (draws : List (Draw F)) (zwrite : Bool)
    (pixels : ℕ → Pixel F) :
    runAll (fun k => rasterRow width k.1 zwrite k.2)
        (order.flatMap fun stripe => bandSchedule width height draws stripe.1 stripe.2) pixels =
      runAll (fun k => rasterRow width k.1 zwrite k.2)
        (bandSchedule width height draws 0 height) pixels := by
  have hlocal : ∀ k : Draw F × ℤ, 0 ≤ k.2 →
      Local (rasterRow width k.1 zwrite k.2) (inRow width k.2) :=
    fun k hk => local_rasterRow k.1 zwrite hk
  apply runAll_eq_of_filter_eq fun k => inRow width k.2
  · intro k hk
    obtain ⟨stripe, -, hmem⟩ := List.mem_flatMap.mp hk
    exact hlocal k (nonneg_of_mem_bandSchedule hmem)
  · exact fun k hk => hlocal k (nonneg_of_mem_bandSchedule hk)
  · intro i
    have hrow : (fun k : Draw F × ℤ => inRow width k.2 i) =
        fun k => decide (k.2 = ((i / width.toNat : ℕ) : ℤ)) := by
      funext k
      simp [inRow, eq_comm]
    rw [hrow, filter_stripes h horder]

end Rows

/-- `GGFE_STRIPES`. -/
def ggfeStripeCount : ℕ := 24

/-- `y0` and `y1` of a stripe. -/
def ggfeStripe (height : ℤ) (stripe : ℕ) : ℤ × ℤ :=
  (height * stripe / ggfeStripeCount, height * (stripe + 1 : ℕ) / ggfeStripeCount)

/-- The stripes that `ggfe_run_stripes` claims. -/
def ggfeStripes (height : ℤ) : List (ℤ × ℤ) :=
  (List.range ggfeStripeCount).map (ggfeStripe height)

theorem consecutive_cuts {cut : ℕ → ℤ} (hcut : ∀ k, cut k ≤ cut (k + 1)) (n k : ℕ) :
    Consecutive (cut k) (cut (k + n)) ((List.range' k n).map fun j => (cut j, cut (j + 1))) := by
  induction n generalizing k with
  | zero => exact .nil _
  | succ n ih =>
    rw [List.range'_succ, List.map_cons, Nat.add_comm n 1, ← Nat.add_assoc]
    exact .cons (hcut k) (ih (k + 1))

theorem consecutive_ggfeStripes {height : ℤ} (hheight : 0 ≤ height) :
    Consecutive 0 height (ggfeStripes height) := by
  have hcut : ∀ k : ℕ, height * k / ggfeStripeCount ≤ height * (k + 1 : ℕ) / ggfeStripeCount := by
    intro k
    apply Int.ediv_le_ediv (by decide)
    apply Int.mul_le_mul_of_nonneg_left _ hheight
    omega
  have hcuts := consecutive_cuts hcut ggfeStripeCount 0
  have hstripe : ggfeStripe height = fun k : ℕ =>
      (height * k / ggfeStripeCount, height * (k + 1 : ℕ) / ggfeStripeCount) := rfl
  simpa [ggfeStripes, hstripe, List.range_eq_range', ggfeStripeCount] using hcuts

/-- Drawing the list in consecutive stripes, in any order of the stripes, leaves the buffers
as drawing it over the whole target does. -/
theorem drawStripes_eq_drawList (width height : ℤ) (draws : List (Draw F)) (zwrite : Bool)
    {stripes order : List (ℤ × ℤ)} (h : Consecutive 0 height stripes)
    (horder : order.Perm stripes) (pixels : ℕ → Pixel F) :
    drawStripes width height draws zwrite order pixels =
      drawList width height draws zwrite pixels := by
  rw [drawStripes_eq, drawList, drawListBand_eq, runAll_stripes h horder]

/-- Exact arithmetic, with the conversions of C. -/
instance ratOps : FloatOps ℚ where
  lt a b := a < b
  le a b := a ≤ b
  const q := q
  ofInt n := n
  toInt q := if 0 ≤ q then q.floor else q.ceil
  ofByte c := c.toNat
  toByte q := q.floor.toNat.toUInt8
  floor q := q.floor
  ceil q := q.ceil
  fmin := min
  fmax := max
  expf _ := 1

/-- A red triangle over the first four rows. -/
def sampleDraw : Draw ℚ where
  s := ![![0, 0, 1], ![0, 4, 1], ![4, 0, 1]]
  uv _ _ := 0
  tex := none
  colour := ![200, 0, 0]
  shade := 1
  alpha := 1
  rim := 0
  gloss := false
  ymin := 0
  ymax := 4
  ymin_eq := by decide +kernel
  ymax_eq := by decide +kernel

/-- A black target. -/
def blackPixels (_ : ℕ) : Pixel ℚ := ⟨fun _ => 0, 0⟩

theorem drawStripes_eq_drawList_sample :
    (drawList 4 4 [sampleDraw] true blackPixels 5).rgb 0 = 200 ∧
    drawStripes 4 4 [sampleDraw] true [(2, 4), (0, 2)] blackPixels =
      drawList 4 4 [sampleDraw] true blackPixels := by
  refine ⟨by decide +kernel, ?_⟩
  have hstripes : Consecutive 0 4 [(0, 2), (2, 4)] :=
    .cons (by decide) (.cons (by decide) (.nil 4))
  exact drawStripes_eq_drawList 4 4 [sampleDraw] true hstripes (List.Perm.swap _ _ _) blackPixels

end PlumosBubble.Cart3d
