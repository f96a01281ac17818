import Mathlib.Algebra.Order.Field.Rat
import Mathlib.Data.Int.Interval
import Mathlib.Data.List.Sort
import Mathlib.Data.Rat.Floor
import Mathlib.Tactic.Linarith
import Mathlib.Tactic.FieldSimp
import PlumosBubble.Ggfe.Carousel
import PlumosBubble.Ggfe.LabelCache

/-! The labels in the frames that `ggfe_compose` draws. The draws of a frame point at the slots of
the labels and are rasterised at its end, when all of its labels have been asked for. -/

namespace PlumosBubble.Ggfe

open Frontend Function

/-- The fields of `struct ggfe_frame` that decide which cartridges are drawn. -/
structure Frame where
  pos : ℚ
  others : ℚ

/-- The integer part of a float. -/
def truncated (x : ℚ) : ℤ := x.num.tdiv x.den

/-- `fmodf`, whose result is exact. -/
def fmodf (x y : ℚ) : ℚ := x - y * truncated (x / y)

section Frames

variable (round : ℚ → ℚ)

/-- `ggfe_cyclic_distance`. -/
def cyclicDistance (index : ℤ) (pos : ℚ) (count : ℤ) : ℚ :=
  if count ≤ 0 then 0
  else
    let d := fmodf (round (round index - pos)) (round count)
    let half := round (round count * round (1 / 2))
    let d := if half < d then round (d - round count) else d
    if d < -half then round (d + round count) else d

/-- The `alpha` of `ggfe_carousel_slot`. -/
def slotAlpha (d : ℚ) : ℚ :=
  let alpha := round (round (27 / 20) - round (round (21 / 50) * |d|))
  let alpha := if 1 < alpha then 1 else alpha
  if alpha < 0 then 0 else alpha

/-- The cartridges within `GGFE_CAROUSEL_SPAN`, sixteen at most, with their distances. -/
def inSpan (count : ℤ) (pos : ℚ) : List (ℤ × ℚ) :=
  (((List.range count.toNat).map fun i : ℕ => ((i : ℤ), cyclicDistance round i pos count)).filter
    fun o => !decide (round (16 / 5) < |o.2|)).take 16

/-- The cartridges whose labels `ggfe_compose` asks for, the farthest first. -/
def composed (count : ℤ) (f : Frame) : List ℤ :=
  let logical := toInt (truncated (round (f.pos + if f.pos < 0 then -1 / 2 else 1 / 2)))
  let sel := wrapIndex logical count
  let order := (inSpan round count f.pos).insertionSort fun a b => |b.2| ≤ |a.2|
  (order.filter fun o =>
    round (1 / 50) < round (slotAlpha round o.2 * if o.1 = sel then 1 else f.others)).map Prod.fst

/-- The requests of `ggfe_warm_labels`. -/
def warmed (count center : ℤ) : List ℤ :=
  if count ≤ 0 then []
  else (List.range 9).map fun k : ℕ => wrapIndex (toInt (center + (k - 4))) count

variable {Image Memory Pixels : Type*} (art : LabelArt Image Memory Pixels)

/-- Requests with their answers. -/
def answered (entries : List ℤ) (answers : ℕ → LabelAnswer Memory) :
    List (ℤ × LabelAnswer Memory) :=
  entries.zipIdx.map fun e => (e.1, answers e.2)

/-- `ggfe_warm_labels`. -/
def warmLabels (count : ℤ) (app : LabelApp Pixels) (center : ℤ)
    (answers : ℕ → LabelAnswer Memory) : LabelApp Pixels :=
  (labelTexs art app (answered (warmed count center) answers)).1

/-- `ggfe_compose`: what is sampled is what the slots hold behind it. -/
def compose (count : ℤ) (app : LabelApp Pixels) (f : Frame) (answers : ℕ → LabelAnswer Memory) :
    LabelApp Pixels × List (ℤ × Option (Fin labelCache)) :=
  labelTexs art app (answered (composed round count f) answers)

/-- The calls that ask for labels. -/
inductive LabelCall (Memory : Type*) where
  | label (entry : ℤ) (a : LabelAnswer Memory)
  | warm (center : ℤ) (answers : ℕ → LabelAnswer Memory)
  | compose (frame : Frame) (answers : ℕ → LabelAnswer Memory)

/-- What a call leaves. -/
def LabelCall.step (count : ℤ) (app : LabelApp Pixels) : LabelCall Memory → LabelApp Pixels
  | .label entry a => (labelTex art app entry a).1
  | .warm center answers => warmLabels art count app center answers
  | .compose frame answers => (Ggfe.compose round art count app frame answers).1

/-- The requests of a call. -/
def LabelCall.requests (count : ℤ) : LabelCall Memory → List (ℤ × LabelAnswer Memory)
  | .label entry a => [(entry, a)]
  | .warm center answers => answered (warmed count center) answers
  | .compose frame answers => answered (composed round count frame) answers

/-- The slots as `ggfe_app_init` leaves them. -/
def LabelApp.start : LabelApp Pixels := ⟨fun _ => ⟨0, false, 0, none⟩, 0⟩

/-- The slots after the requests. -/
def asked (reqs : List (ℤ × LabelAnswer Memory)) : LabelApp Pixels :=
  (labelTexs art .start reqs).1

/-- Over the calls: a texture shows the label of the entry that was asked for, an entry has one
slot at most, a texture stays while no more entries than there are slots are asked for, and what
a frame samples for a cartridge is the label of this cartridge. -/
structure Coherent (count : ℤ) (calls : List (LabelCall Memory)) : Prop where
  returned : ∀ before entry a after,
    calls.flatMap (LabelCall.requests round count) = before ++ (entry, a) :: after →
      ∀ i, (labelTex art (asked art before) entry a).2 = some i →
        (labelTex art (asked art before) entry a).1.Samples art entry i
  oneSlot : ∀ before after,
    calls.flatMap (LabelCall.requests round count) = before ++ after →
      (asked art before).OneSlot
  stays : ∀ before reqs after,
    calls.flatMap (LabelCall.requests round count) = before ++ reqs ++ after →
      (reqs.map Prod.fst).toFinset.card ≤ labelCache →
        ∀ r ∈ (labelTexs art (asked art before) reqs).2, ∀ i, r.2 = some i →
          (labelTexs art (asked art before) reqs).1.Samples art r.1 i
  sampled : ∀ before frame answers after, calls = before ++ .compose frame answers :: after →
    let app := before.foldl (LabelCall.step round art count) .start
    ∀ r ∈ (compose round art count app frame answers).2, ∀ i, r.2 = some i →
      (compose round art count app frame answers).1.Samples art r.1 i

variable {round art} {count : ℤ}

theorem step_eq (app : LabelApp Pixels) (call : LabelCall Memory) :
    call.step round art count app = (labelTexs art app (call.requests round count)).1 := by
  cases call <;> rfl

theorem foldl_step (app : LabelApp Pixels) (calls : List (LabelCall Memory)) :
    calls.foldl (LabelCall.step round art count) app =
      (labelTexs art app (calls.flatMap (LabelCall.requests round count))).1 := by
  induction calls generalizing app with
  | nil => rfl
  | cons call calls ih => rw [List.foldl_cons, ih, step_eq, List.flatMap_cons, labelTexs_append]

theorem kept_start : (LabelApp.start : LabelApp Pixels).Kept art := by
  constructor
  · intro i j hi
    cases hi
  · intro i hi
    cases hi
  · intro i
    exact le_rfl

variable (art) in
theorem kept_asked {reqs : List (ℤ × LabelAnswer Memory)} (h : reqs.length < ulongSize) :
    (asked art reqs).Kept art ∧ (asked art reqs).labelTick ≤ reqs.length := by
  have hzero : (LabelApp.start : LabelApp Pixels).labelTick + reqs.length = reqs.length :=
    Nat.zero_add _
  have hstart : (LabelApp.start : LabelApp Pixels).Kept art := kept_start
  obtain ⟨hkept, htick⟩ := hstart.labelTexs (hzero.trans_lt h)
  exact ⟨hkept, htick.trans_eq hzero⟩

theorem map_answered (entries : List ℤ) (answers : ℕ → LabelAnswer Memory) :
    (answered entries answers).map Prod.fst = entries := by
  rw [answered, List.map_map]
  exact List.zipIdx_map_fst 0 entries

theorem map_labelTexs (app : LabelApp Pixels) (reqs : List (ℤ × LabelAnswer Memory)) :
    (labelTexs art app reqs).2.map Prod.fst = reqs.map Prod.fst := by
  induction reqs generalizing app with
  | nil => rfl
  | cons req rest ih =>
    obtain ⟨entry, a⟩ := req
    rw [labelTexs, List.map_cons, List.map_cons, ih]

theorem nodup_composed (f : Frame) : (composed round count f).Nodup := by
  have hrange : ((List.range count.toNat).map fun i : ℕ =>
      ((i : ℤ), cyclicDistance round i f.pos count)).Pairwise fun a b => a.1 ≠ b.1 := by
    rw [List.pairwise_map]
    exact List.nodup_range.imp fun hne hsame => hne (Int.natCast_inj.mp hsame)
  have hspan : (inSpan round count f.pos).Pairwise fun a b => a.1 ≠ b.1 :=
    (hrange.filter _).sublist (List.take_sublist _ _)
  have hsorted := (List.perm_insertionSort (fun a b : ℤ × ℚ => |b.2| ≤ |a.2|)
    (inSpan round count f.pos)).symm.pairwise hspan fun h => h.symm
  exact List.pairwise_map.mpr (hsorted.filter _)

theorem labelTexs_returns {reqs : List (ℤ × LabelAnswer Memory)} :
    ∀ {app : LabelApp Pixels}, app.Kept art → app.labelTick + reqs.length < ulongSize →
      (∀ req ∈ reqs, req.2.allocates = true) →
        ∀ r ∈ (labelTexs art app reqs).2, ∃ i, r.2 = some i := by
  induction reqs with
  | nil =>
    intro app _ _ _ r hr
    cases hr
  | cons req rest ih =>
    intro app hkept hticks hmemory r hr
    obtain ⟨entry, a⟩ := req
    rw [List.length_cons] at hticks
    obtain ⟨hnext, htick⟩ := hkept.labelTex (by omega) entry a
    rcases List.mem_cons.mp hr with rfl | hr
    · rcases labelTex_cases hkept (by omega) entry a with ⟨-, hnone⟩ | ⟨i, hi, -⟩
      · rw [hmemory (entry, a) List.mem_cons_self] at hnone
        cases hnone
      · exact ⟨i, hi⟩
    · exact ih hnext (by omega) (fun req hreq => hmemory req (List.mem_cons_of_mem _ hreq)) r hr

theorem card_le_of_samples {app : LabelApp Pixels} {entries : List ℤ} (hnodup : entries.Nodup)
    (h : ∀ entry ∈ entries, ∃ i, app.Samples art entry i) : entries.length ≤ labelCache := by
  have hsub : entries.toFinset ⊆ Finset.univ.image fun i => (app.labels i).entry := by
    intro entry hentry
    obtain ⟨i, hi⟩ := h entry (List.mem_toFinset.mp hentry)
    exact Finset.mem_image.mpr ⟨i, Finset.mem_univ i, hi.same⟩
  calc entries.length = entries.toFinset.card := (List.toFinset_card_of_nodup hnodup).symm
    _ ≤ (Finset.univ.image fun i => (app.labels i).entry).card := Finset.card_le_card hsub
    _ ≤ (Finset.univ : Finset (Fin labelCache)).card := Finset.card_image_le
    _ = labelCache := Finset.card_fin _

theorem requests_compose (frame : Frame) (answers : ℕ → LabelAnswer Memory) :
    (LabelCall.compose frame answers).requests round count =
      answered (composed round count frame) answers := rfl

variable (art) in
theorem kept_before {calls : List (LabelCall Memory)} {before after : List (ℤ × LabelAnswer Memory)}
    (hticks : (calls.flatMap (LabelCall.requests round count)).length < ulongSize)
    (h : calls.flatMap (LabelCall.requests round count) = before ++ after) :
    (asked art before).Kept art ∧
      (asked art before).labelTick + after.length < ulongSize := by
  rw [h, List.length_append] at hticks
  have hbefore : before.length < ulongSize := by omega
  obtain ⟨hkept, htick⟩ := kept_asked art hbefore
  exact ⟨hkept, by omega⟩

theorem flatMap_between {calls before after : List (LabelCall Memory)} {call : LabelCall Memory}
    (h : calls = before ++ call :: after) :
    calls.flatMap (LabelCall.requests round count) =
      before.flatMap (LabelCall.requests round count) ++
        (call.requests round count ++ after.flatMap (LabelCall.requests round count)) := by
  rw [h, List.flatMap_append, List.flatMap_cons]

theorem coherent_of_uncrowded {calls : List (LabelCall Memory)}
    (hticks : (calls.flatMap (LabelCall.requests round count)).length < ulongSize)
    (hcrowd : ∀ frame answers, .compose frame answers ∈ calls →
      (composed round count frame).length ≤ labelCache) :
    Coherent round art count calls := by
  have hstays : ∀ before reqs after,
      calls.flatMap (LabelCall.requests round count) = before ++ reqs ++ after →
        (reqs.map Prod.fst).toFinset.card ≤ labelCache →
          ∀ r ∈ (labelTexs art (asked art before) reqs).2, ∀ i, r.2 = some i →
            (labelTexs art (asked art before) reqs).1.Samples art r.1 i := by
    intro before reqs after hcalls hcard
    have hcalls' := hcalls.trans (List.append_assoc _ _ _)
    obtain ⟨hkept, htick⟩ := kept_before art hticks hcalls'
    rw [List.length_append] at htick
    have hnew : (asked art before).Recent (asked art before).labelTick
        (reqs.map Prod.fst).toFinset := by
      intro i _ hused
      exact absurd (hkept.used i) (by omega)
    have hall : ∀ req ∈ reqs, req.1 ∈ (reqs.map Prod.fst).toFinset := fun req hreq =>
      List.mem_toFinset.mpr (List.mem_map_of_mem hreq)
    exact (labelTexs_stay hcard hkept (by omega) le_rfl hnew hall).2
  constructor
  · intro before entry a after hcalls i hi
    obtain ⟨hkept, htick⟩ := kept_before art hticks hcalls
    rw [List.length_cons] at htick
    rcases labelTex_cases hkept (by omega) entry a with ⟨hsame, -⟩ | ⟨j, hj, huses⟩
    · rw [hsame] at hi
      cases hi
    · rw [hj] at hi
      cases hi
      exact huses.samples
  · intro before after hcalls
    exact (kept_before art hticks hcalls).1.oneSlot
  · exact hstays
  · intro before frame answers after hcalls
    dsimp only
    rw [foldl_step]
    have hsplit : calls.flatMap (LabelCall.requests round count) = _ := flatMap_between hcalls
    rw [← List.append_assoc] at hsplit
    refine hstays _ _ _ hsplit ?_
    have hmem : LabelCall.compose frame answers ∈ calls := by
      rw [hcalls]
      exact List.mem_append_right _ List.mem_cons_self
    rw [map_answered, List.toFinset_card_of_nodup (nodup_composed frame)]
    exact hcrowd frame answers hmem

theorem uncrowded_of_coherent {calls : List (LabelCall Memory)}
    (hticks : (calls.flatMap (LabelCall.requests round count)).length < ulongSize)
    (h : Coherent round art count calls) {frame : Frame} {answers : ℕ → LabelAnswer Memory}
    (hmem : .compose frame answers ∈ calls) (hmemory : ∀ k, (answers k).allocates = true) :
    (composed round count frame).length ≤ labelCache := by
  obtain ⟨before, after, hcalls⟩ := List.append_of_mem hmem
  have hsampled := h.sampled before frame answers after hcalls
  dsimp only at hsampled
  rw [foldl_step] at hsampled
  obtain ⟨hkept, htick⟩ := kept_before art hticks (flatMap_between hcalls)
  rw [List.length_append, requests_compose] at htick
  have hall : ∀ req ∈ answered (composed round count frame) answers, req.2.allocates = true := by
    intro req hreq
    obtain ⟨e, -, rfl⟩ := List.mem_map.mp hreq
    exact hmemory e.2
  have hreturns := labelTexs_returns hkept (by omega) hall
  have hsamples : ∀ entry ∈ composed round count frame, ∃ i,
      (compose round art count (asked art (before.flatMap (LabelCall.requests round count)))
        frame answers).1.Samples art entry i := by
    intro entry hentry
    rw [← map_answered (composed round count frame) answers, ← map_labelTexs] at hentry
    obtain ⟨r, hr, rfl⟩ := List.mem_map.mp hentry
    obtain ⟨i, hi⟩ := hreturns r hr
    exact ⟨i, hsampled r hr i hi⟩
  exact card_le_of_samples (nodup_composed frame) hsamples

end Frames

/-- From the slots of a new frontend, any calls: the labels are coherent if no frame draws more
cartridges than there are slots, and only then, if there is memory for the slots. -/
theorem labels_coherent_iff {Image Memory Pixels : Type*} (round : ℚ → ℚ)
    (art : LabelArt Image Memory Pixels) (count : ℤ) (calls : List (LabelCall Memory))
    (hticks : (calls.flatMap (LabelCall.requests round count)).length < ulongSize) :
    ((∀ frame answers, .compose frame answers ∈ calls →
        (composed round count frame).length ≤ labelCache) →
      Coherent round art count calls) ∧
    (Coherent round art count calls → ∀ frame answers, .compose frame answers ∈ calls →
      (∀ k, (answers k).allocates = true) → (composed round count frame).length ≤ labelCache) :=
  ⟨coherent_of_uncrowded hticks, fun h _ _ hmem hmemory =>
    uncrowded_of_coherent hticks h hmem hmemory⟩

/-- Labels that are the title of the cartridge. -/
def plates : LabelArt Unit Unit CString where
  entries i := ⟨[i.toNat.toUInt8], [], [], [], [], [], .unknown⟩
  image _ := ()
  classifySize _ := .boxart
  labelBuild _ _ _ := []
  drawTitle title pixels := pixels ++ title

def answersWell (_ : ℕ) : LabelAnswer Unit := ⟨true, true, ()⟩

theorem labels_coherent_sample :
    Coherent id plates 16 [.warm 0 answersWell, .compose ⟨0, 1⟩ answersWell] := by
  have hticks : (([.warm 0 answersWell, .compose ⟨0, 1⟩ answersWell] : List _).flatMap
      (LabelCall.requests id 16)).length < ulongSize := by decide +kernel
  refine (labels_coherent_iff id plates 16 _ hticks).1 ?_
  intro frame answers hmem
  rcases List.mem_cons.mp hmem with hwarm | hmem
  · cases hwarm
  · cases List.mem_singleton.mp hmem
    decide +kernel

/-- The rounding of a single precision float, to the nearest one and to an even one of two. -/
def roundSingle (x : ℚ) : ℚ :=
  let size := |x|
  let exponent : ℤ :=
    if 1 ≤ size then (size.num.natAbs / size.den).log2
    else -((⌈1 / size⌉ - 1).natAbs.log2 + 1)
  let unit : ℚ := 2 ^ (exponent - 23)
  let near := ⌊x / unit + 1 / 2⌋
  let tie : Bool := x / unit + 1 / 2 = near
  (if tie ∧ near % 2 = 1 then near - 1 else near : ℤ) * unit

/-- A page key that is held down in the gallery model: each repetition is queued behind the motion
that runs. -/
def heldOps : ℕ → List ScrollOp
  | 0 => [.request 5 0]
  | n + 1 => heldOps n ++ [.request 5 (360 * n + 1), .position (360 * (n + 1))]

theorem held_run {n : ℕ} (h : 5 * (n + 1) < 2 ^ 31) (round : ℚ → ℚ) :
    ∃ target pendingTarget pendingTo,
      (Ride.run round 16 ⟨startScroll .gallery 360, []⟩ (heldOps n)).scroll =
        ⟨.gallery, 360, target, round (5 * n : ℤ), 5 * (n + 1), true, pendingTarget, pendingTo,
          false, 360 * n⟩ := by
  have hmoves : ScrollState.Moves 16 5 := by decide
  induction n with
  | zero => exact ⟨5, 0, 0, by simp [heldOps, Ride.step, startScroll, ScrollState.requestAt_gallery
      round hmoves, ScrollState.aim]; decide⟩
  | succ n ih =>
    obtain ⟨target, pendingTarget, pendingTo, hrun⟩ := ih (by omega)
    have hfive : Int.tmod 5 16 = 5 := rfl
    have hto : toInt (5 * ((n : ℤ) + 1) + 5) = 5 * ((n + 1 : ℕ) + 1) := by
      rw [toInt_of_isInt ⟨by omega, by omega⟩]
      push_cast
      ring
    have hdue : (360 : ℤ) ≤ 360 * (n + 1) - 360 * n := by omega
    have hstep : ∀ r : Ride,
        (r.run round 16 [.request 5 (360 * n + 1), .position (360 * (n + 1))]).scroll =
          ((r.scroll.requestAt round 16 5 (360 * n + 1)).1.position round (360 * (n + 1))).1 :=
      fun r => rfl
    rw [heldOps, Ride.run_append, hstep, hrun, ScrollState.requestAt_gallery round hmoves rfl,
      if_pos rfl, hfive]
    refine ⟨wrapIndex (toInt (target + 5)) 16, wrapIndex (toInt (target + 5)) 16,
      5 * ((n + 1 : ℕ) + 1), ?_⟩
    simp only [ScrollState.enqueue, ScrollState.position, Bool.not_true, Bool.false_eq_true,
      if_false, if_pos hdue, and_self, if_true, ScrollState.takeQueued, hto]
    push_cast
    rfl

/-- When a page key was held down long enough, all distances of a frame are rounded to zero, and it
draws sixteen cartridges with twelve labels. -/
theorem long_hold_crowds :
    ¬Coherent roundSingle plates 16 [.compose
      ⟨((Ride.run roundSingle 16 ⟨startScroll .gallery 360, []⟩ (heldOps 26843552)).scroll.position
        roundSingle (360 * 26843552)).2.2, 1⟩ answersWell] := by
  obtain ⟨target, pendingTarget, pendingTo, hrun⟩ :=
    held_run (n := 26843552) (by decide) roundSingle
  have hpos : (ScrollState.position roundSingle ⟨.gallery, 360, target, roundSingle
      (5 * (26843552 : ℕ) : ℤ), 5 * ((26843552 : ℕ) + 1), true, pendingTarget, pendingTo, false,
      360 * (26843552 : ℕ)⟩ (360 * 26843552)).2.2 = 134217760 := by
    have hround : roundSingle 134217760 = 134217760 := by decide +kernel
    simp [ScrollState.position, hround]
  rw [hrun, hpos]
  intro h
  have hcrowd : (composed roundSingle 16 ⟨134217760, 1⟩).length = 16 := by decide +kernel
  have hticks : (([.compose ⟨134217760, 1⟩ answersWell] : List _).flatMap
      (LabelCall.requests roundSingle 16)).length < ulongSize := by decide +kernel
  have hfew := uncrowded_of_coherent hticks h List.mem_cons_self (fun _ => rfl)
  rw [hcrowd] at hfew
  exact absurd hfew (by decide)

end PlumosBubble.Ggfe
