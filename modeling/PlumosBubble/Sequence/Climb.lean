import Mathlib.Algebra.Ring.Nat
import Mathlib.Data.List.Induction
import Mathlib.Logic.Relation

/-! Ways down a tree and back up: what is left of a way when its detours are taken out, the stack
that computes it, and what a stack with room for so many steps makes of it. -/

namespace PlumosBubble.Sequence

/-- How a way is read: the step that goes back, the steps that go nowhere, and whether the way
starts at the root, above which there is nothing. -/
structure Climbing (α : Type*) where
  up : α
  idle : α → Bool
  rooted : Bool
  idle_up : idle up = false

/-- Where a way leads: so many steps up, then down by the names, the last one first. -/
@[ext]
structure Place (α : Type*) where
  ups : ℕ
  names : List α
deriving DecidableEq

namespace Place

variable {α : Type*}

def start : Place α := ⟨0, []⟩

def depth (p : Place α) : ℕ := p.ups + p.names.length

/-- The steps to the place, the last one first. -/
def stack (up : α) (p : Place α) : List α := p.names ++ List.replicate p.ups up

theorem length_stack (up : α) (p : Place α) : (p.stack up).length = p.depth := by
  simp [stack, depth, Nat.add_comm]

end Place

namespace Climbing

variable {α : Type*} (c : Climbing α)

/-- Taking out one step that goes nowhere, one detour, or one step above the root. -/
inductive Shortens : List α → List α → Prop
  | idle (before : List α) {s : α} (after : List α) :
    c.idle s = true → Shortens (before ++ s :: after) (before ++ after)
  | detour (before : List α) {s : α} (after : List α) :
    c.idle s = false → s ≠ c.up → Shortens (before ++ s :: c.up :: after) (before ++ after)
  | root (after : List α) : c.rooted = true → Shortens (c.up :: after) after

/-- Nothing can be taken out: no idle steps, and steps up only in front, and not at the root. -/
def Settled (way : List α) : Prop :=
  (∀ s ∈ way, c.idle s = false) ∧
  ∃ ups names, way = List.replicate ups c.up ++ names ∧ c.up ∉ names ∧
    (c.rooted = true → ups = 0)

/-- What is left of a way. -/
def IsNormalForm (way normal : List α) : Prop :=
  Relation.ReflTransGen c.Shortens way normal ∧ c.Settled normal

variable [DecidableEq α]

/-- One step, where what is pushed needs room. -/
def step (room : ℕ → Bool) (p : Place α) (s : α) : Place α :=
  if c.idle s then p
  else if s = c.up then
    match p.names with
    | _ :: names => { p with names := names }
    | [] => if !c.rooted && room p.depth then { p with ups := p.ups + 1 } else p
  else if room p.depth then { p with names := s :: p.names }
  else p

def placeIn (room : ℕ → Bool) (way : List α) : Place α := way.foldl (c.step room) Place.start

/-- Where a way leads. -/
def place (way : List α) : Place α := c.placeIn (fun _ => true) way

/-- Where a stack with room for `cap` steps takes it to lead. -/
def placeWithin (cap : ℕ) (way : List α) : Place α := c.placeIn (fun depth => depth < cap) way

/-- Where a full stack and the way it has lost steps of meet again: the root, or, without one,
as many steps up as there is room for. -/
def bottom (cap : ℕ) : Place α := ⟨if c.rooted then 0 else cap, []⟩

/-- The way has been too deep since it was last at the bottom. -/
def Deep (cap : ℕ) (way : List α) : Prop :=
  ∃ before after, way = before ++ after ∧ cap < (c.place before).depth ∧
    ∀ mid rest, after = mid ++ rest → c.place (before ++ mid) ≠ c.bottom cap

section Steps

variable {c} {room : ℕ → Bool} {p : Place α} {s : α}

theorem step_idle (h : c.idle s = true) : c.step room p s = p := by
  simp [step, h]

theorem step_up_cons (room : ℕ → Bool) (ups : ℕ) (name : α) (names : List α) :
    c.step room ⟨ups, name :: names⟩ c.up = ⟨ups, names⟩ := by
  simp [step, c.idle_up]

theorem step_up_nil (room : ℕ → Bool) (ups : ℕ) :
    c.step room ⟨ups, []⟩ c.up =
      if !c.rooted && room ups then ⟨ups + 1, []⟩ else ⟨ups, []⟩ := by
  simp [step, c.idle_up, Place.depth]

theorem step_name (hidle : c.idle s = false) (hup : s ≠ c.up) (ups : ℕ) (names : List α) :
    c.step room ⟨ups, names⟩ s =
      if room (ups + names.length) then ⟨ups, s :: names⟩ else ⟨ups, names⟩ := by
  unfold step
  rw [hidle, if_neg Bool.false_ne_true, if_neg hup]
  rfl

theorem placeIn_append (way : List α) (s : α) :
    c.placeIn room (way ++ [s]) = c.step room (c.placeIn room way) s := by
  simp [placeIn]

theorem place_append (way : List α) (s : α) :
    c.place (way ++ [s]) = c.step (fun _ => true) (c.place way) s := placeIn_append way s

/-- A place of a reading: its names are names, and at the root there are no steps up. -/
def Proper (c : Climbing α) (p : Place α) : Prop :=
  (∀ name ∈ p.names, c.idle name = false ∧ name ≠ c.up) ∧ (c.rooted = true → p.ups = 0)

theorem Proper.step (h : c.Proper p) (room : ℕ → Bool) (s : α) :
    c.Proper (c.step room p s) := by
  by_cases hidle : c.idle s = true
  · rw [step_idle hidle]
    exact h
  · have hnot : c.idle s = false := by simpa using hidle
    by_cases hup : s = c.up
    · subst hup
      obtain ⟨ups, names⟩ := p
      cases names with
      | cons name names =>
        rw [step_up_cons]
        exact ⟨fun other hother => h.1 other (List.mem_cons_of_mem name hother), h.2⟩
      | nil =>
        rw [step_up_nil]
        split
        · rename_i hroom
          refine ⟨h.1, fun hrooted => ?_⟩
          simp [hrooted] at hroom
        · exact h
    · rw [step_name hnot hup]
      split
      · refine ⟨fun name hname => ?_, h.2⟩
        rcases List.mem_cons.mp hname with rfl | hname
        · exact ⟨hnot, hup⟩
        · exact h.1 name hname
      · exact h

omit [DecidableEq α] in
theorem proper_start : c.Proper Place.start := ⟨by simp [Place.start], fun _ => rfl⟩

theorem proper_placeIn (way : List α) : c.Proper (c.placeIn room way) := by
  induction way using List.reverseRecOn with
  | nil => exact proper_start
  | append_singleton way s ih =>
    rw [placeIn_append]
    exact ih.step room s

theorem mem_names_placeIn {way : List α} {name : α} (h : name ∈ (c.placeIn room way).names) :
    name ∈ way := by
  induction way using List.reverseRecOn with
  | nil => exact absurd h List.not_mem_nil
  | append_singleton way s ih =>
    rw [placeIn_append] at h
    generalize c.placeIn room way = p at h ih
    obtain ⟨ups, names⟩ := p
    rw [List.mem_append, List.mem_singleton]
    by_cases hidle : c.idle s = true
    · rw [step_idle hidle] at h
      exact Or.inl (ih h)
    · by_cases hup : s = c.up
      · subst hup
        cases names with
        | cons other names =>
          rw [step_up_cons] at h
          exact Or.inl (ih (List.mem_cons_of_mem other h))
        | nil =>
          rw [step_up_nil] at h
          split at h <;> exact absurd h List.not_mem_nil
      · rw [step_name (by simpa using hidle) hup] at h
        split at h
        · rcases List.mem_cons.mp h with rfl | h
          · exact Or.inr rfl
          · exact Or.inl (ih h)
        · exact Or.inl (ih h)

theorem weight_placeIn (weight : α → ℕ) (way : List α) :
    (((c.placeIn room way).stack c.up).map weight).sum ≤ (way.map weight).sum := by
  induction way using List.reverseRecOn with
  | nil => exact Nat.le_refl 0
  | append_singleton way s ih =>
    rw [placeIn_append, List.map_append, List.sum_append, List.map_singleton, List.sum_singleton]
    generalize c.placeIn room way = p at ih ⊢
    obtain ⟨ups, names⟩ := p
    unfold Place.stack at ih ⊢
    by_cases hidle : c.idle s = true
    · rw [step_idle hidle]
      exact Nat.le_trans ih (Nat.le_add_right _ _)
    · by_cases hup : s = c.up
      · subst hup
        cases names with
        | cons other names =>
          rw [step_up_cons]
          simp only [List.cons_append, List.map_cons, List.sum_cons] at ih
          show ((names ++ List.replicate ups c.up).map weight).sum ≤ _
          omega
        | nil =>
          rw [step_up_nil]
          split
          · simp only [List.nil_append, List.replicate_succ, List.map_cons, List.sum_cons] at ih ⊢
            omega
          · exact Nat.le_trans ih (Nat.le_add_right _ _)
      · rw [step_name (by simpa using hidle) hup]
        split
        · simp only [List.cons_append, List.map_cons, List.sum_cons] at ih ⊢
          omega
        · exact Nat.le_trans ih (Nat.le_add_right _ _)

end Steps

section NormalForm

variable {c}

/-- The steps that a place stands for. -/
def way (c : Climbing α) (p : Place α) : List α := (p.stack c.up).reverse

omit [DecidableEq α] in
theorem way_eq (p : Place α) : c.way p = List.replicate p.ups c.up ++ p.names.reverse := by
  simp [way, Place.stack]

omit [DecidableEq α] in
theorem settled_way {p : Place α} (h : c.Proper p) : c.Settled (c.way p) := by
  rw [way_eq]
  refine ⟨fun s hs => ?_, p.ups, p.names.reverse, rfl, fun hup => ?_, h.2⟩
  · rcases List.mem_append.mp hs with hs | hs
    · rw [List.eq_of_mem_replicate hs]
      exact c.idle_up
    · exact (h.1 s (List.mem_reverse.mp hs)).1
  · exact (h.1 c.up (List.mem_reverse.mp hup)).2 rfl

omit [DecidableEq α] in
theorem shortens_append {way way' : List α} (h : c.Shortens way way') (after : List α) :
    c.Shortens (way ++ after) (way' ++ after) := by
  cases h with
  | idle before rest hidle => simpa using Shortens.idle before (rest ++ after) hidle
  | detour before rest hidle hup => simpa using Shortens.detour before (rest ++ after) hidle hup
  | root rest hrooted => exact Shortens.root _ hrooted

theorem shortens_step {p : Place α} (h : c.Proper p) (s : α) :
    Relation.ReflTransGen c.Shortens (c.way p ++ [s]) (c.way (c.step (fun _ => true) p s)) := by
  by_cases hidle : c.idle s = true
  · rw [step_idle hidle]
    apply Relation.ReflTransGen.single
    simpa using Shortens.idle (c.way p) [] hidle
  · have hnot : c.idle s = false := by simpa using hidle
    by_cases hup : s = c.up
    · subst hup
      obtain ⟨ups, names⟩ := p
      cases names with
      | cons name names =>
        rw [step_up_cons, way_eq, way_eq]
        have hname := h.1 name List.mem_cons_self
        apply Relation.ReflTransGen.single
        simpa using Shortens.detour (List.replicate ups c.up ++ names.reverse) [] hname.1 hname.2
      | nil =>
        rw [step_up_nil]
        cases hrooted : c.rooted with
        | true =>
          obtain rfl : ups = 0 := h.2 hrooted
          exact Relation.ReflTransGen.single (Shortens.root [] hrooted)
        | false =>
          have hway : c.way ⟨ups + 1, []⟩ = c.way ⟨ups, []⟩ ++ [c.up] := by
            simp [way_eq, List.replicate_succ']
          simp only [Bool.not_false, Bool.and_self, if_true, hway]
          rfl
    · rw [step_name hnot hup]
      have hway : c.way ⟨p.ups, s :: p.names⟩ = c.way p ++ [s] := by
        simp [way_eq]
      simp only [if_true, hway]
      rfl

theorem shortens_place (way : List α) :
    Relation.ReflTransGen c.Shortens way (c.way (c.place way)) := by
  induction way using List.reverseRecOn with
  | nil => rfl
  | append_singleton way s ih =>
    rw [place_append]
    have hlift : Relation.ReflTransGen c.Shortens (way ++ [s]) (c.way (c.place way) ++ [s]) :=
      ih.lift (fun way => way ++ [s]) fun _ _ h => shortens_append h [s]
    exact hlift.trans (shortens_step (proper_placeIn way) s)

theorem isNormalForm_place (way : List α) : c.IsNormalForm way (c.way (c.place way)) :=
  ⟨shortens_place way, settled_way (proper_placeIn way)⟩

theorem place_eq_of_foldl {before after after' : List α}
    (h : ∀ p, c.Proper p → after.foldl (c.step fun _ => true) p =
      after'.foldl (c.step fun _ => true) p) :
    c.place (before ++ after) = c.place (before ++ after') := by
  unfold place placeIn
  rw [List.foldl_append, List.foldl_append]
  exact h _ (proper_placeIn before)

theorem place_shortens {way way' : List α} (h : c.Shortens way way') :
    c.place way = c.place way' := by
  cases h with
  | idle before after hidle =>
    apply place_eq_of_foldl
    intro p _
    rw [List.foldl_cons, step_idle hidle]
  | detour before after hidle hup =>
    apply place_eq_of_foldl
    intro p _
    rw [List.foldl_cons, List.foldl_cons, step_name hidle hup, if_pos rfl, step_up_cons]
  | root after hrooted =>
    unfold place placeIn
    rw [List.foldl_cons]
    have hstart : c.step (fun _ => true) Place.start c.up = Place.start := by
      unfold Place.start
      rw [step_up_nil, hrooted]
      rfl
    rw [hstart]

theorem place_replicate_append {ups : ℕ} (hrooted : c.rooted = true → ups = 0) {names : List α}
    (h : ∀ s ∈ names, c.idle s = false ∧ s ≠ c.up) :
    c.place (List.replicate ups c.up ++ names) = ⟨ups, names.reverse⟩ := by
  have hups : c.place (List.replicate ups c.up) = ⟨ups, []⟩ := by
    induction ups with
    | zero => rfl
    | succ ups ih =>
      have hnot : c.rooted = false := by
        by_contra htrue
        exact absurd (hrooted (by simpa using htrue)) (Nat.succ_ne_zero ups)
      rw [List.replicate_succ', place_append, ih (by simp [hnot]), step_up_nil, hnot]
      rfl
  induction names using List.reverseRecOn with
  | nil => rw [List.append_nil, hups, List.reverse_nil]
  | append_singleton names s ih =>
    have hplace := ih fun s hs => h s (List.mem_append_left _ hs)
    obtain ⟨hidle, hup⟩ := h s (by simp)
    rw [← List.append_assoc, place_append, hplace, step_name hidle hup, if_pos rfl]
    simp

theorem place_way {p : Place α} (h : c.Proper p) : c.place (c.way p) = p := by
  rw [way_eq, place_replicate_append h.2 fun s hs => h.1 s (List.mem_reverse.mp hs),
    List.reverse_reverse]

theorem way_place {way : List α} (h : c.Settled way) : c.way (c.place way) = way := by
  obtain ⟨hidle, ups, names, rfl, hup, hrooted⟩ := h
  have hnames : ∀ s ∈ names, c.idle s = false ∧ s ≠ c.up :=
    fun s hs => ⟨hidle s (List.mem_append_right _ hs), fun h => hup (h ▸ hs)⟩
  rw [place_replicate_append hrooted hnames, way_eq, List.reverse_reverse]

theorem isNormalForm_iff {way normal : List α} :
    c.IsNormalForm way normal ↔ normal = c.way (c.place way) := by
  constructor
  · rintro ⟨hshort, hsettled⟩
    have hplace : c.place way = c.place normal := by
      clear hsettled
      induction hshort with
      | refl => rfl
      | tail _ hstep ih => exact ih.trans (place_shortens hstep)
    rw [hplace, way_place hsettled]
  · rintro rfl
    exact isNormalForm_place way

end NormalForm

section Room

variable {c} {cap : ℕ}

theorem deep_append (way : List α) (s : α) :
    c.Deep cap (way ++ [s]) ↔ (c.Deep cap way ∨ cap < (c.place (way ++ [s])).depth) ∧
      c.place (way ++ [s]) ≠ c.bottom cap := by
  constructor
  · rintro ⟨before, after, hway, hdeep, hnot⟩
    have hend : c.place (way ++ [s]) ≠ c.bottom cap := by
      rw [hway]
      exact hnot after [] (by simp)
    refine ⟨?_, hend⟩
    rcases List.eq_nil_or_concat after with rfl | ⟨after, last, rfl⟩
    · right
      rw [List.append_nil] at hway
      rwa [hway]
    · left
      rw [List.concat_eq_append, ← List.append_assoc] at hway
      obtain ⟨rfl, -⟩ := List.append_inj' hway rfl
      refine ⟨before, after, rfl, hdeep, fun mid rest hafter => ?_⟩
      exact hnot mid (rest ++ [last]) (by simp [hafter])
  · rintro ⟨hdeep | hdeep, hend⟩
    · obtain ⟨before, after, rfl, hdeep, hnot⟩ := hdeep
      refine ⟨before, after ++ [s], by simp, hdeep, fun mid rest hafter => ?_⟩
      rcases List.eq_nil_or_concat rest with rfl | ⟨rest, last, rfl⟩
      · rw [List.append_nil] at hafter
        rwa [← hafter, ← List.append_assoc]
      · rw [List.concat_eq_append, ← List.append_assoc] at hafter
        exact hnot mid rest (List.append_inj' hafter rfl).1
    · refine ⟨way ++ [s], [], by simp, hdeep, fun mid rest hafter => ?_⟩
      obtain ⟨rfl, -⟩ := List.append_eq_nil_iff.mp hafter.symm
      rwa [List.append_nil]

/-- A stack that has lost steps: it stands higher than the way leads, or it is full of steps up
and the way leads higher still. -/
def Behind (c : Climbing α) (cap : ℕ) (kept meant : Place α) : Prop :=
  kept.depth ≤ cap ∧ (c.rooted = true → kept.ups = 0 ∧ meant.ups = 0) ∧
    (kept.names.length + meant.ups < meant.names.length + kept.ups ∨
      cap < meant.ups ∧ kept.ups = cap)

omit [DecidableEq α] in
theorem Behind.ne {kept meant : Place α} (h : c.Behind cap kept meant) : kept ≠ meant := by
  rintro rfl
  obtain ⟨hroom, -, hless | ⟨hless, heq⟩⟩ := h
  · omega
  · omega

omit [DecidableEq α] in
theorem Behind.ne_bottom {kept meant : Place α} (h : c.Behind cap kept meant) :
    meant ≠ c.bottom cap := by
  rintro rfl
  obtain ⟨hroom, hrooted, hless⟩ := h
  unfold bottom Place.depth at *
  cases hroot : c.rooted with
  | true =>
    have hups := hrooted hroot
    simp only [hroot, if_true, List.length_nil] at hups hless
    omega
  | false =>
    simp only [hroot, Bool.false_eq_true, if_false, List.length_nil] at hless
    omega

theorem behind_up_rooted (hroot : c.rooted = true) {keptNames names : List α}
    (hroom : 0 + keptNames.length ≤ cap) (hless : keptNames.length < names.length) :
    c.step (fun depth => depth < cap) ⟨0, keptNames⟩ c.up = c.bottom cap ∧
        c.step (fun _ => true) ⟨0, names⟩ c.up = c.bottom cap ∨
      c.Behind cap (c.step (fun depth => depth < cap) ⟨0, keptNames⟩ c.up)
        (c.step (fun _ => true) ⟨0, names⟩ c.up) := by
  cases names with
  | nil => exact absurd hless (Nat.not_lt_zero _)
  | cons name names =>
    rw [List.length_cons] at hless
    rw [step_up_cons]
    cases keptNames with
    | cons other keptNames =>
      rw [List.length_cons] at hroom hless
      rw [step_up_cons]
      refine Or.inr ⟨?_, fun _ => ⟨rfl, rfl⟩, Or.inl ?_⟩
      · show 0 + keptNames.length ≤ cap
        omega
      · show keptNames.length + 0 < names.length + 0
        omega
    | nil =>
      rw [step_up_nil, hroot, Bool.not_true, Bool.false_and, if_neg Bool.false_ne_true]
      cases names with
      | nil => exact Or.inl ⟨by simp [bottom, hroot], by simp [bottom, hroot]⟩
      | cons name names => exact Or.inr ⟨hroom, fun _ => ⟨rfl, rfl⟩, Or.inl (by simp)⟩

theorem behind_up_free (hroot : c.rooted = false) {keptUps ups : ℕ} {keptNames names : List α}
    (hroom : keptUps + keptNames.length ≤ cap)
    (hless : keptNames.length + ups < names.length + keptUps ∨ cap < ups ∧ keptUps = cap) :
    c.step (fun depth => depth < cap) ⟨keptUps, keptNames⟩ c.up = c.bottom cap ∧
        c.step (fun _ => true) ⟨ups, names⟩ c.up = c.bottom cap ∨
      c.Behind cap (c.step (fun depth => depth < cap) ⟨keptUps, keptNames⟩ c.up)
        (c.step (fun _ => true) ⟨ups, names⟩ c.up) := by
  have hfree : ∀ p q : Place α, c.rooted = true → p.ups = 0 ∧ q.ups = 0 := by simp [hroot]
  have hbottom : c.bottom cap = ⟨cap, []⟩ := by simp [bottom, hroot]
  obtain ⟨ups', names', hmeant, hcount⟩ : ∃ ups' names',
      c.step (fun _ => true) ⟨ups, names⟩ c.up = ⟨ups', names'⟩ ∧
        names'.length + ups + 1 = names.length + ups' ∧ ups ≤ ups' := by
    cases names with
    | cons name names =>
      refine ⟨ups, names, step_up_cons _ _ _ _, ?_, Nat.le_refl ups⟩
      rw [List.length_cons]
      omega
    | nil =>
      refine ⟨ups + 1, [], ?_, Nat.add_assoc _ _ _, Nat.le_succ ups⟩
      rw [step_up_nil, hroot]
      rfl
  rw [hmeant]
  cases keptNames with
  | cons other keptNames =>
    rw [List.length_cons] at hroom hless
    rw [step_up_cons]
    refine Or.inr ⟨?_, hfree _ _, ?_⟩
    · show keptUps + keptNames.length ≤ cap
      omega
    · show keptNames.length + ups' < names'.length + keptUps ∨ cap < ups' ∧ keptUps = cap
      omega
  | nil =>
    rw [List.length_nil] at hroom hless
    rw [step_up_nil, hroot, Bool.not_false, Bool.true_and]
    by_cases hfull : keptUps < cap
    · rw [if_pos (by simpa using hfull)]
      refine Or.inr ⟨?_, hfree _ _, ?_⟩
      · show keptUps + 1 + 0 ≤ cap
        omega
      · show 0 + ups' < names'.length + (keptUps + 1) ∨ cap < ups' ∧ keptUps + 1 = cap
        omega
    · rw [if_neg (by simpa using hfull), hbottom]
      -- a full stack of steps up: the way comes to as many, or is still higher or lower
      obtain rfl : keptUps = cap := by omega
      by_cases hend : ups' = keptUps ∧ names'.length = 0
      · obtain ⟨rfl, hnil⟩ := hend
        rw [List.length_eq_zero_iff.mp hnil]
        exact Or.inl ⟨rfl, rfl⟩
      · refine Or.inr ⟨hroom, hfree _ _, ?_⟩
        show 0 + ups' < names'.length + keptUps ∨ keptUps < ups' ∧ keptUps = keptUps
        omega

theorem Behind.step {kept meant : Place α} (h : c.Behind cap kept meant) (s : α) :
    c.step (fun depth => depth < cap) kept s = c.bottom cap ∧
        c.step (fun _ => true) meant s = c.bottom cap ∨
      c.Behind cap (c.step (fun depth => depth < cap) kept s) (c.step (fun _ => true) meant s) := by
  by_cases hidle : c.idle s = true
  · rw [step_idle hidle, step_idle hidle]
    exact Or.inr h
  have hnot : c.idle s = false := by simpa using hidle
  obtain ⟨hroom, hrooted, hless⟩ := h
  obtain ⟨keptUps, keptNames⟩ := kept
  obtain ⟨ups, names⟩ := meant
  simp only [Place.depth] at hroom hrooted hless
  by_cases hup : s = c.up
  · subst hup
    cases hroot : c.rooted with
    | true =>
      obtain ⟨rfl, rfl⟩ := hrooted hroot
      exact behind_up_rooted hroot hroom (by omega)
    | false => exact behind_up_free hroot hroom hless
  · rw [step_name hnot hup, step_name hnot hup, if_pos rfl]
    right
    by_cases hfull : keptUps + keptNames.length < cap
    · rw [if_pos (by simpa using hfull)]
      refine ⟨?_, hrooted, ?_⟩
      · show keptUps + (keptNames.length + 1) ≤ cap
        omega
      · show keptNames.length + 1 + ups < names.length + 1 + keptUps ∨ cap < ups ∧ keptUps = cap
        omega
    · rw [if_neg (by simpa using hfull)]
      refine ⟨hroom, hrooted, ?_⟩
      show keptNames.length + ups < names.length + 1 + keptUps ∨ cap < ups ∧ keptUps = cap
      omega

theorem step_within {p : Place α} (hp : c.Proper p) (hroom : p.depth ≤ cap) (s : α) :
    (c.step (fun depth => depth < cap) p s = c.step (fun _ => true) p s ∧
        (c.step (fun _ => true) p s).depth ≤ cap) ∨
      (cap < (c.step (fun _ => true) p s).depth ∧
        c.Behind cap (c.step (fun depth => depth < cap) p s) (c.step (fun _ => true) p s)) := by
  by_cases hidle : c.idle s = true
  · rw [step_idle hidle, step_idle hidle]
    exact Or.inl ⟨rfl, hroom⟩
  have hnot : c.idle s = false := by simpa using hidle
  obtain ⟨ups, names⟩ := p
  simp only [Place.depth] at hroom
  by_cases hup : s = c.up
  · subst hup
    cases names with
    | cons name names =>
      rw [List.length_cons] at hroom
      rw [step_up_cons, step_up_cons]
      exact Or.inl ⟨rfl, by simp only [Place.depth]; omega⟩
    | nil =>
      rw [step_up_nil, step_up_nil]
      cases hroot : c.rooted with
      | true => exact Or.inl ⟨rfl, hroom⟩
      | false =>
        rw [List.length_nil] at hroom
        by_cases hfull : ups < cap
        · simp only [Bool.not_false, Bool.true_and, hfull, decide_true, if_true, Place.depth]
          exact Or.inl ⟨trivial, hfull⟩
        · obtain rfl : ups = cap := by omega
          simp only [Bool.not_false, Bool.true_and, hfull, decide_false, Bool.false_eq_true,
            if_false, if_true]
          refine Or.inr ⟨Nat.lt_succ_self ups, hroom, by simp [hroot], ?_⟩
          exact Or.inr ⟨Nat.lt_succ_self ups, rfl⟩
  · rw [step_name hnot hup, step_name hnot hup, if_pos rfl]
    by_cases hfull : ups + names.length < cap
    · rw [if_pos (by simpa using hfull)]
      exact Or.inl ⟨rfl, hfull⟩
    · rw [if_neg (by simpa using hfull)]
      refine Or.inr ⟨?_, hroom, fun h => ⟨hp.2 h, hp.2 h⟩, Or.inl ?_⟩
      · show cap < ups + (names.length + 1)
        omega
      · show names.length + ups < names.length + 1 + ups
        omega

/-- A stack with room for `cap` steps leads where the way leads, or is behind it, just as the
way has not or has been too deep since it was last at the bottom. -/
theorem placeWithin_cases (cap : ℕ) (way : List α) :
    (¬c.Deep cap way ∧ c.placeWithin cap way = c.place way ∧ (c.place way).depth ≤ cap) ∨
      (c.Deep cap way ∧ c.Behind cap (c.placeWithin cap way) (c.place way)) := by
  have hbottom : (c.bottom cap).depth ≤ cap := by
    unfold bottom Place.depth
    split
    · exact Nat.zero_le _
    · exact Nat.le_refl _
  induction way using List.reverseRecOn with
  | nil =>
    refine Or.inl ⟨?_, rfl, Nat.zero_le _⟩
    rintro ⟨before, after, hway, hdeep, -⟩
    obtain ⟨rfl, -⟩ := List.append_eq_nil_iff.mp hway.symm
    exact absurd hdeep (Nat.not_lt_zero _)
  | append_singleton way s ih =>
    have hwithin : c.placeWithin cap (way ++ [s]) =
        c.step (fun depth => depth < cap) (c.placeWithin cap way) s := placeIn_append way s
    rw [deep_append, hwithin, place_append]
    rcases ih with ⟨hnot, heq, hroom⟩ | ⟨hdeep, hbehind⟩
    · rw [heq]
      rcases step_within (proper_placeIn way) hroom s with ⟨hsame, hroom'⟩ | ⟨hlost, hbehind⟩
      · refine Or.inl ⟨fun h => ?_, hsame, hroom'⟩
        exact h.1.elim hnot (Nat.not_lt_of_le hroom')
      · exact Or.inr ⟨⟨Or.inr hlost, hbehind.ne_bottom⟩, hbehind⟩
    · rcases hbehind.step s with ⟨hkept, hmeant⟩ | hbehind'
      · rw [hkept, hmeant]
        exact Or.inl ⟨fun h => h.2 rfl, rfl, hbottom⟩
      · exact Or.inr ⟨⟨Or.inl hdeep, hbehind'.ne_bottom⟩, hbehind'⟩

/-- A way of at most `cap` steps is not too deep. -/
theorem not_deep_of_length {way : List α} (h : way.length ≤ cap) : ¬c.Deep cap way := by
  rintro ⟨before, after, rfl, hdeep, -⟩
  have hweight := @weight_placeIn _ c _ (fun _ => true) (fun _ => 1) before
  rw [List.map_const', List.map_const', List.sum_replicate_nat, List.sum_replicate_nat,
    Nat.mul_one, Nat.mul_one, Place.length_stack] at hweight
  rw [List.length_append] at h
  unfold place at hdeep
  omega

theorem placeWithin_eq_iff (cap : ℕ) (way : List α) :
    c.placeWithin cap way = c.place way ↔ ¬c.Deep cap way := by
  rcases @placeWithin_cases _ c _ cap way with ⟨hnot, heq, -⟩ | ⟨hdeep, hbehind⟩
  · exact iff_of_true heq hnot
  · exact iff_of_false hbehind.ne (not_not_intro hdeep)

end Room

end Climbing

end PlumosBubble.Sequence
