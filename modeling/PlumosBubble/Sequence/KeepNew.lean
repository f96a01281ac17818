import Mathlib.Data.List.Basic
import Mathlib.Data.List.Pairwise
import Mathlib.Data.List.Induction

/-! A list built up by adding each item unless the list already has one that is the same,
for any relation of sameness. -/

namespace PlumosBubble.Sequence

variable {α : Type*} (same : α → α → Bool)

/-- Add `x`, unless something kept is the same. -/
def addNew (kept : List α) (x : α) : List α := if kept.any (same x) then kept else kept ++ [x]

/-- Add the items in their order. -/
def keepNew (kept xs : List α) : List α := xs.foldl (addNew same) kept

@[simp] theorem keepNew_nil (kept : List α) : keepNew same kept [] = kept := rfl

@[simp] theorem keepNew_cons (kept : List α) (x : α) (xs : List α) :
    keepNew same kept (x :: xs) = keepNew same (addNew same kept x) xs := rfl

theorem keepNew_append (kept xs ys : List α) :
    keepNew same kept (xs ++ ys) = keepNew same (keepNew same kept xs) ys :=
  List.foldl_append

variable {same}

theorem addNew_of_any {kept : List α} {x : α} (h : kept.any (same x) = true) :
    addNew same kept x = kept := if_pos h

theorem addNew_of_not_any {kept : List α} {x : α} (h : ¬kept.any (same x) = true) :
    addNew same kept x = kept ++ [x] := if_neg h

theorem prefix_addNew (kept : List α) (x : α) : kept <+: addNew same kept x := by
  unfold addNew
  split_ifs
  · exact List.prefix_rfl
  · exact List.prefix_append _ _

theorem prefix_keepNew (kept xs : List α) : kept <+: keepNew same kept xs := by
  induction xs generalizing kept with
  | nil => exact List.prefix_rfl
  | cons x xs ih => exact (prefix_addNew kept x).trans (ih _)

theorem mem_of_mem_keepNew {kept xs : List α} {y : α} (h : y ∈ keepNew same kept xs) :
    y ∈ kept ∨ y ∈ xs := by
  induction xs generalizing kept with
  | nil => exact Or.inl h
  | cons x xs ih =>
    rcases ih h with hadd | hmem
    · unfold addNew at hadd
      split_ifs at hadd
      · exact Or.inl hadd
      · rcases List.mem_append.mp hadd with hkept | hx
        · exact Or.inl hkept
        · exact Or.inr (List.mem_cons.mpr (Or.inl (List.mem_singleton.mp hx)))
    · exact Or.inr (List.mem_cons_of_mem _ hmem)

theorem exists_same_of_mem {kept xs : List α} {x : α} (h : x ∈ xs) :
    ∃ y ∈ keepNew same kept xs, same x y = true ∨ y = x := by
  induction xs generalizing kept with
  | nil => cases h
  | cons z xs ih =>
    rcases List.mem_cons.mp h with rfl | hmem
    · by_cases hany : kept.any (same x) = true
      · obtain ⟨y, hy, hsame⟩ := List.any_eq_true.mp hany
        exact ⟨y, (prefix_keepNew kept (x :: xs)).subset hy, Or.inl hsame⟩
      · have hadd : x ∈ addNew same kept x := by
          rw [addNew_of_not_any hany]
          exact List.mem_append_right _ List.mem_cons_self
        exact ⟨x, (prefix_keepNew _ xs).subset hadd, Or.inr rfl⟩
    · exact ih hmem

theorem pairwise_addNew {kept : List α} (h : kept.Pairwise fun y x => same x y = false) (x : α) :
    (addNew same kept x).Pairwise fun y x => same x y = false := by
  by_cases hany : kept.any (same x) = true
  · rw [addNew_of_any hany]
    exact h
  · rw [addNew_of_not_any hany, List.pairwise_append]
    refine ⟨h, List.pairwise_singleton _ _, ?_⟩
    intro y hy z hz
    obtain rfl := List.mem_singleton.mp hz
    by_contra hsame
    exact hany (List.any_eq_true.mpr ⟨y, hy, by simpa using hsame⟩)

theorem pairwise_keepNew {kept xs : List α} (h : kept.Pairwise fun y x => same x y = false) :
    (keepNew same kept xs).Pairwise fun y x => same x y = false := by
  induction xs generalizing kept with
  | nil => exact h
  | cons x xs ih => exact ih (pairwise_addNew h x)

theorem exists_first_of_mem {xs : List α} {y : α} (h : y ∈ keepNew same [] xs) :
    ∃ before after, xs = before ++ y :: after ∧ ∀ z ∈ keepNew same [] before, same y z = false := by
  induction xs using List.reverseRecOn with
  | nil => cases h
  | append_singleton xs x ih =>
    rw [keepNew_append] at h
    by_cases hany : (keepNew same [] xs).any (same x) = true
    · rw [keepNew_cons, addNew_of_any hany, keepNew_nil] at h
      obtain ⟨before, after, rfl, hfirst⟩ := ih h
      exact ⟨before, after ++ [x], by simp, hfirst⟩
    · rw [keepNew_cons, addNew_of_not_any hany, keepNew_nil] at h
      rcases List.mem_append.mp h with hold | hnew
      · obtain ⟨before, after, rfl, hfirst⟩ := ih hold
        exact ⟨before, after ++ [x], by simp, hfirst⟩
      · obtain rfl := List.mem_singleton.mp hnew
        refine ⟨xs, [], rfl, ?_⟩
        intro z hz
        by_contra hsame
        exact hany (List.any_eq_true.mpr ⟨z, hz, by simpa using hsame⟩)

theorem mem_keepNew_iff {xs : List α} {y : α}
    (htrans : ∀ x ∈ xs, ∀ y ∈ xs, ∀ z ∈ xs, same x y = true → same y z = true → same x z = true) :
    y ∈ keepNew same [] xs ↔
      ∃ before after, xs = before ++ y :: after ∧ ∀ z ∈ before, same y z = false := by
  constructor
  · intro h
    obtain ⟨before, after, rfl, hfirst⟩ := exists_first_of_mem h
    refine ⟨before, after, rfl, ?_⟩
    intro z hz
    by_contra hsame
    have hmem : ∀ w ∈ before, w ∈ before ++ y :: after := fun w hw => List.mem_append_left _ hw
    obtain ⟨w, hw, hkept⟩ := @exists_same_of_mem _ same [] _ _ hz
    have hnot := hfirst w hw
    rcases hkept with hkept | rfl
    · have hw' := (mem_of_mem_keepNew hw).resolve_left List.not_mem_nil
      have hyw := htrans y (by simp) z (hmem z hz) w (hmem w hw') (by simpa using hsame) hkept
      simp [hnot] at hyw
    · exact hsame hnot
  · rintro ⟨before, after, rfl, hfirst⟩
    have hany : ¬(keepNew same [] before).any (same y) = true := by
      intro hany
      obtain ⟨z, hz, hsame⟩ := List.any_eq_true.mp hany
      have hnot := hfirst z ((mem_of_mem_keepNew hz).resolve_left List.not_mem_nil)
      simp [hnot] at hsame
    rw [keepNew_append, keepNew_cons, addNew_of_not_any hany]
    exact (prefix_keepNew _ after).subset (List.mem_append_right _ List.mem_cons_self)

theorem exists_split_of_filter_map {β : Type*} {f : β → α} {p : β → Bool} {xs : List β}
    {before after : List α} {y : α} (h : (xs.filter p).map f = before ++ y :: after) :
    ∃ before' x after', xs = before' ++ x :: after' ∧ p x = true ∧ f x = y ∧
      (before'.filter p).map f = before := by
  obtain ⟨chosen, rest, hchosen, hbefore, hrest⟩ := List.map_eq_append_iff.mp h
  obtain ⟨first, behind, rfl, hfirst, hbehind⟩ := List.filter_eq_append_iff.mp hchosen
  obtain ⟨x, rest', rfl, rfl, -⟩ := List.map_eq_cons_iff.mp hrest
  obtain ⟨skipped, after', rfl, hskipped, hx, -⟩ := List.filter_eq_cons_iff.mp hbehind
  refine ⟨first ++ skipped, x, after', by simp, hx, rfl, ?_⟩
  have hnone : skipped.filter p = [] := List.filter_eq_nil_iff.mpr hskipped
  rw [List.filter_append, hnone, List.append_nil, hfirst, hbefore]

theorem countP_le_one {r : α → α → Prop} {xs : List α} (h : xs.Pairwise r) {p : α → Bool}
    (hp : ∀ x ∈ xs, ∀ y ∈ xs, p x = true → p y = true → ¬r x y) : xs.countP p ≤ 1 := by
  induction xs with
  | nil => exact Nat.zero_le 1
  | cons x xs ih =>
    obtain ⟨hx, hxs⟩ := List.pairwise_cons.mp h
    by_cases hchosen : p x = true
    · have hnone : xs.countP p = 0 := by
        apply List.countP_eq_zero.mpr
        intro y hy hboth
        exact hp x List.mem_cons_self y (List.mem_cons_of_mem _ hy) hchosen hboth (hx y hy)
      rw [List.countP_cons_of_pos hchosen]
      omega
    · rw [List.countP_cons_of_neg hchosen]
      exact ih hxs fun y hy z hz =>
        hp y (List.mem_cons_of_mem _ hy) z (List.mem_cons_of_mem _ hz)

end PlumosBubble.Sequence
