import PlumosBubble.Sequence.KeepNew

/-! A list of bounded length in which the item used last stands first, for any key. Whatever is
used in whatever order, the list is the items newest first with the first of each key kept, cut
at the bound. -/

namespace PlumosBubble.Sequence

variable {α κ : Type*} [DecidableEq κ] (key : α → κ)

/-- Items of one key. -/
def sameKey (x y : α) : Bool := key x = key y

/-- Put `x` first, drop the item of its key, and cut at the bound. -/
def useItem (bound : ℕ) (items : List α) (x : α) : List α :=
  (x :: items.filter fun y => !sameKey key x y).take bound

variable {key} {bound : ℕ}

theorem keepNew_filter (kept : List α) (x : α) (xs : List α) :
    x :: keepNew (sameKey key) (kept.filter fun y => !sameKey key x y)
        (xs.filter fun y => !sameKey key x y) =
      keepNew (sameKey key) (x :: kept.filter fun y => !sameKey key x y) xs := by
  induction xs generalizing kept with
  | nil => rfl
  | cons y xs ih =>
    by_cases hsame : sameKey key x y = true
    · have hadd : addNew (sameKey key) (x :: kept.filter fun y => !sameKey key x y) y =
          x :: kept.filter fun y => !sameKey key x y := by
        apply addNew_of_any
        have hyx : sameKey key y x = true := by simpa [sameKey, eq_comm] using hsame
        simp [hyx]
      rw [List.filter_cons_of_neg (by simp [hsame]), ih kept, keepNew_cons, hadd]
    · have hyx : sameKey key y x = false := by
        rw [← Bool.not_eq_true]
        simpa [sameKey, eq_comm] using hsame
      rw [List.filter_cons_of_pos (by simp [hsame]), keepNew_cons, keepNew_cons]
      by_cases hany : (kept.filter fun y => !sameKey key x y).any (sameKey key y) = true
      · have hmore : (x :: kept.filter fun y => !sameKey key x y).any (sameKey key y) = true := by
          simp only [List.any_cons, hany, Bool.or_true]
        rw [addNew_of_any hany, addNew_of_any hmore, ih kept]
      · have hmore : ¬(x :: kept.filter fun y => !sameKey key x y).any (sameKey key y) = true := by
          simp only [List.any_cons, hyx, Bool.false_or]
          exact hany
        have hfilter : (kept ++ [y]).filter (fun y => !sameKey key x y) =
            (kept.filter fun y => !sameKey key x y) ++ [y] := by
          simp [List.filter_append, hsame]
        rw [addNew_of_not_any hany, addNew_of_not_any hmore, List.cons_append, ← hfilter,
          ih (kept ++ [y])]

theorem keepNew_first (x : α) (xs : List α) :
    keepNew (sameKey key) [] (x :: xs) =
      x :: (keepNew (sameKey key) [] xs).filter fun y => !sameKey key x y := by
  have hmove : ∀ (kept ys : List α),
      (keepNew (sameKey key) kept ys).filter (fun y => !sameKey key x y) =
        keepNew (sameKey key) (kept.filter fun y => !sameKey key x y)
          (ys.filter fun y => !sameKey key x y) := by
    intro kept ys
    induction ys generalizing kept with
    | nil => rfl
    | cons y ys ih =>
      rw [keepNew_cons, ih]
      by_cases hsame : sameKey key x y = true
      · rw [List.filter_cons_of_neg (by simp [hsame])]
        congr 1
        unfold addNew
        split
        · rfl
        · simp [List.filter_append, hsame]
      · rw [List.filter_cons_of_pos (by simp [hsame]), keepNew_cons]
        congr 1
        have hany : (kept.filter fun z => !sameKey key x z).any (sameKey key y) =
            kept.any (sameKey key y) := by
          rw [Bool.eq_iff_iff, List.any_eq_true, List.any_eq_true]
          constructor
          · rintro ⟨z, hz, hyz⟩
            exact ⟨z, List.mem_of_mem_filter hz, hyz⟩
          · rintro ⟨z, hz, hyz⟩
            refine ⟨z, List.mem_filter.mpr ⟨hz, ?_⟩, hyz⟩
            simp only [sameKey, decide_eq_true_eq, Bool.not_eq_true', decide_eq_false_iff_not]
              at hyz hsame ⊢
            rwa [← hyz]
        unfold addNew
        rw [hany]
        split
        · rfl
        · simp [List.filter_append, hsame]
  rw [hmove]
  exact (keepNew_filter [] x xs).symm

theorem keepNew_of_pairwise {items : List α}
    (h : items.Pairwise fun x y => sameKey key x y = false) :
    keepNew (sameKey key) [] items = items := by
  induction items with
  | nil => rfl
  | cons x items ih =>
    obtain ⟨hx, hitems⟩ := List.pairwise_cons.mp h
    rw [keepNew_first, ih hitems]
    congr 1
    rw [List.filter_eq_self]
    intro y hy
    simp [hx y hy]

theorem take_filter_take {p : α → Bool} {items : List α} (h : items.countP (!p ·) ≤ 1) (n : ℕ) :
    ((items.take (n + 1)).filter p).take n = (items.filter p).take n := by
  induction items generalizing n with
  | nil => simp
  | cons x items ih =>
    by_cases hx : p x = true
    · have hrest : items.countP (!p ·) ≤ 1 := by
        simpa [List.countP_cons_of_neg, hx] using h
      rw [List.take_succ_cons, List.filter_cons_of_pos hx, List.filter_cons_of_pos hx]
      cases n with
      | zero => rfl
      | succ n => rw [List.take_succ_cons, List.take_succ_cons, ih hrest n]
    · have hnone : items.countP (!p ·) = 0 := by
        rw [List.countP_cons_of_pos (by simpa using hx)] at h
        omega
      have hall : ∀ y ∈ items, p y = true := by
        simpa [List.countP_eq_zero] using hnone
      have htake : ∀ y ∈ items.take n, p y = true := fun y hy => hall y (List.mem_of_mem_take hy)
      rw [List.take_succ_cons, List.filter_cons_of_neg hx, List.filter_cons_of_neg hx,
        List.filter_eq_self.mpr hall, List.filter_eq_self.mpr htake, List.take_take,
        Nat.min_self]

theorem pairwise_sameKey_keepNew (xs : List α) :
    (keepNew (sameKey key) [] xs).Pairwise fun y x => sameKey key y x = false := by
  have h := @pairwise_keepNew _ (sameKey key) [] xs List.Pairwise.nil
  apply h.imp
  intro x y hxy
  simpa [sameKey, eq_comm] using hxy

theorem countP_sameKey {items : List α} (h : items.Pairwise fun x y => sameKey key x y = false)
    (x : α) : items.countP (fun y => !!sameKey key x y) ≤ 1 := by
  apply countP_le_one h
  intro y _ z _ hy hz hne
  simp only [Bool.not_not, sameKey, decide_eq_true_eq, decide_eq_false_iff_not] at hy hz hne
  exact hne (hy.symm.trans hz)

theorem foldl_useItem {items : List α}
    (hdistinct : items.Pairwise fun x y => sameKey key x y = false)
    (hbound : items.length ≤ bound) (xs : List α) :
    xs.foldl (useItem key bound) items =
      (keepNew (sameKey key) [] (xs.reverse ++ items)).take bound := by
  induction xs using List.reverseRecOn with
  | nil =>
    rw [List.foldl_nil, List.reverse_nil, List.nil_append, keepNew_of_pairwise hdistinct,
      List.take_of_length_le hbound]
  | append_singleton xs x ih =>
    rw [List.foldl_append, List.foldl_cons, List.foldl_nil, ih, List.reverse_append,
      List.reverse_singleton, List.singleton_append, List.cons_append, keepNew_first]
    unfold useItem
    cases bound with
    | zero => rfl
    | succ n =>
      have hkept : (keepNew (sameKey key) [] (xs.reverse ++ items)).Pairwise
          fun y x => sameKey key y x = false := pairwise_sameKey_keepNew _
      have hone := countP_sameKey hkept x
      rw [List.take_succ_cons, List.take_succ_cons, take_filter_take hone]

end PlumosBubble.Sequence
