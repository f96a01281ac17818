import Mathlib.Data.List.Basic
import Mathlib.Data.List.Induction

/-! Lists of keys with their values, to which values are assigned one after another: a key has
the value that was assigned to it last, or else the one that it had. -/

namespace PlumosBubble.Sequence

variable {κ ν : Type} [DecidableEq κ]

/-- The key gets the value, in its place or at the end. -/
def assign (key : κ) (value : ν) : List (κ × ν) → List (κ × ν)
  | [] => [(key, value)]
  | (k, v) :: pairs => if k = key then (key, value) :: pairs else (k, v) :: assign key value pairs

/-- Several assignments, the first of the list first. -/
def assignAll (writes pairs : List (κ × ν)) : List (κ × ν) :=
  writes.foldl (fun pairs write => assign write.1 write.2 pairs) pairs

theorem assignAll_append (writes pairs : List (κ × ν)) (key : κ) (value : ν) :
    assignAll (writes ++ [(key, value)]) pairs = assign key value (assignAll writes pairs) := by
  simp [assignAll]

theorem assign_split {key : κ} {before : List (κ × ν)} (h : key ∉ before.map Prod.fst)
    (old value : ν) (after : List (κ × ν)) :
    assign key value (before ++ (key, old) :: after) = before ++ (key, value) :: after := by
  induction before with
  | nil => simp [assign]
  | cons pair before ih =>
    rw [List.map_cons, List.mem_cons, not_or] at h
    rw [List.cons_append, assign, if_neg (Ne.symm h.1), ih h.2, List.cons_append]

theorem assign_of_notMem {key : κ} {pairs : List (κ × ν)} (h : key ∉ pairs.map Prod.fst)
    (value : ν) : assign key value pairs = pairs ++ [(key, value)] := by
  induction pairs with
  | nil => rfl
  | cons pair pairs ih =>
    rw [List.map_cons, List.mem_cons, not_or] at h
    rw [assign, if_neg (Ne.symm h.1), ih h.2, List.cons_append]

section Lookup

variable [BEq κ] [LawfulBEq κ]

theorem lookup_cons_ite (k : κ) (pair : κ × ν) (pairs : List (κ × ν)) :
    (pair :: pairs).lookup k = if k = pair.1 then some pair.2 else pairs.lookup k := by
  rw [List.lookup_cons]
  by_cases hk : k = pair.1
  · rw [if_pos hk, beq_iff_eq.mpr hk]
  · rw [if_neg hk, beq_eq_false_iff_ne.mpr hk]

theorem lookup_assign (key k : κ) (value : ν) (pairs : List (κ × ν)) :
    (assign key value pairs).lookup k = if k = key then some value else pairs.lookup k := by
  induction pairs with
  | nil => rw [assign, lookup_cons_ite]
  | cons pair pairs ih =>
    obtain ⟨k', v⟩ := pair
    unfold assign
    by_cases hkey : k' = key
    · rw [if_pos hkey, lookup_cons_ite, lookup_cons_ite, hkey]
      split <;> rfl
    · rw [if_neg hkey, lookup_cons_ite, lookup_cons_ite, ih]
      by_cases hk : k = k'
      · have hne : k ≠ key := fun h => hkey (hk.symm.trans h)
        simp only [hk, hkey, if_true, if_false]
      · simp only [hk, if_false]

theorem lookup_assignAll (writes pairs : List (κ × ν)) (key : κ) :
    (assignAll writes pairs).lookup key = (writes.reverse.lookup key).or (pairs.lookup key) := by
  induction writes using List.reverseRecOn with
  | nil => simp [assignAll]
  | append_singleton writes write ih =>
    unfold assignAll at ih ⊢
    rw [List.foldl_append, List.foldl_cons, List.foldl_nil, lookup_assign, ih, List.reverse_append,
      List.reverse_singleton, List.singleton_append, lookup_cons_ite]
    by_cases hkey : key = write.1
    · rw [if_pos hkey, if_pos hkey, Option.some_or]
    · rw [if_neg hkey, if_neg hkey]

end Lookup

end PlumosBubble.Sequence
