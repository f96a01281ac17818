import Mathlib.Algebra.BigOperators.Group.Finset.Basic
import Mathlib.Data.Fintype.BigOperators

/-! Sums over a family of processes of which one takes a step. -/

namespace PlumosBubble.Transition

open Finset

variable {ι α M : Type*} [Fintype ι] [DecidableEq ι] [AddCommMonoid M]

theorem sum_update_add (w : ι → α) (i : ι) (x : α) (f : α → M) :
    ∑ j, f (Function.update w i x j) + f (w i) = ∑ j, f (w j) + f x := by
  have hrest : ∑ j ∈ univ.erase i, f (Function.update w i x j) = ∑ j ∈ univ.erase i, f (w j) := by
    apply sum_congr rfl
    intro j hj
    rw [Function.update_of_ne (ne_of_mem_erase hj)]
  rw [← add_sum_erase univ (fun j => f (Function.update w i x j)) (mem_univ i),
    ← add_sum_erase univ (fun j => f (w j)) (mem_univ i), hrest, Function.update_self]
  ac_rfl

end PlumosBubble.Transition
