import Mathlib.Data.List.Induction

/-! Iterated steps: what every step keeps holds of every iterate, and where a step that has not
arrived lowers a measure, some iterate has arrived. -/

namespace PlumosBubble.Transition

variable {σ : Type*} {step : ℕ → σ → σ} {s : σ} {I goal : σ → Prop}

/-- The states behind the first steps from `s`. -/
def iterates (step : ℕ → σ → σ) (s : σ) : ℕ → σ
  | 0 => s
  | n + 1 => step n (iterates step s n)

theorem iterates_keeps (hs : I s) (hstep : ∀ n t, I t → I (step n t)) (n : ℕ) :
    I (iterates step s n) := by
  induction n with
  | zero => exact hs
  | succ n ih => exact hstep n _ ih

theorem exists_iterate_of_descent (measure : σ → ℕ) (hs : I s)
    (hkeep : ∀ n t, I t → I (step n t))
    (hless : ∀ n t, I t → ¬goal t → measure (step n t) < measure t) :
    ∃ n ≤ measure s, goal (iterates step s n) := by
  -- what the measure has left after `n` steps that have not arrived
  have hleft : ∀ n, (∀ i < n, ¬goal (iterates step s i)) →
      n + measure (iterates step s n) ≤ measure s := by
    intro n
    induction n with
    | zero =>
      intro _
      show 0 + measure s ≤ measure s
      omega
    | succ n ih =>
      intro hnot
      have hbefore := ih fun i hi => hnot i (by omega)
      have hstep : measure (iterates step s (n + 1)) < measure (iterates step s n) :=
        hless n _ (iterates_keeps hs hkeep n) (hnot n (by omega))
      omega
  by_contra hnone
  have hnever : ∀ i < measure s + 1, ¬goal (iterates step s i) :=
    fun i hi hgoal => hnone ⟨i, by omega, hgoal⟩
  have hbound := hleft (measure s + 1) hnever
  omega

end PlumosBubble.Transition
