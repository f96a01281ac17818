import Mathlib.Data.List.Basic

/-! Properties of the records of a run that look back: what has to hold of each record and
of those before it. -/

namespace PlumosBubble.Sequence

variable {α : Type*} {P : List α → α → Prop}

/-- Every record satisfies `P` with the records before it. -/
def Always (P : List α → α → Prop) (records : List α) : Prop :=
  ∀ before x after, records = before ++ x :: after → P before x

theorem Always.nil : Always P [] := by
  intro before x after h
  simp at h

theorem Always.concat {records : List α} (h : Always P records) {x : α} (hx : P records x) :
    Always P (records ++ [x]) := by
  intro before y after heq
  rcases List.eq_nil_or_concat after with rfl | ⟨rest, last, rfl⟩
  · obtain ⟨rfl, hsame⟩ := List.append_inj' heq rfl
    cases hsame
    exact hx
  · apply h before y rest
    rw [List.concat_eq_append, ← List.cons_append, ← List.append_assoc] at heq
    exact (List.append_inj' heq rfl).1

end PlumosBubble.Sequence
