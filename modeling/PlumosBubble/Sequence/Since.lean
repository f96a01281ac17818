import Mathlib.Data.List.Basic

/-! What has held since: some record satisfies `P`, and every later one `Q`. -/

namespace PlumosBubble.Sequence

variable {α : Type*} {P P' Q Q' : α → Prop} {records : List α} {x : α}

/-- A record satisfies `P`, and those behind it satisfy `Q`. -/
def Since (P Q : α → Prop) (records : List α) : Prop :=
  ∃ before p after, records = before ++ p :: after ∧ P p ∧ ∀ q ∈ after, Q q

theorem Since.last (h : P x) : Since P Q (records ++ [x]) :=
  ⟨records, x, [], rfl, h, fun _ hq => absurd hq List.not_mem_nil⟩

theorem Since.concat (h : Since P Q records) (hx : Q x) : Since P Q (records ++ [x]) := by
  obtain ⟨before, p, after, heq, hp, hafter⟩ := h
  refine ⟨before, p, after ++ [x], ?_, hp, fun q hq => ?_⟩
  · rw [heq, List.append_assoc, List.cons_append]
  · rcases List.mem_append.mp hq with hmem | hlast
    · exact hafter q hmem
    · rw [List.mem_singleton.mp hlast]
      exact hx

theorem Since.mono (h : Since P Q records) (hP : ∀ p, P p → P' p) (hQ : ∀ q, Q q → Q' q) :
    Since P' Q' records := by
  obtain ⟨before, p, after, heq, hp, hafter⟩ := h
  exact ⟨before, p, after, heq, hP p hp, fun q hq => hQ q (hafter q hq)⟩

end PlumosBubble.Sequence
