import Mathlib.Data.List.Induction

/-! Runs of a step relation. A run lists the events of its steps in order; what every step
keeps, with the events before it in view, holds at the end of every run. -/

namespace PlumosBubble.Transition

variable {σ ε : Type*}

/-- A run from `s`, with its events. -/
inductive Run (step : σ → ε → σ → Prop) (s : σ) : List ε → σ → Prop
  | nil : Run step s [] s
  | concat {es : List ε} {e : ε} {t u : σ} : Run step s es t → step t e u →
      Run step s (es ++ [e]) u

variable {step : σ → ε → σ → Prop} {s t u : σ} {es fs : List ε} {e : ε}

namespace Run

theorem single (h : step s e t) : Run step s [e] t := Run.nil.concat h

theorem eq_of_nil (h : Run step s [] t) : t = s := by
  generalize hnone : ([] : List ε) = none at h
  cases h with
  | nil => rfl
  | concat _ _ => simp at hnone

theorem append (h : Run step s es t) (h' : Run step t fs u) : Run step s (es ++ fs) u := by
  induction h' with
  | nil => rwa [List.append_nil]
  | concat _ hstep ih =>
    rw [← List.append_assoc]
    exact ih.concat hstep

/-- The invariant rule, for a property of the events so far and the state. -/
theorem invariant {I : List ε → σ → Prop} (h : Run step s es t) (hstart : I [] s)
    (hstep : ∀ {es t e u}, Run step s es t → I es t → step t e u → I (es ++ [e]) u) : I es t := by
  induction h with
  | nil => exact hstart
  | concat hrun hlast ih => exact hstep hrun ih hlast

/-- The invariant rule, for a property of the state. -/
theorem keeps {I : σ → Prop} (h : Run step s es t) (hstart : I s)
    (hstep : ∀ {t e u}, I t → step t e u → I u) : I t :=
  h.invariant (I := fun _ => I) hstart fun _ ht => hstep ht

theorem map {ε' : Type*} {step' : σ → ε' → σ → Prop} (g : ε → ε') (h : Run step s es t)
    (hstep : ∀ {s e t}, step s e t → step' s (g e) t) : Run step' s (es.map g) t := by
  induction h with
  | nil => exact nil
  | concat _ hlast ih =>
    rw [List.map_append]
    exact ih.concat (hstep hlast)

theorem split (h : Run step s (es ++ fs) u) :
    ∃ t, Run step s es t ∧ Run step t fs u := by
  induction fs using List.reverseRecOn generalizing u with
  | nil => exact ⟨u, by rwa [List.append_nil] at h, nil⟩
  | append_singleton fs e ih =>
    rw [← List.append_assoc] at h
    generalize hall : es ++ fs ++ [e] = all at h
    cases h with
    | nil => simp at hall
    | concat hrun hlast =>
      obtain ⟨rfl, he⟩ := List.append_inj' hall rfl
      cases he
      obtain ⟨t, hes, hfs⟩ := ih hrun
      exact ⟨t, hes, hfs.concat hlast⟩

theorem last (h : Run step s (es ++ [e]) u) : ∃ t, Run step s es t ∧ step t e u := by
  generalize heq : es ++ [e] = all at h
  cases h with
  | nil => simp at heq
  | concat hrun hstep =>
    obtain ⟨rfl, hlast⟩ := List.append_inj' heq rfl
    cases hlast
    exact ⟨_, hrun, hstep⟩

/-- The rule for exact conditions: where a step keeps `P` exactly if it meets `C`, `P` holds all
along a list of events exactly if every step meets `C`. -/
theorem all_iff {I P : σ → Prop} {C : σ → ε → Prop} (hstart : I s) (hP : P s)
    (hkeep : ∀ {t e u}, I t → step t e u → I u)
    (hstep : ∀ {t e u}, I t → P t → step t e u → (P u ↔ C t e)) (events : List ε) :
    (∀ es rest u, events = es ++ rest → Run step s es u → P u) ↔
      ∀ es e rest u v, events = es ++ e :: rest → Run step s es u → step u e v → C u e := by
  have hI : ∀ {es u}, Run step s es u → I u := fun h => h.keeps hstart hkeep
  constructor
  · intro hall es e rest u v hevents hrun hlast
    have hu := hall es (e :: rest) u hevents hrun
    have hv := hall (es ++ [e]) rest v (by simp [hevents]) (hrun.concat hlast)
    exact (hstep (hI hrun) hu hlast).mp hv
  · intro hall es rest u hevents hrun
    induction hrun generalizing rest with
    | nil => exact hP
    | @concat es e v w hv hlast ih =>
      have hsplit : events = es ++ e :: rest := by simp [hevents]
      exact (hstep (hI hv) (ih (e :: rest) hsplit) hlast).mpr
        (hall es e rest v w hsplit hv hlast)

end Run

end PlumosBubble.Transition
