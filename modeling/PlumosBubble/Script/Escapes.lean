import Mathlib.Data.List.Forall2

/-! Which exceptions leave a computation: those that no handler around it names. -/

namespace PlumosBubble.Script

universe u

variable {ε : Type*} {α β : Type u} {handled : ε → Prop}

/-- The computation ends in an exception that is not handled. -/
def Escapes (handled : ε → Prop) (x : Except ε α) : Prop := ∃ e, x = .error e ∧ ¬handled e

@[simp]
theorem not_escapes_ok (a : α) : ¬Escapes handled (.ok a : Except ε α) := by
  rintro ⟨e, he, -⟩
  cases he

@[simp]
theorem not_escapes_pure (a : α) : ¬Escapes handled (pure a : Except ε α) := not_escapes_ok a

@[simp]
theorem escapes_error (e : ε) : Escapes handled (.error e : Except ε α) ↔ ¬handled e := by
  constructor
  · rintro ⟨e', he, hnot⟩
    cases he
    exact hnot
  · exact fun h => ⟨e, rfl, h⟩

theorem Escapes.mono {handled' : ε → Prop} (himp : ∀ e, handled' e → handled e) {x : Except ε α}
    (h : Escapes handled x) : Escapes handled' x := by
  obtain ⟨e, he, hnot⟩ := h
  exact ⟨e, he, fun h => hnot (himp e h)⟩

theorem escapes_mapError {f : ε → ε} {x : Except ε α} :
    Escapes handled (x.mapError f) ↔ Escapes (fun e => handled (f e)) x := by
  cases x with
  | error e =>
    show Escapes handled (.error (f e) : Except ε α) ↔ _
    simp
  | ok a =>
    show Escapes handled (.ok a : Except ε α) ↔ _
    simp

theorem escapes_bind {x : Except ε α} {f : α → Except ε β} :
    Escapes handled (x >>= f) ↔ Escapes handled x ∨ ∃ a, x = .ok a ∧ Escapes handled (f a) := by
  cases x with
  | error e =>
    show Escapes handled (.error e : Except ε β) ↔ _
    simp
  | ok a =>
    show Escapes handled (f a) ↔ _
    simp

theorem mapError_eq_ok_iff {ε' : Type*} {f : ε → ε'} {x : Except ε α} {a : α} :
    x.mapError f = .ok a ↔ x = .ok a := by
  cases x with
  | error e =>
    constructor
    · intro h
      cases h
    · intro h
      cases h
  | ok b =>
    constructor
    · intro h
      cases h
      rfl
    · intro h
      cases h
      rfl

theorem bind_eq_ok_iff {x : Except ε α} {f : α → Except ε β} {b : β} :
    x >>= f = .ok b ↔ ∃ a, x = .ok a ∧ f a = .ok b := by
  cases x with
  | error e =>
    constructor
    · intro h
      cases h
    · rintro ⟨a, h, -⟩
      cases h
  | ok a =>
    constructor
    · exact fun h => ⟨a, rfl, h⟩
    · rintro ⟨a', h, h'⟩
      cases h
      exact h'

theorem mapM_eq_ok_iff {f : α → Except ε β} {l : List α} {bs : List β} :
    l.mapM f = .ok bs ↔ List.Forall₂ (fun a b => f a = .ok b) l bs := by
  induction l generalizing bs with
  | nil =>
    rw [List.mapM_nil, List.forall₂_nil_left_iff]
    constructor
    · intro h
      cases h
      rfl
    · rintro rfl
      rfl
  | cons a l ih =>
    rw [List.mapM_cons, bind_eq_ok_iff]
    simp only [bind_eq_ok_iff, ih]
    rw [List.forall₂_cons_left_iff]
    constructor
    · rintro ⟨b, hb, bs', hbs, h⟩
      cases h
      exact ⟨b, bs', hb, hbs, rfl⟩
    · rintro ⟨b, bs', hb, hbs, rfl⟩
      exact ⟨b, hb, bs', hbs, rfl⟩

end PlumosBubble.Script
