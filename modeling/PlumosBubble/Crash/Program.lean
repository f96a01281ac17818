import Mathlib.Data.Nat.Notation
import Mathlib.Logic.Basic
import Mathlib.Tactic.TypeStar

/-! Programs that a power cut can stop. A run makes atomic steps on a state of
type `σ`, may raise an exception of type `ε`, and lists every state that a
completed step left behind: a power cut leaves one of those. The weakest
precondition `wp` has one assertion for each way a run can end: a result, an
exception, a power cut. -/

namespace PlumosBubble.Crash

universe u

/-- The end of one uninterrupted run and, in `cuts`, the state after each of its
steps. -/
structure Outcome (σ ε α : Type*) where
  result : Except ε α
  state : σ
  cuts : List σ

/-- A program over states `σ` with exceptions `ε`. -/
def Prog (σ ε α : Type*) := σ → Outcome σ ε α

namespace Prog

variable {σ ε : Type*} {α β : Type u}

protected def pure (a : α) : Prog σ ε α := fun s => ⟨.ok a, s, []⟩

protected def bind (m : Prog σ ε α) (f : α → Prog σ ε β) : Prog σ ε β := fun s =>
  match m s with
  | ⟨.ok a, t, cs⟩ => ⟨(f a t).result, (f a t).state, cs ++ (f a t).cuts⟩
  | ⟨.error e, t, cs⟩ => ⟨.error e, t, cs⟩

/-- `raise`. -/
def raise (e : ε) : Prog σ ε α := fun s => ⟨.error e, s, []⟩

/-- `try: m; except Exception as e: h e`. -/
def handle (m : Prog σ ε α) (h : ε → Prog σ ε α) : Prog σ ε α := fun s =>
  match m s with
  | ⟨.ok a, t, cs⟩ => ⟨.ok a, t, cs⟩
  | ⟨.error e, t, cs⟩ => ⟨(h e t).result, (h e t).state, cs ++ (h e t).cuts⟩

/-- Look at the state; no step. -/
def read (f : σ → α) : Prog σ ε α := fun s => ⟨.ok (f s), s, []⟩

/-- A value, or its exception. -/
def lift (r : Except ε α) : Prog σ ε α := fun s => ⟨r, s, []⟩

/-- One atomic step; a step that raises leaves the state alone. -/
def step (f : σ → Except ε σ) : Prog σ ε Unit := fun s =>
  match f s with
  | .ok t => ⟨.ok (), t, [t]⟩
  | .error e => ⟨.error e, s, []⟩

instance : Monad (Prog σ ε) where
  pure := Prog.pure
  bind := Prog.bind

/-- The same run with its exceptions renamed. -/
def mapError {ε' : Type*} (g : ε → ε') (m : Prog σ ε α) : Prog σ ε' α := fun s =>
  ⟨(m s).result.mapError g, (m s).state, (m s).cuts⟩

/-- `for b in bs: f b`. -/
def forEach {β : Type*} (f : β → Prog σ ε Unit) : List β → Prog σ ε Unit
  | [] => pure ()
  | b :: bs => do
    f b
    forEach f bs

protected theorem bind_assoc {γ : Type u} (m : Prog σ ε α) (f : α → Prog σ ε β)
    (g : β → Prog σ ε γ) : (m >>= f) >>= g = m >>= fun a => f a >>= g := by
  funext s
  simp only [bind, Prog.bind]
  rcases m s with ⟨_ | a, t, cs⟩
  · rfl
  · dsimp only
    rcases f a t with ⟨_ | b, u, ds⟩
    · rfl
    · simp

end Prog

variable {σ ε : Type*} {α β : Type u}

/-- Run from `s`, the program raises only into `E`, returns only into `Q`, and a
power cut after any of its steps leaves a state in `C`. -/
def wp (m : Prog σ ε α) (Q : α → σ → Prop) (E : ε → σ → Prop) (C : σ → Prop) (s : σ) : Prop :=
  (∀ c ∈ (m s).cuts, C c) ∧
    match (m s).result with
    | .ok a => Q a (m s).state
    | .error e => E e (m s).state

section Rules

variable {Q Q' : α → σ → Prop} {R : β → σ → Prop} {E E' : ε → σ → Prop} {C C' : σ → Prop} {s : σ}

theorem wp_mono {m : Prog σ ε α} (h : wp m Q' E' C' s) (hQ : ∀ a t, Q' a t → Q a t)
    (hE : ∀ e t, E' e t → E e t) (hC : ∀ c, C' c → C c) : wp m Q E C s := by
  refine ⟨fun c hc => hC c (h.1 c hc), ?_⟩
  have h2 := h.2
  revert h2
  cases (m s).result with
  | ok a => exact hQ a _
  | error e => exact hE e _

theorem wp_and {m : Prog σ ε α} (h : wp m Q E C s) (h' : wp m Q' E' C' s) :
    wp m (fun a t => Q a t ∧ Q' a t) (fun e t => E e t ∧ E' e t) (fun c => C c ∧ C' c) s := by
  refine ⟨fun c hc => ⟨h.1 c hc, h'.1 c hc⟩, ?_⟩
  have h2 := h.2
  have h2' := h'.2
  revert h2 h2'
  cases (m s).result with
  | ok a => exact fun h2 h2' => ⟨h2, h2'⟩
  | error e => exact fun h2 h2' => ⟨h2, h2'⟩

theorem wp_true (m : Prog σ ε α) : wp m (fun _ _ => True) (fun _ _ => True) (fun _ => True) s := by
  refine ⟨fun _ _ => trivial, ?_⟩
  cases (m s).result <;> trivial

theorem wp_of_error {m : Prog σ ε α} {e : ε} (h : wp m Q E C s) (he : (m s).result = .error e) :
    wp m (fun _ _ => False) E C s := by
  refine ⟨h.1, ?_⟩
  have h2 := h.2
  rw [he] at h2 ⊢
  exact h2

theorem error_of_wp {m : Prog σ ε α} (h : wp m (fun _ _ => False) E C s) :
    ∃ e, (m s).result = .error e ∧ E e (m s).state := by
  have h2 := h.2
  cases hr : (m s).result with
  | ok a => simp [hr] at h2
  | error e => exact ⟨e, rfl, by simpa [hr] using h2⟩

@[simp] theorem wp_pure (a : α) : wp (pure a) Q E C s ↔ Q a s := by
  simp [wp, pure, Prog.pure]

@[simp] theorem wp_raise (e : ε) : wp (Prog.raise e : Prog σ ε α) Q E C s ↔ E e s := by
  simp [wp, Prog.raise]

@[simp] theorem wp_read (f : σ → α) : wp (Prog.read f) Q E C s ↔ Q (f s) s := by
  simp [wp, Prog.read]

@[simp] theorem wp_lift_ok (a : α) : wp (Prog.lift (.ok a)) Q E C s ↔ Q a s := by
  simp [wp, Prog.lift]

@[simp] theorem wp_lift_error (e : ε) : wp (Prog.lift (.error e)) Q E C s ↔ E e s := by
  simp [wp, Prog.lift]

theorem wp_lift {r : Except ε α} (hE : ∀ {e}, E e s) (hQ : ∀ a, Q a s) :
    wp (Prog.lift r) Q E C s := by
  cases r with
  | ok a => exact (wp_lift_ok a).mpr (hQ a)
  | error e => exact (wp_lift_error e).mpr hE

theorem wp_bind (m : Prog σ ε α) (f : α → Prog σ ε β) :
    wp (m >>= f) R E C s ↔ wp m (fun a => wp (f a) R E C) E C s := by
  simp only [wp, bind, Prog.bind]
  rcases m s with ⟨_ | a, t, cs⟩
  · simp
  · simp only [List.mem_append, or_imp, forall_and]
    exact and_assoc

theorem wp_handle (m : Prog σ ε α) (h : ε → Prog σ ε α) :
    wp (m.handle h) Q E C s ↔ wp m Q (fun e => wp (h e) Q E C) C s := by
  simp only [wp, Prog.handle]
  rcases m s with ⟨_ | a, t, cs⟩
  · simp only [List.mem_append, or_imp, forall_and]
    exact and_assoc
  · simp

@[simp] theorem wp_mapError {ε' : Type*} (g : ε → ε') (m : Prog σ ε α) {F : ε' → σ → Prop} :
    wp (m.mapError g) Q F C s ↔ wp m Q (fun e => F (g e)) C s := by
  simp only [wp, Prog.mapError]
  cases (m s).result <;> rfl

theorem wp_step_ok {f : σ → Except ε σ} {t : σ} (h : f s = .ok t) {Q : Unit → σ → Prop} :
    wp (Prog.step f) Q E C s ↔ C t ∧ Q () t := by
  simp [wp, Prog.step, h]

theorem wp_step_error {f : σ → Except ε σ} {e : ε} (h : f s = .error e) {Q : Unit → σ → Prop} :
    wp (Prog.step f) Q E C s ↔ E e s := by
  simp [wp, Prog.step, h]

theorem wp_step {f : σ → Except ε σ} {Q : Unit → σ → Prop} (hok : ∀ t, f s = .ok t → C t ∧ Q () t)
    (herr : ∀ e, f s = .error e → E e s) : wp (Prog.step f) Q E C s := by
  cases hf : f s with
  | ok t => exact (wp_step_ok hf).mpr (hok t hf)
  | error e => exact (wp_step_error hf).mpr (herr e hf)

/-- The loop rule: `I rest` holds when `rest` is still to be processed. -/
theorem wp_forEach {β : Type*} {f : β → Prog σ ε Unit} {Q : Unit → σ → Prop} (I : List β → σ → Prop)
    (hstep : ∀ b bs t, I (b :: bs) t → wp (f b) (fun _ => I bs) E C t)
    (hdone : ∀ t, I [] t → Q () t) (bs : List β) (hs : I bs s) :
    wp (Prog.forEach f bs) Q E C s := by
  induction bs generalizing s with
  | nil => simpa [Prog.forEach] using hdone s hs
  | cons b bs ih =>
    rw [Prog.forEach, wp_bind]
    exact wp_mono (hstep b bs s hs) (fun _ t ht => ih ht) (fun _ _ h => h) (fun _ h => h)

end Rules

/-! ### Power cuts and repeated attempts -/

/-- The states a power cut can leave: before the first step or after any step. -/
def Cut (m : Prog σ ε α) (s c : σ) : Prop := c = s ∨ c ∈ (m s).cuts

/-- The state that a power cut after step `n` leaves. -/
def Prog.cutAfter (m : Prog σ ε α) (n : ℕ) (s : σ) : σ := (m s).cuts.getD n s

theorem cut_cutAfter (m : Prog σ ε α) (n : ℕ) (s : σ) : Cut m s (m.cutAfter n s) := by
  unfold Prog.cutAfter
  rw [List.getD_eq_getElem?_getD]
  cases h : (m s).cuts[n]? with
  | none => exact Or.inl rfl
  | some c => exact Or.inr (List.mem_of_getElem? h)

theorem cut_of_wp {m : Prog σ ε α} {Q : α → σ → Prop} {E : ε → σ → Prop} {C : σ → Prop} {s c : σ}
    (h : wp m Q E C s) (hs : C s) (hc : Cut m s c) : C c := by
  rcases hc with rfl | hc
  · exact hs
  · exact h.1 c hc

/-- States left by power cuts during attempts of programs of `ms`, each attempt starting
in what the one before it left. -/
inductive Attempts (ms : Prog σ ε α → Prop) : σ → σ → Prop
  | none (s : σ) : Attempts ms s s
  | cut {s t c : σ} {m : Prog σ ε α} : Attempts ms s t → ms m → Cut m t c → Attempts ms s c

theorem attempts_invariant {ms : Prog σ ε α → Prop} {Q : α → σ → Prop} {E : ε → σ → Prop}
    {C : σ → Prop} (h : ∀ m, ms m → ∀ s, C s → wp m Q E C s) {s t : σ} (hs : C s)
    (ha : Attempts ms s t) : C t := by
  induction ha with
  | none => exact hs
  | cut _ hm hc ih => exact cut_of_wp (h _ hm _ ih) ih hc

/-- The run from `s` returned `a`. -/
def Returns (m : Prog σ ε α) (s : σ) (a : α) (t : σ) : Prop :=
  (m s).result = .ok a ∧ (m s).state = t

theorem returns_mapError {ε' : Type*} {g : ε → ε'} {m : Prog σ ε α} {s t : σ} {a : α} :
    Returns (m.mapError g) s a t ↔ Returns m s a t := by
  simp only [Returns, Prog.mapError]
  cases (m s).result with
  | error e =>
    show (Except.error (g e) = Except.ok a ∧ _) ↔ _
    simp only [reduceCtorEq]
  | ok b =>
    show (Except.ok b = Except.ok a ∧ _) ↔ _
    simp only [Except.ok.injEq]

theorem wp_returns {m : Prog σ ε α} {Q : α → σ → Prop} {E : ε → σ → Prop} {C : σ → Prop}
    {s t : σ} {a : α} (h : wp m Q E C s) (hr : Returns m s a t) : Q a t := by
  obtain ⟨ha, rfl⟩ := hr
  simpa [ha] using h.2

theorem returns_of_wp {m : Prog σ ε α} {Q : α → σ → Prop} {C : σ → Prop} {s : σ}
    (h : wp m Q (fun _ _ => False) C s) : ∃ a t, Returns m s a t ∧ Q a t := by
  have h2 := h.2
  cases hr : (m s).result with
  | ok a => exact ⟨a, _, ⟨hr, rfl⟩, by simpa [hr] using h2⟩
  | error e => simp [hr] at h2

/-- Where a run from `s` can end: after a power cut, by an exception or with a result. -/
def Ends (m : Prog σ ε α) (s c : σ) : Prop := Cut m s c ∨ (m s).state = c

/-- The state an uninterrupted run ends in. -/
def Prog.stateAfter (m : Prog σ ε α) (s : σ) : σ := (m s).state

theorem ends_stateAfter (m : Prog σ ε α) (s : σ) : Ends m s (m.stateAfter s) := Or.inr rfl

theorem returns_stateAfter {m : Prog σ ε α} {s : σ} {a : α} (h : (m s).result = .ok a) :
    Returns m s a (m.stateAfter s) :=
  ⟨h, rfl⟩

theorem ends_of_wp {m : Prog σ ε α} {P C : σ → Prop} {Q : α → σ → Prop} {E : ε → σ → Prop}
    {s c : σ} (h : wp m Q E C s) (hs : P s) (hQ : ∀ a t, Q a t → P t) (hE : ∀ e t, E e t → P t)
    (hC : ∀ t, C t → P t) (he : Ends m s c) : P c := by
  have h' : wp m (fun _ => P) (fun _ => P) P s := wp_mono h hQ hE hC
  cases he with
  | inl hc => exact cut_of_wp h' hs hc
  | inr hc =>
    have h2 := h'.2
    rw [← hc]
    cases hr : (m s).result with
    | ok a => simpa [hr] using h2
    | error e => simpa [hr] using h2

theorem ends_bind {m : Prog σ ε α} {f : α → Prog σ ε β} {s c : σ} :
    Ends (m >>= f) s c → Ends m s c ∨ ∃ a t, Returns m s a t ∧ Ends (f a) t c := by
  simp only [Ends, Cut, Returns, bind, Prog.bind]
  rcases m s with ⟨_ | a, t, cs⟩
  · exact Or.inl
  · simp only [List.mem_append]
    rintro ((h | h | h) | h)
    · exact Or.inl (Or.inl (Or.inl h))
    · exact Or.inl (Or.inl (Or.inr h))
    · exact Or.inr ⟨a, t, ⟨rfl, rfl⟩, Or.inl (Or.inr h)⟩
    · exact Or.inr ⟨a, t, ⟨rfl, rfl⟩, Or.inr h⟩

theorem wp_last_step {m : Prog σ ε Unit} {f : σ → Except ε σ} {Q : Unit → σ → Prop} {R C : σ → Prop}
    {s : σ} (hm : wp m Q (fun _ _ => False) C s)
    (hf : ∀ a t, Q a t → ∃ c, f t = .ok c ∧ R c) :
    wp (m >>= fun _ => Prog.step f) (fun _ => R) (fun _ _ => False)
      (fun c => C c ∨ R c ∧ Returns (m >>= fun _ => Prog.step f) s () c) s := by
  obtain ⟨hcuts, hend⟩ := hm
  simp only [wp, Returns, bind, Prog.bind]
  revert hcuts hend
  rcases m s with ⟨_ | a, t, cs⟩
  · exact fun _ h => h.elim
  · intro hcuts hend
    obtain ⟨c, hc, hR⟩ := hf a t hend
    simp only [Prog.step, hc, List.mem_append, List.mem_singleton]
    refine ⟨?_, hR⟩
    rintro d (hd | rfl)
    · exact Or.inl (hcuts d hd)
    · exact Or.inr ⟨hR, by simp⟩

end PlumosBubble.Crash
