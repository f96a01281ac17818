import PlumosBubble.Crash.Program

/-! Programs that keep a property of the state, however they end. What such a program returns may
be known to have a property of its own, which is what a later part of the program relies on. -/

namespace PlumosBubble.Crash

universe u

variable {σ ε : Type*} {α β : Type u}

/-- From any state in `P`, every state the program leaves is in `P`, and what it returns is in
`V`. -/
def Yields (P : σ → Prop) (V : α → Prop) (m : Prog σ ε α) : Prop :=
  ∀ s, P s → wp m (fun a t => P t ∧ V a) (fun _ => P) P s

/-- From any state in `P`, every state the program leaves is in `P`. -/
def Keeps (P : σ → Prop) (m : Prog σ ε α) : Prop := Yields P (fun _ => True) m

namespace Yields

variable {P : σ → Prop} {V V' : α → Prop} {W : β → Prop} {m : Prog σ ε α}

theorem mono (h : Yields P V m) (hV : ∀ a, V a → V' a) : Yields P V' m := fun s hs =>
  wp_mono (h s hs) (fun a _ ht => ⟨ht.1, hV a ht.2⟩) (fun _ _ h => h) (fun _ h => h)

theorem keeps (h : Yields P V m) : Keeps P m := h.mono fun _ _ => trivial

protected theorem pure {a : α} (ha : V a) : Yields P V (pure a : Prog σ ε α) := fun _ hs =>
  (wp_pure a).mpr ⟨hs, ha⟩

protected theorem raise (e : ε) : Yields P V (Prog.raise e : Prog σ ε α) := fun _ hs =>
  (wp_raise e).mpr hs

protected theorem read {f : σ → α} (h : ∀ s, P s → V (f s)) :
    Yields P V (Prog.read f : Prog σ ε α) := fun s hs => (wp_read f).mpr ⟨hs, h s hs⟩

protected theorem lift {r : Except ε α} (h : ∀ a, r = .ok a → V a) :
    Yields P V (Prog.lift r : Prog σ ε α) := by
  intro s hs
  cases r with
  | ok a => exact (wp_lift_ok a).mpr ⟨hs, h a rfl⟩
  | error e => exact (wp_lift_error e).mpr hs

protected theorem bind {f : α → Prog σ ε β} (hm : Yields P V m)
    (hf : ∀ a, V a → Yields P W (f a)) : Yields P W (m >>= f) := by
  intro s hs
  rw [wp_bind]
  exact wp_mono (hm s hs) (fun a t ht => hf a ht.2 t ht.1) (fun _ _ h => h) (fun _ h => h)

protected theorem handle {h : ε → Prog σ ε α} (hm : Yields P V m) (hh : ∀ e, Yields P V (h e)) :
    Yields P V (m.handle h) := by
  intro s hs
  rw [wp_handle]
  exact wp_mono (hm s hs) (fun _ _ h => h) (fun e t ht => hh e t ht) (fun _ h => h)

protected theorem mapError {ε' : Type*} {g : ε → ε'} (hm : Yields P V m) :
    Yields P V (m.mapError g) := fun s hs => (wp_mapError g m).mpr (hm s hs)

protected theorem ite {c : Prop} [Decidable c] {m' : Prog σ ε α} (h : c → Yields P V m)
    (h' : ¬c → Yields P V m') : Yields P V (if c then m else m') := by
  by_cases hc : c
  · rw [if_pos hc]
    exact h hc
  · rw [if_neg hc]
    exact h' hc

end Yields

namespace Keeps

variable {P : σ → Prop} {V : α → Prop} {W : β → Prop} {m : Prog σ ε α}

protected theorem pure (a : α) : Keeps P (pure a : Prog σ ε α) := Yields.pure trivial

protected theorem raise (e : ε) : Keeps P (Prog.raise e : Prog σ ε α) := Yields.raise e

protected theorem read (f : σ → α) : Keeps P (Prog.read f : Prog σ ε α) :=
  Yields.read fun _ _ => trivial

protected theorem lift (r : Except ε α) : Keeps P (Prog.lift r : Prog σ ε α) :=
  Yields.lift fun _ _ => trivial

protected theorem step {f : σ → Except ε σ} (h : ∀ s t, P s → f s = .ok t → P t) :
    Keeps P (Prog.step f) := fun s hs =>
  wp_step (fun t ht => ⟨h s t hs ht, h s t hs ht, trivial⟩) fun _ _ => hs

/-- A part whose result does not matter. -/
protected theorem bind {f : α → Prog σ ε β} (hm : Keeps P m) (hf : ∀ a, Yields P W (f a)) :
    Yields P W (m >>= f) := Yields.bind hm fun a _ => hf a

protected theorem forEach {ι : Type*} {f : ι → Prog σ ε Unit} {bs : List ι}
    (h : ∀ b ∈ bs, Keeps P (f b)) : Keeps P (Prog.forEach f bs) := by
  induction bs with
  | nil => exact Keeps.pure ()
  | cons b bs ih =>
    exact Keeps.bind (h b List.mem_cons_self) fun _ =>
      ih fun c hc => h c (List.mem_cons_of_mem _ hc)

theorem ends (h : Keeps P m) {s c : σ} (hs : P s) (hc : Ends m s c) : P c :=
  ends_of_wp (h s hs) hs (fun _ _ ht => ht.1) (fun _ _ ht => ht) (fun _ ht => ht) hc

end Keeps

end PlumosBubble.Crash
