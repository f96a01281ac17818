import Mathlib.Data.Nat.Notation
import Mathlib.Logic.Basic

/-! Scripts whose commands can end in several ways. A command lists the outcomes it may have
on the present state; the script goes on by the result. A run can be left after any command:
by a power cut, by an exception that nobody handles, or with a result. The weakest
precondition `wp` has an assertion for every state on the way, and one for each end. -/

namespace PlumosBubble.Scripts

/-- A script over states `σ` with results `α`; `raise e` ends it early. -/
inductive Script (σ ε α : Type) : Type 1
  | done (a : α)
  | raise (e : ε)
  | cmd {β : Type} (outcomes : σ → List (β × σ)) (next : β → Script σ ε α)

variable {σ ε α β : Type}

namespace Script

protected def bind : Script σ ε α → (α → Script σ ε β) → Script σ ε β
  | done a, f => f a
  | raise e, _ => raise e
  | cmd outcomes next, f => cmd outcomes fun b => (next b).bind f

instance : Monad (Script σ ε) where
  pure := done
  bind := Script.bind

/-- Go on with `h e` where the script ends by `e`. -/
def handle : Script σ ε α → (ε → Script σ ε α) → Script σ ε α
  | done a, _ => done a
  | raise e, h => h e
  | cmd outcomes next, h => cmd outcomes fun b => (next b).handle h

/-- One command. -/
def run (outcomes : σ → List (β × σ)) : Script σ ε β := cmd outcomes done

/-- Look at the state. -/
def read (f : σ → β) : Script σ ε β := run fun s => [(f s, s)]

/-- `for b in bs; do f b; done`. -/
def forEach (f : β → Script σ ε Unit) : List β → Script σ ε Unit
  | [] => pure ()
  | b :: bs => do
    f b
    forEach f bs

/-- The first script, and the second however it ended. -/
def andThen (m : Script σ ε α) (last : Script σ ε Unit) : Script σ ε α := do
  let a ← m.handle fun e => do
    last
    raise e
  last
  pure a

/-- One run: `Leads m s m' t` says that `m'` is left to do in state `t`. -/
inductive Leads : Script σ ε α → σ → Script σ ε α → σ → Prop
  | refl (m : Script σ ε α) (s : σ) : Leads m s m s
  | cmd {γ : Type} {outcomes : σ → List (γ × σ)} {next : γ → Script σ ε α} {s t u : σ} {c : γ}
      {m : Script σ ε α} : (c, t) ∈ outcomes s → Leads (next c) t m u →
      Leads (.cmd outcomes next) s m u

/-- A run from `s` can be left in `t`. -/
def Leaves (m : Script σ ε α) (s t : σ) : Prop := ∃ rest, Leads m s rest t

/-- A run from `s` can return `a` in `t`. -/
def Returns (m : Script σ ε α) (s : σ) (a : α) (t : σ) : Prop := Leads m s (done a) t

/-- A run from `s` can end early by `e` in `t`. -/
def Raises (m : Script σ ε α) (s : σ) (e : ε) (t : σ) : Prop := Leads m s (raise e) t

/-- The run that takes the listed outcomes, the first one where the list has ended, as far as
`n` commands. -/
def play : List ℕ → Script σ ε α → σ → Script σ ε α × σ
  | c :: cs, .cmd outcomes next, s =>
    match (outcomes s)[c]? with
    | some o => play cs (next o.1) o.2
    | none => (.cmd outcomes next, s)
  | _, m, s => (m, s)

theorem leads_play (choices : List ℕ) (m : Script σ ε α) (s : σ) :
    Leads m s (play choices m s).1 (play choices m s).2 := by
  induction choices generalizing m s with
  | nil => exact .refl m s
  | cons c cs ih =>
    cases m with
    | done a => exact .refl _ s
    | raise e => exact .refl _ s
    | cmd outcomes next =>
      unfold play
      cases ho : (outcomes s)[c]? with
      | none => exact .refl _ s
      | some o => exact .cmd (List.mem_of_getElem? ho) (ih (next o.1) o.2)

theorem leaves_play (choices : List ℕ) (m : Script σ ε α) (s : σ) :
    m.Leaves s (play choices m s).2 :=
  ⟨_, leads_play choices m s⟩

/-- The result, where nothing is left to do. -/
def result : Script σ ε α → Option α
  | done a => some a
  | _ => none

theorem returns_play {choices : List ℕ} {m : Script σ ε α} {s : σ} {a : α}
    (h : (play choices m s).1.result = some a) : m.Returns s a (play choices m s).2 := by
  have hlead := leads_play choices m s
  unfold Returns
  revert h hlead
  generalize (play choices m s).1 = rest
  intro h hlead
  cases rest with
  | done b =>
    cases h
    exact hlead
  | raise e => cases h
  | cmd outcomes next => cases h

theorem raises_play {choices : List ℕ} {m : Script σ ε α} {s : σ} {e : ε}
    (h : (play choices m s).1 = raise e) : m.Raises s e (play choices m s).2 := by
  have hlead := leads_play choices m s
  rw [h] at hlead
  exact hlead

/-- Nothing is left to do. -/
def Ended : Script σ ε α → Prop
  | cmd _ _ => False
  | _ => True

instance : (m : Script σ ε α) → Decidable m.Ended
  | done _ => isTrue trivial
  | raise _ => isTrue trivial
  | cmd _ _ => isFalse id

end Script

theorem mem_pair {o a b : α} (h : o ∈ [a, b]) : o = a ∨ o = b := by
  simpa using h

open Script

/-- Every state on a run from `s` is in `I`; the run can always go on until it returns into `Q`
or ends early in `E`. -/
def wp (I : σ → Prop) (Q : α → σ → Prop) (E : ε → σ → Prop) : Script σ ε α → σ → Prop
  | .done a, s => Q a s
  | .raise e, s => E e s
  | .cmd outcomes next, s =>
    outcomes s ≠ [] ∧ ∀ o ∈ outcomes s, I o.2 ∧ wp I Q E (next o.1) o.2

section Rules

variable {I I' : σ → Prop} {Q Q' : α → σ → Prop} {R : β → σ → Prop} {E E' : ε → σ → Prop}
  {s t : σ}

@[simp] theorem wp_pure (a : α) : wp I Q E (pure a) s ↔ Q a s := Iff.rfl

@[simp] theorem wp_done (a : α) : wp I Q E (done a) s ↔ Q a s := Iff.rfl

@[simp] theorem wp_raise (e : ε) : wp I Q E (raise e : Script σ ε α) s ↔ E e s := Iff.rfl

@[simp] theorem wp_run (outcomes : σ → List (β × σ)) :
    wp I R E (run outcomes) s ↔ outcomes s ≠ [] ∧ ∀ o ∈ outcomes s, I o.2 ∧ R o.1 o.2 := Iff.rfl

@[simp] theorem wp_read (f : σ → β) : wp I R E (Script.read f) s ↔ I s ∧ R (f s) s := by
  unfold Script.read
  simp

theorem wp_mono {m : Script σ ε α} (h : wp I' Q' E' m s) (hI : ∀ t, I' t → I t)
    (hQ : ∀ a t, Q' a t → Q a t) (hE : ∀ e t, E' e t → E e t) : wp I Q E m s := by
  induction m generalizing s with
  | done a => exact hQ a s h
  | raise e => exact hE e s h
  | cmd outcomes next ih => exact ⟨h.1, fun o ho => ⟨hI _ (h.2 o ho).1, ih o.1 (h.2 o ho).2⟩⟩

theorem wp_bind (m : Script σ ε α) (f : α → Script σ ε β) :
    wp I R E (m >>= f) s ↔ wp I (fun a => wp I R E (f a)) E m s := by
  induction m generalizing s with
  | done a => rfl
  | raise e => rfl
  | cmd outcomes next ih =>
    apply and_congr_right
    intro _
    apply forall_congr'
    intro o
    apply imp_congr_right
    intro _
    exact and_congr_right fun _ => ih o.1

theorem wp_handle (m : Script σ ε α) (h : ε → Script σ ε α) :
    wp I Q E (m.handle h) s ↔ wp I Q (fun e => wp I Q E (h e)) m s := by
  induction m generalizing s with
  | done a => rfl
  | raise e => rfl
  | cmd outcomes next ih =>
    apply and_congr_right
    intro _
    apply forall_congr'
    intro o
    apply imp_congr_right
    intro _
    exact and_congr_right fun _ => ih o.1

/-- The loop rule: `J rest` holds when `rest` is still to be done. -/
theorem wp_forEach {f : β → Script σ ε Unit} {Q : Unit → σ → Prop} (J : List β → σ → Prop)
    (hstep : ∀ b bs t, J (b :: bs) t → wp I (fun _ => J bs) E (f b) t)
    (hdone : ∀ t, J [] t → Q () t) (bs : List β) (hs : J bs s) :
    wp I Q E (forEach f bs) s := by
  induction bs generalizing s with
  | nil => exact hdone s hs
  | cons b bs ih =>
    rw [forEach, wp_bind]
    exact wp_mono (hstep b bs s hs) (fun _ h => h) (fun _ t ht => ih ht) (fun _ _ h => h)

theorem wp_leads {m rest : Script σ ε α} (h : wp I Q E m s) (hs : I s)
    (hlead : Leads m s rest t) : I t ∧ wp I Q E rest t := by
  induction hlead with
  | refl => exact ⟨hs, h⟩
  | cmd ho _ ih => exact ih (h.2 _ ho).2 (h.2 _ ho).1

theorem leaves_of_wp {m : Script σ ε α} (h : wp I Q E m s) (hs : I s) (hleave : m.Leaves s t) :
    I t := by
  obtain ⟨rest, hlead⟩ := hleave
  exact (wp_leads h hs hlead).1

theorem returns_of_wp {m : Script σ ε α} {a : α} (h : wp I Q E m s) (hs : I s)
    (hreturn : m.Returns s a t) : Q a t :=
  (wp_leads h hs hreturn).2

theorem raises_of_wp {m : Script σ ε α} {e : ε} (h : wp I Q E m s) (hs : I s)
    (hraise : m.Raises s e t) : E e t :=
  (wp_leads h hs hraise).2

theorem exit_of_wp {m rest : Script σ ε α} (h : wp I (fun _ _ => False) E m s) (hs : I s)
    (hlead : Leads m s rest t) (hend : rest.Ended) : ∃ e, rest = raise e ∧ E e t := by
  have hrest := (wp_leads h hs hlead).2
  cases rest with
  | done a => exact hrest.elim
  | raise e => exact ⟨e, rfl, hrest⟩
  | cmd outcomes next => exact hend.elim

theorem result_of_wp {m rest : Script σ ε α} (h : wp I Q (fun _ _ => False) m s) (hs : I s)
    (hlead : Leads m s rest t) (hend : rest.Ended) : ∃ a, rest.result = some a ∧ Q a t := by
  have hrest := (wp_leads h hs hlead).2
  cases rest with
  | done a => exact ⟨a, rfl, hrest⟩
  | raise e => exact hrest.elim
  | cmd outcomes next => exact hend.elim

theorem ends_of_wp {m : Script σ ε α} (h : wp I Q E m s) :
    ∃ rest t, Leads m s rest t ∧ rest.Ended := by
  induction m generalizing s with
  | done a => exact ⟨_, s, .refl _ s, trivial⟩
  | raise e => exact ⟨_, s, .refl _ s, trivial⟩
  | cmd outcomes next ih =>
    obtain ⟨o, ho⟩ := List.exists_mem_of_ne_nil _ h.1
    obtain ⟨rest, t, hlead, hend⟩ := ih o.1 (h.2 o ho).2
    exact ⟨rest, t, .cmd ho hlead, hend⟩

end Rules

/-- Every run that starts in `P` stays in it. -/
structure Keeps (P : σ → Prop) (m : Script σ ε α) : Prop where
  stays : ∀ s, P s → wp P (fun _ => P) (fun _ => P) m s

namespace Keeps

variable {P : σ → Prop} {m : Script σ ε α}

theorem pure (a : α) : Keeps P (Pure.pure a : Script σ ε α) := ⟨fun _ hs => hs⟩

theorem raise (e : ε) : Keeps P (Script.raise e : Script σ ε α) := ⟨fun _ hs => hs⟩

theorem run {outcomes : σ → List (β × σ)} (hlive : ∀ s, outcomes s ≠ [])
    (h : ∀ s, P s → ∀ o ∈ outcomes s, P o.2) : Keeps P (Script.run outcomes : Script σ ε β) :=
  ⟨fun s hs => ⟨hlive s, fun o ho => ⟨h s hs o ho, h s hs o ho⟩⟩⟩

theorem read (f : σ → β) : Keeps P (Script.read f : Script σ ε β) :=
  run (fun _ => by simp) fun s hs o ho => by rwa [List.mem_singleton.mp ho]

theorem bind {f : α → Script σ ε β} (hm : Keeps P m) (hf : ∀ a, Keeps P (f a)) :
    Keeps P (m >>= f) := by
  constructor
  intro s hs
  rw [wp_bind]
  exact wp_mono (hm.stays s hs) (fun _ h => h) (fun a t ht => (hf a).stays t ht) (fun _ _ h => h)

theorem handle {h : ε → Script σ ε α} (hm : Keeps P m) (hh : ∀ e, Keeps P (h e)) :
    Keeps P (m.handle h) := by
  constructor
  intro s hs
  rw [wp_handle]
  exact wp_mono (hm.stays s hs) (fun _ h => h) (fun _ _ h => h) (fun e t ht => (hh e).stays t ht)

theorem andThen {last : Script σ ε Unit} (hm : Keeps P m) (hlast : Keeps P last) :
    Keeps P (m.andThen last) :=
  bind (handle hm fun e => bind hlast fun _ => raise e) fun a => bind hlast fun _ => pure a

theorem forEach {f : β → Script σ ε Unit} {bs : List β} (h : ∀ b ∈ bs, Keeps P (f b)) :
    Keeps P (Script.forEach f bs) := by
  induction bs with
  | nil => exact pure ()
  | cons b bs ih =>
    exact bind (h b List.mem_cons_self) fun _ => ih fun b' hb' => h b' (List.mem_cons_of_mem b hb')

theorem ite {c : Prop} [Decidable c] {m' : Script σ ε α} (hm : Keeps P m) (hm' : Keeps P m') :
    Keeps P (if c then m else m') := by
  split
  · exact hm
  · exact hm'

end Keeps

end PlumosBubble.Scripts
