import Mathlib.Logic.Function.Basic
import PlumosBubble.Script.Basic
import PlumosBubble.Transition.Run

/-! Any number of scripts on one state, a command at a time in any order. A protocol says what
each of them may do to the state; a script that obeys its part, whatever the others do between
its commands, is proved by a triple, and all of them together keep the invariant. -/

namespace PlumosBubble.Scripts

open Script Transition

variable {ι σ ε α β : Type}

/-- Scripts with the state they share. -/
structure Pool (ι σ ε α : Type) where
  shared : σ
  thread : ι → Script σ ε α

/-- One thread goes on by one command. -/
inductive Pool.Step [DecidableEq ι] (p : Pool ι σ ε α) (i : ι) : Pool ι σ ε α → Prop
  | cmd {γ : Type} {outcomes : σ → List (γ × σ)} {next : γ → Script σ ε α} {o : γ × σ} :
    p.thread i = .cmd outcomes next → o ∈ outcomes p.shared →
      Pool.Step p i ⟨o.2, Function.update p.thread i (next o.1)⟩

/-- The invariant, what thread `i` counts on from the others, and what it promises them. -/
structure Protocol (ι σ : Type) where
  inv : σ → Prop
  rely : ι → σ → σ → Prop
  guar : ι → σ → σ → Prop
  rely_refl : ∀ i s, rely i s s
  rely_trans : ∀ {i s t u}, rely i s t → rely i t u → rely i s u
  keeps : ∀ {i s t}, inv s → guar i s t → inv t
  others : ∀ {i j s t}, i ≠ j → inv s → guar i s t → rely j s t

section Obeys

variable (P : Protocol ι σ) (C : σ → σ → Prop) (i : ι)

/-- From `s` on thread `i` keeps its promise with each command that is in `C`, and ends in `Q`
or `E`, with any steps of the others in between. -/
def Obeys (Q : α → σ → Prop) (E : ε → σ → Prop) : Script σ ε α → σ → Prop
  | .done a, s => ∀ t, P.rely i s t → P.inv t → Q a t
  | .raise e, s => ∀ t, P.rely i s t → P.inv t → E e t
  | .cmd outcomes next, s => ∀ t, P.rely i s t → P.inv t → ∀ o ∈ outcomes t, C t o.2 →
    P.guar i t o.2 ∧ Obeys Q E (next o.1) o.2

/-- What the others leave true. -/
def Stable (pre : σ → Prop) : Prop :=
  ∀ s t, P.inv s → pre s → P.rely i s t → P.inv t → pre t

/-- From every state in `pre` the script obeys. -/
def Triple (pre : σ → Prop) (m : Script σ ε α) (Q : α → σ → Prop) (E : ε → σ → Prop) : Prop :=
  ∀ s, P.inv s → pre s → Obeys P C i Q E m s

end Obeys

section Rules

variable {P : Protocol ι σ} {C : σ → σ → Prop} {i : ι} {pre pre' : σ → Prop}
  {Q Q' : α → σ → Prop} {R : β → σ → Prop} {E E' : ε → σ → Prop} {m : Script σ ε α} {s t : σ}

theorem Obeys.rely (h : Obeys P C i Q E m s) (hrely : P.rely i s t) : Obeys P C i Q E m t := by
  cases m with
  | done a => exact fun u hu => h u (P.rely_trans hrely hu)
  | raise e => exact fun u hu => h u (P.rely_trans hrely hu)
  | cmd outcomes next => exact fun u hu => h u (P.rely_trans hrely hu)

theorem Obeys.mono (h : Obeys P C i Q' E' m s) (hQ : ∀ a t, P.inv t → Q' a t → Q a t)
    (hE : ∀ e t, P.inv t → E' e t → E e t) : Obeys P C i Q E m s := by
  induction m generalizing s with
  | done a => exact fun t ht hinv => hQ a t hinv (h t ht hinv)
  | raise e => exact fun t ht hinv => hE e t hinv (h t ht hinv)
  | cmd outcomes next ih =>
    exact fun t ht hinv o ho hC => ⟨(h t ht hinv o ho hC).1, ih o.1 (h t ht hinv o ho hC).2⟩

theorem Obeys.bind {f : α → Script σ ε β} (hs : P.inv s)
    (h : Obeys P C i (fun a => Obeys P C i R E (f a)) E m s) :
    Obeys P C i R E (m >>= f) s := by
  induction m generalizing s with
  | done a => exact h s (P.rely_refl i s) hs
  | raise e => exact h
  | cmd outcomes next ih =>
    intro t ht hinv o ho hC
    obtain ⟨hguar, hrest⟩ := h t ht hinv o ho hC
    exact ⟨hguar, ih o.1 (P.keeps hinv hguar) hrest⟩

theorem Obeys.handle {h : ε → Script σ ε α} (hs : P.inv s)
    (hm : Obeys P C i Q (fun e => Obeys P C i Q E (h e)) m s) :
    Obeys P C i Q E (m.handle h) s := by
  induction m generalizing s with
  | done a => exact hm
  | raise e => exact hm s (P.rely_refl i s) hs
  | cmd outcomes next ih =>
    intro t ht hinv o ho hC
    obtain ⟨hguar, hrest⟩ := hm t ht hinv o ho hC
    exact ⟨hguar, ih o.1 (P.keeps hinv hguar) hrest⟩

namespace Triple

theorem conseq (h : Triple P C i pre' m Q' E') (hpre : ∀ t, P.inv t → pre t → pre' t)
    (hQ : ∀ a t, P.inv t → Q' a t → Q a t) (hE : ∀ e t, P.inv t → E' e t → E e t) :
    Triple P C i pre m Q E :=
  fun s hs hp => (h s hs (hpre s hs hp)).mono hQ hE

theorem pure (a : α) (hstable : Stable P i pre) (hQ : ∀ t, P.inv t → pre t → Q a t) :
    Triple P C i pre (Pure.pure a : Script σ ε α) Q E :=
  fun s hs hp t ht hinv => hQ t hinv (hstable s t hs hp ht hinv)

theorem raise (e : ε) (hstable : Stable P i pre) (hE : ∀ t, P.inv t → pre t → E e t) :
    Triple P C i pre (Script.raise e : Script σ ε α) Q E :=
  fun s hs hp t ht hinv => hE t hinv (hstable s t hs hp ht hinv)

theorem run {outcomes : σ → List (β × σ)} (hstable : Stable P i pre)
    (hR : ∀ b, Stable P i (R b))
    (h : ∀ t, P.inv t → pre t → ∀ o ∈ outcomes t, C t o.2 → P.guar i t o.2 ∧ R o.1 o.2) :
    Triple P C i pre (Script.run outcomes : Script σ ε β) R E := by
  intro s hs hp t ht hinv o ho hC
  obtain ⟨hguar, hpost⟩ := h t hinv (hstable s t hs hp ht hinv) o ho hC
  have hinv' := P.keeps hinv hguar
  exact ⟨hguar, fun u hu hinvu => hR o.1 o.2 u hinv' hpost hu hinvu⟩

theorem look (hrefl : ∀ t, P.inv t → P.guar i t t) {outcomes : σ → List (β × σ)}
    (hstable : Stable P i pre) (hR : ∀ b, Stable P i (R b))
    (h : ∀ t, P.inv t → pre t → ∀ o ∈ outcomes t, o.2 = t ∧ R o.1 t) :
    Triple P C i pre (Script.run outcomes : Script σ ε β) R E := by
  apply run hstable hR
  intro t ht hp o ho _
  obtain ⟨hsame, hpost⟩ := h t ht hp o ho
  rw [hsame]
  exact ⟨hrefl t ht, hpost⟩

theorem read (hrefl : ∀ t, P.inv t → P.guar i t t) {f : σ → β} (hstable : Stable P i pre)
    (hR : ∀ b, Stable P i (R b)) (h : ∀ t, P.inv t → pre t → R (f t) t) :
    Triple P C i pre (Script.read f : Script σ ε β) R E := by
  apply look hrefl hstable hR
  intro t ht hp o ho
  rw [List.mem_singleton.mp ho]
  exact ⟨rfl, h t ht hp⟩

theorem bind {f : α → Script σ ε β} (hm : Triple P C i pre m Q E)
    (hf : ∀ a, Triple P C i (Q a) (f a) R E) : Triple P C i pre (m >>= f) R E :=
  fun s hs hp => Obeys.bind hs
    ((hm s hs hp).mono (fun a t hinv hq => hf a t hinv hq) fun _ _ _ he => he)

theorem handle {h : ε → Script σ ε α} (hm : Triple P C i pre m Q E')
    (hh : ∀ e, Triple P C i (E' e) (h e) Q E) : Triple P C i pre (m.handle h) Q E :=
  fun s hs hp => Obeys.handle hs
    ((hm s hs hp).mono (fun _ _ _ hq => hq) fun e t hinv he => hh e t hinv he)

theorem ite {c : Prop} [Decidable c] {m' : Script σ ε α} (hm : c → Triple P C i pre m Q E)
    (hm' : ¬ c → Triple P C i pre m' Q E) : Triple P C i pre (if c then m else m') Q E := by
  split
  · exact hm ‹_›
  · exact hm' ‹_›

end Triple

end Rules

namespace Pool

variable [DecidableEq ι] {P : Protocol ι σ} {C : ι → σ → σ → Prop} {p q : Pool ι σ ε α}

/-- A step that is in `C`. -/
def StepIn (C : ι → σ → σ → Prop) (p : Pool ι σ ε α) (i : ι) (q : Pool ι σ ε α) : Prop :=
  p.Step i q ∧ C i p.shared q.shared

/-- Every thread obeys from here, and ends as its assertions say. -/
structure Correct (P : Protocol ι σ) (C : ι → σ → σ → Prop) (Q : ι → α → σ → Prop)
    (E : ι → ε → σ → Prop) (p : Pool ι σ ε α) : Prop where
  inv : P.inv p.shared
  obeys : ∀ i, Obeys P (C i) i (Q i) (E i) (p.thread i) p.shared

namespace Correct

variable {Q : ι → α → σ → Prop} {E : ι → ε → σ → Prop} {i : ι}

omit [DecidableEq ι] in
theorem returned {a : α} (hp : Correct P C Q E p) (hthread : p.thread i = .done a) :
    Q i a p.shared := by
  have hi := hp.obeys i
  rw [hthread] at hi
  exact hi p.shared (P.rely_refl i _) hp.inv

omit [DecidableEq ι] in
theorem raised {e : ε} (hp : Correct P C Q E p) (hthread : p.thread i = .raise e) :
    E i e p.shared := by
  have hi := hp.obeys i
  rw [hthread] at hi
  exact hi p.shared (P.rely_refl i _) hp.inv

theorem step (hp : Correct P C Q E p) (h : StepIn C p i q) :
    P.guar i p.shared q.shared ∧ Correct P C Q E q := by
  obtain ⟨⟨hthread, ho⟩, hC⟩ := h
  rename_i outcomes next o
  have hi := hp.obeys i
  rw [hthread] at hi
  obtain ⟨hguar, hnext⟩ := hi p.shared (P.rely_refl i _) hp.inv o ho hC
  refine ⟨hguar, P.keeps hp.inv hguar, fun j => ?_⟩
  dsimp only
  by_cases hj : j = i
  · subst hj
    rw [Function.update_self]
    exact hnext
  · rw [Function.update_of_ne hj]
    exact (hp.obeys j).rely (P.others (Ne.symm hj) hp.inv hguar)

theorem run {is : List ι} (hp : Correct P C Q E p) (hrun : Run (StepIn C) p is q) :
    Correct P C Q E q :=
  hrun.keeps hp fun hp hstep => (hp.step hstep).2

end Correct

/-- Every thread obeys from here. -/
structure Sound (P : Protocol ι σ) (C : ι → σ → σ → Prop) (p : Pool ι σ ε α) : Prop where
  inv : P.inv p.shared
  obeys : ∀ i, Obeys P (C i) i (fun _ _ => True) (fun _ _ => True) (p.thread i) p.shared

theorem StepIn.sound {i : ι} (h : StepIn C p i q) (hp : Sound P C p) : Sound P C q := by
  have hcorrect : Correct P C (fun _ _ _ => True) (fun _ _ _ => True) p := ⟨hp.inv, hp.obeys⟩
  obtain ⟨-, hq⟩ := hcorrect.step h
  exact ⟨hq.inv, hq.obeys⟩

theorem run_sound {is : List ι} (hp : Sound P C p) (hrun : Run (StepIn C) p is q) :
    Sound P C q :=
  hrun.keeps hp fun hp hstep => hstep.sound hp

/-- The run in which the listed threads take the listed outcomes, while the steps are in `C`. -/
def playIn (C : ι → σ → σ → Prop) [∀ i s t, Decidable (C i s t)] :
    List (ι × ℕ) → Pool ι σ ε α → Pool ι σ ε α
  | [], p => p
  | (i, c) :: rest, p =>
    match p.thread i with
    | .cmd outcomes next =>
      match (outcomes p.shared)[c]? with
      | some o =>
        if C i p.shared o.2 then playIn C rest ⟨o.2, Function.update p.thread i (next o.1)⟩
        else p
      | none => p
    | _ => p

/-- The same with any steps. -/
abbrev play (choices : List (ι × ℕ)) (p : Pool ι σ ε α) : Pool ι σ ε α :=
  playIn (fun _ _ _ => True) choices p

theorem step_play {i : ι} {γ : Type} {outcomes : σ → List (γ × σ)} {next : γ → Script σ ε α}
    {c : ℕ} {o : γ × σ} (hthread : p.thread i = .cmd outcomes next)
    (ho : (outcomes p.shared)[c]? = some o) : p.Step i (play [(i, c)] p) := by
  have hplay : play [(i, c)] p = ⟨o.2, Function.update p.thread i (next o.1)⟩ := by
    simp only [play, playIn, hthread, ho, if_true]
  rw [hplay]
  exact .cmd hthread (List.mem_of_getElem? ho)

theorem run_playIn [∀ i s t, Decidable (C i s t)] (choices : List (ι × ℕ)) (p : Pool ι σ ε α) :
    ∃ is, Run (StepIn C) p is (playIn C choices p) := by
  induction choices generalizing p with
  | nil => exact ⟨[], .nil⟩
  | cons choice rest ih =>
    obtain ⟨i, c⟩ := choice
    unfold playIn
    split
    · rename_i outcomes next hthread
      split
      · rename_i o ho
        split
        · rename_i hC
          obtain ⟨is, hrun⟩ := ih ⟨o.2, Function.update p.thread i (next o.1)⟩
          have hstep : StepIn C p i ⟨o.2, Function.update p.thread i (next o.1)⟩ :=
            ⟨.cmd hthread (List.mem_of_getElem? ho), hC⟩
          exact ⟨[i] ++ is, (Run.single hstep).append hrun⟩
        · exact ⟨[], .nil⟩
      · exact ⟨[], .nil⟩
    · exact ⟨[], .nil⟩

theorem run_play (choices : List (ι × ℕ)) (p : Pool ι σ ε α) :
    ∃ is, Run Step p is (play choices p) := by
  obtain ⟨is, hrun⟩ := run_playIn (C := fun _ _ _ => True) choices p
  exact ⟨_, hrun.map id fun h => h.1⟩

end Pool

end PlumosBubble.Scripts
