import PlumosBubble.Script.Threads

/-! Scripts that signals interrupt. A signal comes between two commands of a thread: the thread
runs a handler, which the state decides, and goes on where it was unless the handler ends it. A
handler can be interrupted in its turn, so what a script is proved to do is indexed by the number
of the signals that are still to come. -/

namespace PlumosBubble.Scripts

open Script Transition

variable {ι κ σ ε α β : Type}

theorem Script.bind_assoc {γ : Type} (m : Script σ ε α) (f : α → Script σ ε β)
    (g : β → Script σ ε γ) : (m >>= f) >>= g = m >>= fun a => f a >>= g := by
  induction m with
  | done a => rfl
  | raise e => rfl
  | cmd outcomes next ih => exact congrArg (Script.cmd outcomes) (funext ih)

/-- What happens to a thread. -/
inductive Event (ι κ : Type) where
  | command (i : ι)
  | signal (i : ι) (k : κ)

/-- The states in which a thread takes signals, and what it then does. -/
structure Handling (ι κ σ ε : Type) where
  ready : ι → σ → Prop
  handler : ι → κ → σ → Script σ ε Unit

/-- A command of a thread, or a signal to one that is ready. -/
inductive Pool.Happens [DecidableEq ι] (H : Handling ι κ σ ε) (p : Pool ι σ ε α) :
    Event ι κ → Pool ι σ ε α → Prop
  | command {i : ι} {q : Pool ι σ ε α} : p.Step i q → Pool.Happens H p (.command i) q
  | signal {i : ι} {γ : Type} {outcomes : σ → List (γ × σ)} {next : γ → Script σ ε α} (k : κ) :
    p.thread i = .cmd outcomes next → H.ready i p.shared →
      Pool.Happens H p (.signal i k)
        ⟨p.shared, Function.update p.thread i
          (H.handler i k p.shared >>= fun _ => .cmd outcomes next)⟩

section Obeys

variable (P : Protocol ι σ) (H : Handling ι κ σ ε) (C : Event ι κ → σ → σ → Prop) (i : ι)

/-- As `Obeys`, where `S` must hold at every point at which a signal may come. -/
def ObeysUntil (S : Script σ ε α → σ → Prop) (Q : α → σ → Prop) (E : ε → σ → Prop) :
    Script σ ε α → σ → Prop
  | .done a, s => ∀ t, P.rely i s t → P.inv t → Q a t
  | .raise e, s => ∀ t, P.rely i s t → P.inv t → E e t
  | .cmd outcomes next, s => ∀ t, P.rely i s t → P.inv t → S (.cmd outcomes next) t ∧
    ∀ o ∈ outcomes t, C (.command i) t o.2 →
      P.guar i t o.2 ∧ ObeysUntil S Q E (next o.1) o.2

/-- With at most `n` signals from `s` on, each of them in `C`, thread `i` keeps its promise. -/
def ObeysWith : ℕ → (α → σ → Prop) → (ε → σ → Prop) → Script σ ε α → σ → Prop
  | 0, Q, E, m, s => ObeysUntil P C i (fun _ _ => True) Q E m s
  | n + 1, Q, E, m, s =>
    ObeysUntil P C i
      (fun m t => ∀ k, H.ready i t → C (.signal i k) t t →
        ObeysWith n Q E (H.handler i k t >>= fun _ => m) t) Q E m s

/-- From every state in `pre` the script obeys, with at most `n` signals. -/
def TripleWith (n : ℕ) (pre : σ → Prop) (m : Script σ ε α) (Q : α → σ → Prop)
    (E : ε → σ → Prop) : Prop :=
  ∀ j ≤ n, ∀ s, P.inv s → pre s → ObeysWith P H C i j Q E m s

/-- A signal in `pre` is handled, with at most `n` signals in all; a handler that returns does so
in `pre`. -/
def Handled (n : ℕ) (pre : σ → Prop) (E : ε → σ → Prop) : Prop :=
  ∀ j < n, ∀ t, P.inv t → pre t → ∀ k, H.ready i t → C (.signal i k) t t →
    ObeysWith P H C i j (fun _ => pre) E (H.handler i k t) t

end Obeys

section Rules

variable {P : Protocol ι σ} {H : Handling ι κ σ ε} {C : Event ι κ → σ → σ → Prop} {i : ι}
  {n : ℕ} {S S' : Script σ ε α → σ → Prop} {pre pre' : σ → Prop} {Q Q' : α → σ → Prop}
  {R : β → σ → Prop} {E E' : ε → σ → Prop} {m : Script σ ε α} {s t : σ}

theorem ObeysUntil.rely (h : ObeysUntil P C i S Q E m s) (hrely : P.rely i s t) :
    ObeysUntil P C i S Q E m t := by
  cases m with
  | done a => exact fun u hu => h u (P.rely_trans hrely hu)
  | raise e => exact fun u hu => h u (P.rely_trans hrely hu)
  | cmd outcomes next => exact fun u hu => h u (P.rely_trans hrely hu)

theorem ObeysUntil.mono (h : ObeysUntil P C i S' Q' E' m s)
    (hS : ∀ m t, P.inv t → S' m t → S m t) (hQ : ∀ a t, P.inv t → Q' a t → Q a t)
    (hE : ∀ e t, P.inv t → E' e t → E e t) : ObeysUntil P C i S Q E m s := by
  induction m generalizing s with
  | done a => exact fun t ht hinv => hQ a t hinv (h t ht hinv)
  | raise e => exact fun t ht hinv => hE e t hinv (h t ht hinv)
  | cmd outcomes next ih =>
    intro t ht hinv
    obtain ⟨hsig, hcmd⟩ := h t ht hinv
    exact ⟨hS _ t hinv hsig, fun o ho hC => ⟨(hcmd o ho hC).1, ih o.1 (hcmd o ho hC).2⟩⟩

namespace ObeysWith

theorem rely (h : ObeysWith P H C i n Q E m s) (hrely : P.rely i s t) :
    ObeysWith P H C i n Q E m t := by
  cases n with
  | zero => exact ObeysUntil.rely h hrely
  | succ n => exact ObeysUntil.rely h hrely

theorem mono (h : ObeysWith P H C i n Q' E' m s) (hQ : ∀ a t, P.inv t → Q' a t → Q a t)
    (hE : ∀ e t, P.inv t → E' e t → E e t) : ObeysWith P H C i n Q E m s := by
  induction n generalizing m s with
  | zero => exact ObeysUntil.mono h (fun _ _ _ h => h) hQ hE
  | succ n ih =>
    refine ObeysUntil.mono h (fun m t _ hsig k hready hC => ?_) hQ hE
    exact ih (hsig k hready hC)

theorem bind {f : α → Script σ ε β} (hs : P.inv s)
    (h : ObeysWith P H C i n (fun a t => ∀ j ≤ n, ObeysWith P H C i j R E (f a) t) E m s) :
    ObeysWith P H C i n R E (m >>= f) s := by
  induction n generalizing m s with
  | zero =>
    induction m generalizing s with
    | done a => exact h s (P.rely_refl i s) hs 0 (Nat.le_refl 0)
    | raise e => exact h
    | cmd outcomes next ih =>
      intro t ht hinv
      refine ⟨trivial, fun o ho hC => ?_⟩
      obtain ⟨hguar, hrest⟩ := (h t ht hinv).2 o ho hC
      exact ⟨hguar, ih o.1 (P.keeps hinv hguar) hrest⟩
  | succ n ihn =>
    induction m generalizing s with
    | done a => exact h s (P.rely_refl i s) hs (n + 1) (Nat.le_refl _)
    | raise e => exact h
    | cmd outcomes next ih =>
      intro t ht hinv
      obtain ⟨hsig, hcmd⟩ := h t ht hinv
      refine ⟨fun k hready hC => ?_, fun o ho hC => ?_⟩
      · -- the handler comes before both scripts
        have hfirst := ihn hinv ((hsig k hready hC).mono
          (fun _ _ _ hq j hj => hq j (Nat.le_succ_of_le hj)) fun _ _ _ he => he)
        rw [Script.bind_assoc] at hfirst
        exact hfirst
      · obtain ⟨hguar, hrest⟩ := hcmd o ho hC
        exact ⟨hguar, ih o.1 (P.keeps hinv hguar) hrest⟩

end ObeysWith

namespace TripleWith

theorem conseq (h : TripleWith P H C i n pre' m Q' E') (hpre : ∀ t, P.inv t → pre t → pre' t)
    (hQ : ∀ a t, P.inv t → Q' a t → Q a t) (hE : ∀ e t, P.inv t → E' e t → E e t) :
    TripleWith P H C i n pre m Q E :=
  fun j hj s hs hp => (h j hj s hs (hpre s hs hp)).mono hQ hE

theorem pure (a : α) (hstable : Stable P i pre) (hQ : ∀ t, P.inv t → pre t → Q a t) :
    TripleWith P H C i n pre (Pure.pure a : Script σ ε α) Q E := by
  intro j _ s hs hp
  cases j with
  | zero => exact fun t ht hinv => hQ t hinv (hstable s t hs hp ht hinv)
  | succ j => exact fun t ht hinv => hQ t hinv (hstable s t hs hp ht hinv)

theorem raise (e : ε) (hstable : Stable P i pre) (hE : ∀ t, P.inv t → pre t → E e t) :
    TripleWith P H C i n pre (Script.raise e : Script σ ε α) Q E := by
  intro j _ s hs hp
  cases j with
  | zero => exact fun t ht hinv => hE t hinv (hstable s t hs hp ht hinv)
  | succ j => exact fun t ht hinv => hE t hinv (hstable s t hs hp ht hinv)

theorem run {outcomes : σ → List (β × σ)} (hstable : Stable P i pre)
    (hR : ∀ b, Stable P i (R b)) (hsig : Handled P H C i n pre E)
    (h : ∀ t, P.inv t → pre t → ∀ o ∈ outcomes t, C (.command i) t o.2 →
      P.guar i t o.2 ∧ R o.1 o.2) :
    TripleWith P H C i n pre (Script.run outcomes : Script σ ε β) R E := by
  have hcmd : ∀ S s, P.inv s → pre s → (∀ m t, P.inv t → pre t → m = Script.run outcomes →
      S m t) → ObeysUntil P C i S R E (Script.run outcomes : Script σ ε β) s := by
    intro S s hs hp hS t ht hinv
    have hpt := hstable s t hs hp ht hinv
    refine ⟨hS _ t hinv hpt rfl, fun o ho hC => ?_⟩
    obtain ⟨hguar, hpost⟩ := h t hinv hpt o ho hC
    exact ⟨hguar, fun u hu hinvu => hR o.1 o.2 u (P.keeps hinv hguar) hpost hu hinvu⟩
  intro j hj
  -- the induction is on the signals that may still come: after one of them the command is back
  induction j using Nat.strongRecOn with
  | ind j ih =>
    intro s hs hp
    cases j with
    | zero => exact hcmd _ s hs hp fun _ _ _ _ _ => trivial
    | succ j =>
      refine hcmd _ s hs hp fun m t hinv hpt hm k hready hC => ?_
      rw [hm]
      refine ObeysWith.bind hinv ((hsig j (Nat.lt_of_succ_le hj) t hinv hpt k hready hC).mono
        (fun _ u hu hpu j' hj' => ?_) fun _ _ _ he => he)
      exact ih j' (Nat.lt_succ_of_le hj')
        (Nat.le_trans hj' (Nat.le_of_succ_le hj)) u hu hpu

theorem bind {f : α → Script σ ε β} (hm : TripleWith P H C i n pre m Q E)
    (hf : ∀ a, TripleWith P H C i n (Q a) (f a) R E) :
    TripleWith P H C i n pre (m >>= f) R E := by
  intro j hj s hs hp
  refine ObeysWith.bind hs ((hm j hj s hs hp).mono (fun a t hinv hq j' hj' => ?_)
    fun _ _ _ he => he)
  exact hf a j' (Nat.le_trans hj' hj) t hinv hq

end TripleWith

end Rules

namespace Pool

variable [DecidableEq ι] {P : Protocol ι σ} {H : Handling ι κ σ ε}
  {C : Event ι κ → σ → σ → Prop} {p q : Pool ι σ ε α} {e : Event ι κ}

/-- An event that is in `C`. -/
def HappensIn (H : Handling ι κ σ ε) (C : Event ι κ → σ → σ → Prop) (p : Pool ι σ ε α)
    (e : Event ι κ) (q : Pool ι σ ε α) : Prop :=
  p.Happens H e q ∧ C e p.shared q.shared

/-- Every thread obeys from here, however many signals come; where it ends, its promise about the
end holds. -/
structure Promised (P : Protocol ι σ) (H : Handling ι κ σ ε) (C : Event ι κ → σ → σ → Prop)
    (Q : ι → α → σ → Prop) (E : ι → ε → σ → Prop) (p : Pool ι σ ε α) : Prop where
  inv : P.inv p.shared
  obeys : ∀ i n, ObeysWith P H C i n (Q i) (E i) (p.thread i) p.shared

namespace Promised

variable {Q : ι → α → σ → Prop} {E : ι → ε → σ → Prop}

theorem step (hp : Promised P H C Q E p) (h : HappensIn H C p e q) : Promised P H C Q E q := by
  obtain ⟨hhappens, hC⟩ := h
  cases hhappens with
  | @command i q hstep =>
    obtain ⟨hthread, ho⟩ := hstep
    rename_i outcomes next o
    have hi : ∀ n, P.guar i p.shared o.2 ∧
        ObeysWith P H C i n (Q i) (E i) (next o.1) o.2 := by
      intro n
      have hobeys := hp.obeys i n
      rw [hthread] at hobeys
      cases n with
      | zero => exact (hobeys p.shared (P.rely_refl i _) hp.inv).2 o ho hC
      | succ n => exact (hobeys p.shared (P.rely_refl i _) hp.inv).2 o ho hC
    refine ⟨P.keeps hp.inv (hi 0).1, fun j n => ?_⟩
    dsimp only
    by_cases hj : j = i
    · subst hj
      rw [Function.update_self]
      exact (hi n).2
    · rw [Function.update_of_ne hj]
      exact (hp.obeys j n).rely (P.others (Ne.symm hj) hp.inv (hi 0).1)
  | @signal i γ outcomes next k hthread hready =>
    refine ⟨hp.inv, fun j n => ?_⟩
    dsimp only
    by_cases hj : j = i
    · subst hj
      rw [Function.update_self]
      have hobeys := hp.obeys j (n + 1)
      rw [hthread] at hobeys
      exact (hobeys p.shared (P.rely_refl j _) hp.inv).1 k hready hC
    · rw [Function.update_of_ne hj]
      exact hp.obeys j n

theorem run {es : List (Event ι κ)} (hp : Promised P H C Q E p)
    (hrun : Run (HappensIn H C) p es q) : Promised P H C Q E q :=
  hrun.keeps hp fun hp hstep => hp.step hstep

omit [DecidableEq ι] in
theorem raised {i : ι} {x : ε} (hp : Promised P H C Q E p) (hi : p.thread i = .raise x) :
    E i x p.shared := by
  have hobeys := hp.obeys i 0
  rw [hi] at hobeys
  exact hobeys p.shared (P.rely_refl i _) hp.inv

omit [DecidableEq ι] in
theorem done {i : ι} {a : α} (hp : Promised P H C Q E p) (hi : p.thread i = .done a) :
    Q i a p.shared := by
  have hobeys := hp.obeys i 0
  rw [hi] at hobeys
  exact hobeys p.shared (P.rely_refl i _) hp.inv

end Promised

/-- Every thread obeys from here, however many signals come. -/
structure Obedient (P : Protocol ι σ) (H : Handling ι κ σ ε) (C : Event ι κ → σ → σ → Prop)
    (p : Pool ι σ ε α) : Prop where
  inv : P.inv p.shared
  obeys : ∀ i n, ObeysWith P H C i n (fun _ _ => True) (fun _ _ => True) (p.thread i) p.shared

namespace Obedient

theorem step (hp : Obedient P H C p) (h : HappensIn H C p e q) : Obedient P H C q := by
  have hpromised : Promised P H C (fun _ _ _ => True) (fun _ _ _ => True) p :=
    ⟨hp.inv, hp.obeys⟩
  have hq := hpromised.step h
  exact ⟨hq.inv, hq.obeys⟩

theorem run {es : List (Event ι κ)} (hp : Obedient P H C p)
    (hrun : Run (HappensIn H C) p es q) : Obedient P H C q :=
  hrun.keeps hp fun hp hstep => hp.step hstep

end Obedient

/-- The run of the listed events, where a command takes the listed outcome, as far as it goes. -/
def playSignals (H : Handling ι κ σ ε) (C : Event ι κ → σ → σ → Prop)
    [∀ e s t, Decidable (C e s t)] [∀ i s, Decidable (H.ready i s)] :
    List (Event ι κ × ℕ) → Pool ι σ ε α → Pool ι σ ε α
  | [], p => p
  | (.command i, c) :: rest, p =>
    match p.thread i with
    | .cmd outcomes next =>
      match (outcomes p.shared)[c]? with
      | some o =>
        if C (.command i) p.shared o.2 then
          playSignals H C rest ⟨o.2, Function.update p.thread i (next o.1)⟩
        else p
      | none => p
    | _ => p
  | (.signal i k, _) :: rest, p =>
    match p.thread i with
    | .cmd outcomes next =>
      if H.ready i p.shared ∧ C (.signal i k) p.shared p.shared then
        playSignals H C rest ⟨p.shared, Function.update p.thread i
          (H.handler i k p.shared >>= fun _ => .cmd outcomes next)⟩
      else p
    | _ => p

theorem run_playSignals [∀ e s t, Decidable (C e s t)] [∀ i s, Decidable (H.ready i s)]
    (choices : List (Event ι κ × ℕ)) (p : Pool ι σ ε α) :
    ∃ es, Run (HappensIn H C) p es (playSignals H C choices p) := by
  induction choices generalizing p with
  | nil => exact ⟨[], .nil⟩
  | cons choice rest ih =>
    obtain ⟨e, c⟩ := choice
    cases e with
    | command i =>
      unfold playSignals
      split
      · rename_i outcomes next hthread
        split
        · rename_i o ho
          split
          · rename_i hC
            obtain ⟨es, hrun⟩ := ih ⟨o.2, Function.update p.thread i (next o.1)⟩
            have hstep : HappensIn H C p (.command i)
                ⟨o.2, Function.update p.thread i (next o.1)⟩ :=
              ⟨.command (.cmd hthread (List.mem_of_getElem? ho)), hC⟩
            exact ⟨[.command i] ++ es, (Run.single hstep).append hrun⟩
          · exact ⟨[], .nil⟩
        · exact ⟨[], .nil⟩
      · exact ⟨[], .nil⟩
    | signal i k =>
      unfold playSignals
      split
      · rename_i outcomes next hthread
        split
        · rename_i hC
          obtain ⟨es, hrun⟩ := ih ⟨p.shared, Function.update p.thread i
            (H.handler i k p.shared >>= fun _ => .cmd outcomes next)⟩
          have hstep : HappensIn H C p (.signal i k) ⟨p.shared, Function.update p.thread i
              (H.handler i k p.shared >>= fun _ => .cmd outcomes next)⟩ :=
            ⟨.signal k hthread hC.1, hC.2⟩
          exact ⟨[.signal i k] ++ es, (Run.single hstep).append hrun⟩
        · exact ⟨[], .nil⟩
      · exact ⟨[], .nil⟩

end Pool

end PlumosBubble.Scripts
