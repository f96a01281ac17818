import PlumosBubble.Script.Threads

/-! Scripts with a section in which each of them does as it likes with what they all use, and
outside of which it touches nothing. While nobody enters where somebody is, the work of one at
most is running, and no step of another takes anything away from it. -/

namespace PlumosBubble.Scripts

open Transition

/-- The invocations of a script, and what else goes on. -/
inductive Process where
  | run (i : ℕ)
  | world
  deriving DecidableEq

/-- Who is in the section, whose work is running, and which steps leave the work of `i` alone. -/
structure Sections (σ : Type) where
  inside : σ → List ℕ
  running : σ → ℕ → Bool
  Spares : ℕ → σ → σ → Prop
  spares_refl : ∀ i s, Spares i s s

namespace Sections

variable {σ ε α β : Type} (S : Sections σ)

/-- One at most is inside, and no work but its own is running. -/
structure Exclusive (s : σ) : Prop where
  alone : S.inside s = [] ∨ ∃ i, S.inside s = [i]
  within : ∀ i, S.running s i = true → i ∈ S.inside s

/-- Nobody enters where somebody is. -/
def Entering : Process → σ → σ → Prop
  | .run i, s, t => i ∉ S.inside s → i ∈ S.inside t → S.inside s = []
  | .world, _, _ => True

instance (p : Process) (s t : σ) : Decidable (S.Entering p s t) := by
  cases p <;> unfold Entering <;> infer_instance

/-- What a step of invocation `i` does. -/
structure Promise (i : ℕ) (s t : σ) : Prop where
  moves : S.inside t = S.inside s ∨ (S.inside s = [] ∧ S.inside t = [i]) ∨
    (S.inside s = [i] ∧ S.inside t = [])
  own : S.running t i = true → i ∈ S.inside t
  others : ∀ j, j ≠ i → S.running t j = true → S.running s j = true
  spares : ∀ j, j ≠ i → j ∈ S.inside s → S.Spares j s t

/-- A step that starts no work and moves nobody. -/
def Still (s t : σ) : Prop :=
  S.inside t = S.inside s ∧ ∀ j, S.running t j = true → S.running s j = true

variable {S} {s t u : σ} {i j : ℕ}

theorem Still.refl (s : σ) : S.Still s s := ⟨rfl, fun _ h => h⟩

theorem Exclusive.eq (hs : S.Exclusive s) (hi : i ∈ S.inside s) (hj : j ∈ S.inside s) :
    i = j := by
  rcases hs.alone with h | ⟨k, h⟩
  · rw [h] at hi
    cases hi
  · rw [h] at hi hj
    exact (List.mem_singleton.mp hi).trans (List.mem_singleton.mp hj).symm

theorem Exclusive.singleton (hs : S.Exclusive s) (hi : i ∈ S.inside s) : S.inside s = [i] := by
  rcases hs.alone with h | ⟨k, h⟩
  · rw [h] at hi
    cases hi
  · rw [h] at hi
    rw [h, List.mem_singleton.mp hi]

theorem Exclusive.still (hs : S.Exclusive s) (h : S.Still s t) : S.Exclusive t where
  alone := by
    rw [h.1]
    exact hs.alone
  within i hi := by
    rw [h.1]
    exact hs.within i (h.2 i hi)

theorem Promise.mem (h : S.Promise i s t) (hj : j ≠ i) : j ∈ S.inside t ↔ j ∈ S.inside s := by
  have hnot : j ∉ [i] := fun hmem => hj (List.mem_singleton.mp hmem)
  rcases h.moves with hsame | ⟨hs, ht⟩ | ⟨hs, ht⟩
  · rw [hsame]
  · rw [hs, ht]
    exact ⟨fun hmem => absurd hmem hnot, (fun hmem => by cases hmem)⟩
  · rw [hs, ht]
    exact ⟨(fun hmem => by cases hmem), fun hmem => absurd hmem hnot⟩

theorem Exclusive.promise (hs : S.Exclusive s) (h : S.Promise i s t) : S.Exclusive t where
  alone := by
    rcases h.moves with hsame | ⟨-, ht⟩ | ⟨-, ht⟩
    · rw [hsame]
      exact hs.alone
    · exact Or.inr ⟨i, ht⟩
    · exact Or.inl ht
  within j hj := by
    by_cases hji : j = i
    · subst hji
      exact h.own hj
    · exact (h.mem hji).mpr (hs.within j (h.others j hji hj))

variable (S)

/-- An invocation counts on being moved by nobody else, and the world moves nobody. -/
def protocol : Protocol Process σ where
  inv := S.Exclusive
  rely
    | .run i => fun s t => (i ∈ S.inside t ↔ i ∈ S.inside s) ∧
      (S.running t i = true → S.running s i = true)
    | .world => fun _ _ => True
  guar
    | .run i => S.Promise i
    | .world => S.Still
  rely_refl p _ := by
    cases p with
    | run i => exact ⟨Iff.rfl, id⟩
    | world => trivial
  rely_trans {p s t u} h h' := by
    cases p with
    | run i => exact ⟨h'.1.trans h.1, fun hu => h.2 (h'.2 hu)⟩
    | world => trivial
  keeps {p s t} hs h := by
    cases p with
    | run i => exact hs.promise h
    | world => exact hs.still h
  others {p q s t} hpq _ h := by
    cases q with
    | world => trivial
    | run j =>
      cases p with
      | run i =>
        have hji : j ≠ i := fun hji => hpq (by rw [hji])
        exact ⟨h.mem hji, h.others j hji⟩
      | world =>
        have hiff : j ∈ S.inside t ↔ j ∈ S.inside s := by rw [h.1]
        exact ⟨hiff, h.2 j⟩

/-- The triples of invocation `i`. -/
abbrev Does (i : ℕ) (E : ε → σ → Prop) (pre : σ → Prop) (m : Script σ ε α) (Q : α → σ → Prop) :
    Prop :=
  Triple S.protocol (S.Entering (.run i)) (.run i) pre m Q E

/-- Where an invocation is: outside, inside with no work or with work that may be running, and
anywhere with no work. -/
inductive Place where
  | outside
  | idle
  | busy
  | still
  deriving DecidableEq

/-- The places in the section. -/
def Place.isInside : Place → Bool
  | .idle | .busy => true
  | .outside | .still => false

def At (i : ℕ) : Place → σ → Prop
  | .outside, s => i ∉ S.inside s
  | .idle, s => i ∈ S.inside s ∧ S.running s i = false
  | .busy, s => i ∈ S.inside s
  | .still, s => S.running s i = false

/-- The work of one at most is running, and no step of another invocation takes anything away
from one that is inside. -/
def Undisturbed (p : Pool Process σ ε Unit) : Prop :=
  (∀ i, S.running p.shared i = true → i ∈ S.inside p.shared) ∧
  (∀ i j, S.running p.shared i = true → S.running p.shared j = true → i = j) ∧
  ∀ i q, Pool.StepIn S.Entering p (.run i) q → ∀ j, j ≠ i → j ∈ S.inside p.shared →
    S.Spares j p.shared q.shared

variable {S} {E : ε → σ → Prop} {place place' : Place}

theorem stable_at : Stable S.protocol (.run i) (S.At i place) := by
  intro s t _ hs hrely _
  obtain ⟨hmem, hrun⟩ := hrely
  have hquiet : S.running s i = false → S.running t i = false := by
    intro h
    cases ht : S.running t i with
    | false => rfl
    | true =>
      rw [hrun ht] at h
      cases h
  cases place with
  | outside => exact fun ht => hs (hmem.mp ht)
  | idle => exact ⟨hmem.mpr hs.1, hquiet hs.2⟩
  | busy => exact hmem.mpr hs
  | still => exact hquiet hs

theorem At.mem (hplace : place.isInside = true) (h : S.At i place s) : i ∈ S.inside s := by
  cases place with
  | outside => cases hplace
  | idle => exact h.1
  | busy => exact h
  | still => cases hplace

theorem At.still_of_outside (hs : S.Exclusive s) (h : S.At i .outside s) : S.At i .still s := by
  cases hrun : S.running s i with
  | false => exact hrun
  | true => exact absurd (hs.within i hrun) h

theorem Still.promise (hs : S.Exclusive s) (h : S.Still s t)
    (hspares : i ∉ S.inside s → ∀ j, S.Spares j s t) : S.Promise i s t where
  moves := Or.inl h.1
  own hi := by
    rw [h.1]
    exact hs.within i (h.2 i hi)
  others j _ := h.2 j
  spares j hj hmem := by
    by_cases hi : i ∈ S.inside s
    · exact absurd (hs.eq hmem hi) hj
    · exact hspares hi j

theorem promise_refl (hs : S.Exclusive s) : S.Promise i s s :=
  (Still.refl s).promise hs fun _ j => S.spares_refl j s

theorem At.step (h : S.Still s t) (hs : S.At i place s) : S.At i place t := by
  obtain ⟨hsame, hrun⟩ := h
  have hquiet : S.running s i = false → S.running t i = false := by
    intro h
    cases ht : S.running t i with
    | false => rfl
    | true =>
      rw [hrun i ht] at h
      cases h
  cases place with
  | outside =>
    show i ∉ S.inside t
    rw [hsame]
    exact hs
  | idle =>
    show i ∈ S.inside t ∧ S.running t i = false
    rw [hsame]
    exact ⟨hs.1, hquiet hs.2⟩
  | busy =>
    show i ∈ S.inside t
    rw [hsame]
    exact hs
  | still => exact hquiet hs

theorem does_pure {a : α} {Q : α → σ → Prop} (h : ∀ s, S.At i place s → Q a s) :
    S.Does i E (S.At i place) (pure a) Q :=
  Triple.pure a stable_at fun s _ hs => h s hs

theorem does_quiet {outcomes : σ → List (β × σ)}
    (h : ∀ s, ∀ o ∈ outcomes s, S.Still s o.2 ∧ ∀ j, S.Spares j s o.2) :
    S.Does i E (S.At i place) (Script.run outcomes) fun _ => S.At i place := by
  apply Triple.run stable_at fun _ => stable_at
  intro s hinv hs o ho _
  obtain ⟨hstill, hspares⟩ := h s o ho
  exact ⟨hstill.promise hinv fun _ => hspares, hs.step hstill⟩

theorem does_inside {outcomes : σ → List (β × σ)} (hplace : place.isInside = true)
    (h : ∀ s, ∀ o ∈ outcomes s, S.Still s o.2) :
    S.Does i E (S.At i place) (Script.run outcomes) fun _ => S.At i place := by
  apply Triple.run stable_at fun _ => stable_at
  intro s hinv hs o ho _
  have hstill := h s o ho
  exact ⟨hstill.promise hinv fun hnot => absurd (hs.mem hplace) hnot, hs.step hstill⟩

theorem promise_enter (hs : S.Exclusive s) (hC : S.Entering (.run i) s t)
    (hinside : S.inside t = (S.inside s).insert i)
    (hrunning : ∀ j, S.running t j = true → S.running s j = true)
    (hspares : ∀ j, S.Spares j s t) : S.Promise i s t ∧ i ∈ S.inside t := by
  by_cases hi : i ∈ S.inside s
  · have hsame : S.inside t = S.inside s := by rw [hinside, List.insert_of_mem hi]
    have hstill : S.Still s t := ⟨hsame, hrunning⟩
    refine ⟨hstill.promise hs fun _ => hspares, ?_⟩
    rw [hsame]
    exact hi
  · have hmem : i ∈ S.inside t := by
      rw [hinside]
      exact List.mem_insert_self
    have hempty := hC hi hmem
    have hone : S.inside t = [i] := by
      rw [hinside, hempty]
      rfl
    refine ⟨⟨Or.inr (Or.inl ⟨hempty, hone⟩), fun _ => hmem, fun j _ => hrunning j,
      fun j _ _ => hspares j⟩, hmem⟩

theorem promise_leave (hs : S.Exclusive s) (hidle : S.At i .idle s)
    (hinside : S.inside t = (S.inside s).erase i)
    (hrunning : ∀ j, S.running t j = S.running s j) : S.Promise i s t ∧ i ∉ S.inside t := by
  have hone := hs.singleton hidle.1
  have hempty : S.inside t = [] := by
    rw [hinside, hone]
    exact List.erase_cons_head ..
  refine ⟨⟨Or.inr (Or.inr ⟨hone, hempty⟩), fun hrun => ?_, fun j _ hrun => ?_,
    fun j hj hmem => absurd (hs.eq hmem hidle.1) hj⟩, ?_⟩
  · rw [hrunning, hidle.2] at hrun
    cases hrun
  · rw [← hrunning]
    exact hrun
  · rw [hempty]
    exact List.not_mem_nil

theorem promise_start (hs : S.Exclusive s) (hi : i ∈ S.inside s)
    (hinside : S.inside t = S.inside s)
    (hrunning : ∀ j, j ≠ i → S.running t j = true → S.running s j = true) :
    S.Promise i s t ∧ i ∈ S.inside t := by
  have hmem : i ∈ S.inside t := by
    rw [hinside]
    exact hi
  exact ⟨⟨Or.inl hinside, fun _ => hmem, hrunning, fun j hj hmem => absurd (hs.eq hmem hi) hj⟩,
    hmem⟩

theorem undisturbed {Q : Process → Unit → σ → Prop} {E : Process → ε → σ → Prop}
    {is : List Process} {p q : Pool Process σ ε Unit}
    (hp : Pool.Correct S.protocol S.Entering Q E p)
    (hrun : Run (Pool.StepIn S.Entering) p is q) : S.Undisturbed q := by
  have hq := hp.run hrun
  refine ⟨hq.inv.within, fun i j hi hj => ?_, fun i r hstep j hj hmem => ?_⟩
  · exact hq.inv.eq (hq.inv.within i hi) (hq.inv.within j hj)
  · have hpromise : S.Promise i q.shared r.shared := (hq.step hstep).1
    exact hpromise.spares j hj hmem

end Sections

end PlumosBubble.Scripts
