import PlumosBubble.PortMaster.FrontendControl

/-! Who owns the validation hold: where the parts of the runs that write and remove the two files
do not overlap, no command fails while PortMaster's mark is there, and the other tool sets its
hold only in their absence, no hold is lost and none stays behind. -/

namespace PlumosBubble.FrontendControl

open Scripts Transition

section Protocol

/-- A hold of PortMaster's is marked, and a foreign one is met by nobody. -/
structure Consistent (s : State) : Prop where
  marked : s.files.hold = some .portmaster → s.files.mark = true
  foreign : s.files.hold = some .foreign →
    s.files.mark = false ∧ (∀ i, s.phase i = .out) ∧ ∀ i, s.removing i = false
  one : ∀ i j, s.phase i = .writing → s.phase j = .writing → i = j
  apart : ∀ i j, s.phase i = .writing → s.removing j = false
  seen : ∀ i, s.seen i ≤ s.acquired
  matched : s.matched ≤ s.acquired
  covered : s.files.mark = true → (∃ i, s.phase i ≠ .out) ∨ s.matched < s.acquired

/-- What a process counts on from the others. -/
def Unaffected : Process → State → State → Prop
  | .acquire i, s, t => t.phase i = s.phase i ∧ t.left i = s.left i ∧
    (s.phase i = .writing → t.files = s.files)
  | .release i, s, t => t.removing i = s.removing i ∧ t.seen i = s.seen i ∧
    (s.removing i = true → s.files.hold = none → t.files.hold = none)
  | .other, _, _ => True

theorem Unaffected.refl (p : Process) (s : State) : Unaffected p s s := by
  cases p with
  | acquire i => exact ⟨rfl, rfl, fun _ => rfl⟩
  | release i => exact ⟨rfl, rfl, fun _ h => h⟩
  | other => trivial

theorem Unaffected.trans {p : Process} {s t u : State} (h : Unaffected p s t)
    (h' : Unaffected p t u) : Unaffected p s u := by
  cases p with
  | acquire i =>
    refine ⟨h'.1.trans h.1, h'.2.1.trans h.2.1, fun hi => ?_⟩
    exact (h'.2.2 (h.1.trans hi)).trans (h.2.2 hi)
  | release i =>
    refine ⟨h'.1.trans h.1, h'.2.1.trans h.2.1, fun hi hnone => ?_⟩
    exact h'.2.2 (h.1.trans hi) (h.2.2 hi hnone)
  | other => trivial

/-- Only the other tool puts an end to a foreign hold. -/
def protocol : Protocol Process State where
  inv := Consistent
  rely := Unaffected
  guar p s t := Consistent t ∧ (∀ q, q ≠ p → Unaffected q s t) ∧
    (p ≠ .other → s.files.hold = some .foreign → t.files.hold = some .foreign)
  rely_refl := Unaffected.refl
  rely_trans := Unaffected.trans
  keeps _ h := h.1
  others hij _ h := h.2.1 _ (Ne.symm hij)

/-- An acquire begins to write or to remove the files while no other run does either, a release
to remove them while no acquire writes; no command fails while the mark is there; a foreign hold
appears where neither the mark nor a run past its check is there. -/
structure Careful (s t : State) : Prop where
  acquires : ∀ i, t.phase i = .writing → s.phase i ≠ .writing →
    (∀ j, s.phase j ≠ .writing) ∧ ∀ j, s.removing j = false
  removals : ∀ i, t.removing i = true → s.removing i = false → ∀ j, s.phase j ≠ .writing
  failures : t.failures ≠ s.failures → s.files.mark = false
  holds : t.files.hold = some .foreign → s.files.hold ≠ some .foreign →
    s.files.mark = false ∧ (∀ i, s.phase i = .out) ∧ ∀ i, s.removing i = false

/-- The triples of a process in such runs. -/
abbrev Does {α : Type} (p : Process) (pre : State → Prop) (m : Sh α) (Q : α → State → Prop)
    (E : ℕ → State → Prop) : Prop :=
  Triple protocol Careful p pre m Q E

variable {s t : State} {i : ℕ}

theorem guar_refl {p : Process} (hs : Consistent s) : protocol.guar p s s :=
  ⟨hs, fun q _ => .refl q s, fun _ h => h⟩

theorem guar_acquire (phase : Phase) (hs : Consistent s)
    (hfiles : s.phase i ≠ .writing → t.files = s.files)
    (hphase : t.phase = Function.update s.phase i phase)
    (hleft : ∀ j, j ≠ i → t.left j = s.left j)
    (hremoving : t.removing = s.removing) (hseen : t.seen = s.seen)
    (hmatched : t.matched = s.matched) (hacquired : s.acquired ≤ t.acquired)
    (henter : phase = .writing → s.phase i ≠ .writing →
      (∀ j, s.phase j ≠ .writing) ∧ ∀ j, s.removing j = false)
    (hmarked : t.files.hold = some .portmaster → t.files.mark = true)
    (hforeign : t.files.hold = some .foreign → t.files = s.files ∧ phase = .out)
    (hcovered : t.files.mark = true → phase ≠ .out ∨ s.acquired < t.acquired ∨
      s.files.mark = true ∧ phase = s.phase i) :
    protocol.guar (.acquire i) s t := by
  have hself : t.phase i = phase := by rw [hphase, Function.update_self]
  have hothers : ∀ j, j ≠ i → t.phase j = s.phase j := by
    intro j hj
    rw [hphase, Function.update_of_ne hj]
  -- whoever writes in the state after, either did before or is this acquire
  have hwriting : ∀ j, t.phase j = .writing → s.phase j ≠ .writing →
      j = i ∧ (∀ k, s.phase k ≠ .writing) ∧ ∀ k, s.removing k = false := by
    intro j hj hnot
    by_cases hji : j = i
    · subst hji
      exact ⟨rfl, henter (hself.symm.trans hj) hnot⟩
    · exact absurd ((hothers j hji).symm.trans hj) hnot
  refine ⟨⟨hmarked, ?_, ?_, ?_, ?_, ?_, ?_⟩, ?_, ?_⟩
  · intro hhold
    obtain ⟨hsame, hout⟩ := hforeign hhold
    obtain ⟨hmark, hall, hnone⟩ := hs.foreign (by rw [← hsame]; exact hhold)
    refine ⟨by rw [hsame]; exact hmark, fun j => ?_, fun j => by rw [hremoving]; exact hnone j⟩
    by_cases hji : j = i
    · rw [hji, hself, hout]
    · rw [hothers j hji, hall j]
  · intro j k hj hk
    by_cases hj' : s.phase j = .writing
    · by_cases hk' : s.phase k = .writing
      · exact hs.one j k hj' hk'
      · exact absurd hj' ((hwriting k hk hk').2.1 j)
    · by_cases hk' : s.phase k = .writing
      · exact absurd hk' ((hwriting j hj hj').2.1 k)
      · exact (hwriting j hj hj').1.trans (hwriting k hk hk').1.symm
  · intro j k hj
    rw [hremoving]
    by_cases hj' : s.phase j = .writing
    · exact hs.apart j k hj'
    · exact (hwriting j hj hj').2.2 k
  · intro j
    rw [hseen]
    exact Nat.le_trans (hs.seen j) hacquired
  · rw [hmatched]
    exact Nat.le_trans hs.matched hacquired
  · intro hmark
    rcases hcovered hmark with hne | hmore | ⟨hbefore, hsame⟩
    · exact Or.inl ⟨i, by rw [hself]; exact hne⟩
    · right
      rw [hmatched]
      exact Nat.lt_of_le_of_lt hs.matched hmore
    · rw [hphase, hsame, Function.update_eq_self, hmatched]
      rcases hs.covered hbefore with hwho | hless
      · exact Or.inl hwho
      · exact Or.inr (Nat.lt_of_lt_of_le hless hacquired)
  · intro q hq
    cases q with
    | other => trivial
    | acquire j =>
      have hji : j ≠ i := fun h => hq (by rw [h])
      refine ⟨hothers j hji, hleft j hji, fun hj => hfiles fun hi => ?_⟩
      exact hji (hs.one j i hj hi)
    | release j =>
      refine ⟨by rw [hremoving], by rw [hseen], fun hj hnone => ?_⟩
      rw [hfiles fun hi => ?_]
      · exact hnone
      · rw [hs.apart i j hi] at hj
        cases hj
  · intro _ hhold
    rw [hfiles fun hi => ?_]
    · exact hhold
    · rw [(hs.foreign hhold).2.1 i] at hi
      cases hi

theorem guar_release (hs : Consistent s) (ht : Consistent t)
    (hphase : t.phase = s.phase) (hleft : t.left = s.left)
    (hremoving : ∀ j, j ≠ i → t.removing j = s.removing j)
    (hseen : ∀ j, j ≠ i → t.seen j = s.seen j)
    (hfiles : s.removing i = false → t.files = s.files)
    (hhold : t.files.hold = s.files.hold ∨ t.files.hold = none) :
    protocol.guar (.release i) s t := by
  refine ⟨ht, fun q hq => ?_, fun _ hforeign => ?_⟩
  · cases q with
    | other => trivial
    | acquire j =>
      refine ⟨by rw [hphase], by rw [hleft], fun hj => ?_⟩
      exact hfiles (hs.apart j i hj)
    | release j =>
      have hji : j ≠ i := fun h => hq (by rw [h])
      refine ⟨hremoving j hji, hseen j hji, fun _ hnone => ?_⟩
      rcases hhold with h | h
      · rw [h]; exact hnone
      · exact h
  · rw [hfiles ((hs.foreign hforeign).2.2 i)]
    exact hforeign

end Protocol

section Acquire

variable {s t : State} {i : ℕ}

/-- An acquire that failed left none of PortMaster's files. -/
def LeftNothing (i : ℕ) (_ : ℕ) (s : State) : Prop :=
  ∃ files, s.left i = some files ∧ files.hold ≠ some .portmaster ∧ files.mark = false

def Outside (i : ℕ) (s : State) : Prop := s.phase i = .out

def Writing (i : ℕ) (s : State) : Prop := s.phase i = .writing

/-- The mark is written. -/
def Marked (i : ℕ) (s : State) : Prop := s.phase i = .writing ∧ s.files.mark = true

def Waiting (i : ℕ) (s : State) : Prop := s.phase i = .waiting

/-- The hold is removed. -/
def Removed (i : ℕ) (s : State) : Prop := s.phase i = .writing ∧ s.files.hold = none

theorem stable_leftNothing (e : ℕ) : Stable protocol (.acquire i) (LeftNothing i e) := by
  rintro s t - ⟨files, hleft, hfiles⟩ hrely -
  exact ⟨files, hrely.2.1.trans hleft, hfiles⟩

theorem stable_outside : Stable protocol (.acquire i) (Outside i) :=
  fun _ _ _ hs hrely _ => hrely.1.trans hs

theorem stable_writing : Stable protocol (.acquire i) (Writing i) :=
  fun _ _ _ hs hrely _ => hrely.1.trans hs

theorem stable_waiting : Stable protocol (.acquire i) (Waiting i) :=
  fun _ _ _ hs hrely _ => hrely.1.trans hs

theorem stable_marked : Stable protocol (.acquire i) (Marked i) := by
  rintro s t - ⟨hphase, hmark⟩ hrely -
  exact ⟨hrely.1.trans hphase, by rw [hrely.2.2 hphase]; exact hmark⟩

theorem stable_removed : Stable protocol (.acquire i) (Removed i) := by
  rintro s t - ⟨hphase, hnone⟩ hrely -
  exact ⟨hrely.1.trans hphase, by rw [hrely.2.2 hphase]; exact hnone⟩

theorem Consistent.own (hs : Consistent s) (hphase : s.phase i ≠ .out) :
    s.files.hold ≠ some .foreign :=
  fun hhold => hphase ((hs.foreign hhold).2.1 i)

/-- At most the `.next` files and the count of failures are different. -/
structure Still (s t : State) : Prop where
  files : t.files = s.files
  phase : t.phase = s.phase
  left : t.left = s.left
  removing : t.removing = s.removing
  seen : t.seen = s.seen
  matched : t.matched = s.matched
  acquired : t.acquired = s.acquired

theorem Still.refl (s : State) : Still s s := ⟨rfl, rfl, rfl, rfl, rfl, rfl, rfl⟩

theorem Still.failed (h : Still s t) : Still s t.failed :=
  ⟨h.files, h.phase, h.left, h.removing, h.seen, h.matched, h.acquired⟩

theorem guar_still (hs : Consistent s) (h : Still s t) : protocol.guar (.acquire i) s t := by
  apply guar_acquire (s.phase i) hs (fun _ => h.files)
  · rw [h.phase, Function.update_eq_self]
  · exact fun j _ => by rw [h.left]
  · exact h.removing
  · exact h.seen
  · exact h.matched
  · exact Nat.le_of_eq h.acquired.symm
  · exact fun hw hnot => absurd hw hnot
  · rw [h.files]
    exact hs.marked
  · rw [h.files]
    exact fun hhold => ⟨rfl, (hs.foreign hhold).2.1 i⟩
  · rw [h.files]
    exact fun hmark => Or.inr (Or.inr ⟨hmark, rfl⟩)

theorem refuse_unmarked (hs : Consistent s) (hmark : s.files.mark = false) (h : Still s t)
    (e : ℕ) :
    protocol.guar (.acquire i) s (t.refuse i) ∧ LeftNothing i e (t.refuse i) := by
  have hhold : s.files.hold ≠ some .portmaster := by
    intro hhold
    rw [hs.marked hhold] at hmark
    cases hmark
  constructor
  · apply guar_acquire .out hs
    · exact fun _ => h.files
    · exact congrArg (fun f => Function.update f i Phase.out) h.phase
    · intro j hj
      simp only [State.refuse, Function.update_of_ne hj, h.left]
    · exact h.removing
    · exact h.seen
    · exact h.matched
    · exact Nat.le_of_eq h.acquired.symm
    · exact fun hw => by cases hw
    · intro hpm
      exact absurd (h.files ▸ hpm) hhold
    · exact fun _ => ⟨h.files, rfl⟩
    · intro hm
      have hsame : s.files.mark = true := h.files ▸ hm
      rw [hmark] at hsame
      cases hsame
  · exact ⟨s.files, by simp [State.refuse, h.files], hhold, hmark⟩

theorem failed_refuse (hs : Consistent s) (h : Still s t)
    (hcareful : Careful s (t.failed.refuse i)) (hfailures : t.failures = s.failures) (e : ℕ) :
    protocol.guar (.acquire i) s (t.failed.refuse i) ∧ LeftNothing i e (t.failed.refuse i) := by
  have hmark : s.files.mark = false := by
    apply hcareful.failures
    change t.failures + 1 ≠ s.failures
    omega
  exact refuse_unmarked hs hmark h.failed e

/-- The rule for a command under `set -e`. -/
theorem does_command {pre Q : State → Prop} {outcomes : State → List (Bool × State)}
    (hpre : Stable protocol (.acquire i) pre) (hQ : Stable protocol (.acquire i) Q)
    (h : ∀ s, Consistent s → pre s → ∀ o ∈ outcomes s, Careful s o.2 →
      protocol.guar (.acquire i) s o.2 ∧ if o.1 then Q o.2 else LeftNothing i 1 o.2) :
    Does (.acquire i) pre (command outcomes) (fun _ => Q) (LeftNothing i) := by
  apply Triple.bind (Q := fun ok s => if ok then Q s else LeftNothing i 1 s)
  · apply Triple.run hpre
    · intro ok
      cases ok with
      | true => simpa using hQ
      | false => simpa using stable_leftNothing (i := i) 1
    · exact h
  · intro ok
    cases ok with
    | true => exact Triple.pure _ (by simpa using hQ) fun _ _ hp => by simpa using hp
    | false =>
      exact Triple.raise _ (by simpa using stable_leftNothing (i := i) 1)
        fun _ _ hp => by simpa using hp

theorem does_attempt {pre : State → Prop} (hpre : Stable protocol (.acquire i) pre) :
    Does (.acquire i) pre (attempt i id) (fun _ => pre) (LeftNothing i) := by
  apply does_command hpre hpre
  intro s hs hp o ho hcareful
  simp only [List.mem_cons, List.not_mem_nil, or_false] at ho
  rcases ho with rfl | rfl
  · exact ⟨guar_refl hs, hp⟩
  · exact failed_refuse hs (.refl s) hcareful rfl 1

/-- A `.next` file is written. -/
theorem does_write {pre : State → Prop} {f : State → State}
    (hpre : Stable protocol (.acquire i) pre) (hf : ∀ s, Still s (f s))
    (hfailures : ∀ s, (f s).failures = s.failures) (hkeep : ∀ s, pre s → pre (f s)) :
    Does (.acquire i) pre (write i f) (fun _ => pre) (LeftNothing i) := by
  apply does_command hpre hpre
  intro s hs hp o ho hcareful
  simp only [List.mem_cons, List.not_mem_nil, or_false] at ho
  rcases ho with rfl | rfl | rfl
  · exact ⟨guar_still hs (hf s), hkeep s hp⟩
  · exact failed_refuse hs (.refl s) hcareful rfl 1
  · exact failed_refuse hs (hf s) hcareful (hfailures s) 1

/-- A `.next` file is moved to its place. -/
theorem does_move {pre Q : State → Prop} {next : State → Bool} {f : State → State}
    (hpre : Stable protocol (.acquire i) pre) (hQ : Stable protocol (.acquire i) Q)
    (h : ∀ s, Consistent s → pre s → protocol.guar (.acquire i) s (f s) ∧ Q (f s)) :
    Does (.acquire i) pre (move i next f) (fun _ => Q) (LeftNothing i) := by
  apply does_command hpre hQ
  intro s hs hp o ho hcareful
  split at ho
  · simp only [List.mem_cons, List.not_mem_nil, or_false] at ho
    rcases ho with rfl | rfl
    · exact h s hs hp
    · exact failed_refuse hs (.refl s) hcareful rfl 1
  · rw [List.mem_singleton] at ho
    subst ho
    exact failed_refuse hs (.refl s) hcareful rfl 1

theorem guar_enter (hs : Consistent s) (hcareful : Careful s (s.enter i .writing))
    (hforeign : s.files.hold ≠ some .foreign) :
    protocol.guar (.acquire i) s (s.enter i .writing) := by
  apply guar_acquire .writing hs
  · exact fun _ => rfl
  · exact rfl
  · exact fun _ _ => rfl
  · exact rfl
  · exact rfl
  · exact rfl
  · exact Nat.le_refl _
  · exact fun _ hnot => hcareful.acquires i (Function.update_self ..) hnot
  · exact hs.marked
  · exact fun h => absurd h hforeign
  · exact fun _ => Or.inl fun h => by cases h

theorem does_checkHold :
    Does (.acquire i) (Outside i) (checkHold i) (fun _ => Writing i) (LeftNothing i) := by
  have hentered : ∀ s : State, Writing i (s.enter i .writing) := fun s => Function.update_self ..
  apply Triple.bind (Q := fun held => if held then Outside i else Writing i)
  · apply Triple.run stable_outside
    · intro held
      cases held with
      | true => exact stable_outside
      | false => exact stable_writing
    · intro s hs hp o ho hcareful
      rw [List.mem_singleton] at ho
      subst ho
      dsimp only at hcareful ⊢
      cases hhold : s.files.hold with
      | some owner => exact ⟨guar_refl hs, hp⟩
      | none =>
        simp only [hhold, Option.isSome_none, Bool.false_eq_true, if_false] at hcareful ⊢
        refine ⟨guar_enter hs hcareful ?_, hentered s⟩
        rw [hhold]
        exact fun h => by cases h
  · intro held
    cases held with
    | false => exact Triple.pure _ stable_writing fun _ _ hp => hp
    | true =>
      apply Triple.bind (Q := fun owned => if owned then Writing i else LeftNothing i 75)
      · apply Triple.run stable_outside
        · intro owned
          cases owned with
          | true => exact stable_writing
          | false => exact stable_leftNothing 75
        · intro s hs hp o ho hcareful
          rw [List.mem_singleton] at ho
          subst ho
          dsimp only at hcareful ⊢
          cases hmark : s.files.mark with
          | true =>
            simp only [hmark, if_true] at hcareful ⊢
            refine ⟨guar_enter hs hcareful fun h => ?_, hentered s⟩
            rw [(hs.foreign h).1] at hmark
            cases hmark
          | false =>
            simp only [Bool.false_eq_true, if_false]
            exact refuse_unmarked hs hmark (.refl s) 75
      · intro owned
        cases owned with
        | true => exact Triple.pure _ stable_writing fun _ _ hp => hp
        | false => exact Triple.raise _ (stable_leftNothing 75) fun _ _ hp => hp

theorem does_gone {p : Process} {pre : State → Prop} {E : ℕ → State → Prop}
    (hpre : Stable protocol p pre) : Does p pre frontendGone (fun _ => pre) E := by
  apply Triple.look (fun t ht => guar_refl ht) hpre fun _ => hpre
  intro t _ ht o ho
  simp only [List.mem_cons, List.not_mem_nil, or_false] at ho
  rcases ho with rfl | rfl
  · exact ⟨rfl, ht⟩
  · exact ⟨rfl, ht⟩

theorem does_awaitFrontend (n : ℕ) :
    Does (.acquire i) (Waiting i) (awaitFrontend i n) (fun _ => Waiting i) (LeftNothing i) := by
  induction n with
  | zero => exact Triple.pure _ stable_waiting fun _ _ hp => hp
  | succ n ih =>
    apply Triple.bind (does_gone stable_waiting)
    intro gone
    apply Triple.ite
    · exact fun _ => Triple.pure _ stable_waiting fun _ _ hp => hp
    · intro _
      exact Triple.bind (does_attempt stable_waiting) fun _ => ih

theorem guar_mark (hs : Consistent s) (hp : Writing i s) :
    protocol.guar (.acquire i) s { s.setMark true with markNext := false } := by
  have hown : s.files.hold ≠ some .foreign := by
    apply hs.own (i := i)
    rw [hp]
    exact fun h => by cases h
  apply guar_acquire .writing hs
  · exact fun hnot => absurd hp hnot
  · rw [← hp, Function.update_eq_self]
    rfl
  · exact fun _ _ => rfl
  · exact rfl
  · exact rfl
  · exact rfl
  · exact Nat.le_refl _
  · exact fun _ hnot => absurd hp hnot
  · exact fun _ => rfl
  · exact fun h => absurd h hown
  · exact fun _ => Or.inl fun h => by cases h

theorem guar_hold (hs : Consistent s) (hp : Marked i s) :
    protocol.guar (.acquire i) s
      { (s.setHold (some .portmaster)).enter i .waiting with holdNext := false } := by
  apply guar_acquire .waiting hs
  · exact fun hnot => absurd hp.1 hnot
  · exact rfl
  · exact fun _ _ => rfl
  · exact rfl
  · exact rfl
  · exact rfl
  · exact Nat.le_refl _
  · exact fun h => by cases h
  · exact fun _ => hp.2
  · exact fun h => by cases h
  · exact fun _ => Or.inl fun h => by cases h

theorem does_giveUp :
    Does (.acquire i) (Writing i) (giveUp i) (fun _ _ => False) (LeftNothing i) := by
  apply Triple.bind (Q := fun _ => Removed i)
  · apply Triple.run stable_writing fun _ => stable_removed
    intro s hs hp o ho hcareful
    have hown : s.files.hold ≠ some .foreign := by
      apply hs.own (i := i)
      rw [hp]
      exact fun h => by cases h
    simp only [List.mem_cons, List.not_mem_nil, or_false] at ho
    rcases ho with rfl | rfl
    · refine ⟨?_, hp, rfl⟩
      apply guar_acquire .writing hs
      · exact fun hnot => absurd hp hnot
      · rw [← hp, Function.update_eq_self]
        rfl
      · exact fun _ _ => rfl
      · exact rfl
      · exact rfl
      · exact rfl
      · exact Nat.le_refl _
      · exact fun _ hnot => absurd hp hnot
      · exact fun h => by cases h
      · exact fun h => by cases h
      · exact fun _ => Or.inl fun h => by cases h
    · -- where the removal fails there is no mark, so there is no hold of PortMaster's either
      have hmark : s.files.mark = false := hcareful.failures (Nat.succ_ne_self _)
      refine ⟨guar_still hs (Still.refl s).failed, hp, ?_⟩
      change s.files.hold = none
      cases hhold : s.files.hold with
      | none => rfl
      | some owner =>
        cases owner with
        | foreign => exact absurd hhold hown
        | portmaster =>
          rw [hs.marked hhold] at hmark
          cases hmark
  · intro _
    apply Triple.bind (Q := fun _ => LeftNothing i 1)
    · apply Triple.run stable_removed fun _ => stable_leftNothing 1
      rintro s hs ⟨hp, hnone⟩ o ho hcareful
      simp only [List.mem_cons, List.not_mem_nil, or_false] at ho
      rcases ho with rfl | rfl
      · constructor
        · apply guar_acquire .out hs
          · exact fun hnot => absurd hp hnot
          · exact rfl
          · intro j hj
            exact Function.update_of_ne hj _ _
          · exact rfl
          · exact rfl
          · exact rfl
          · exact Nat.le_refl _
          · exact fun h => by cases h
          · intro h
            cases hnone.symm.trans h
          · intro h
            cases hnone.symm.trans h
          · exact fun h => by cases h
        · refine ⟨_, Function.update_self .., ?_, rfl⟩
          intro h
          cases hnone.symm.trans h
      · exact failed_refuse hs (.refl s) hcareful rfl 1
    · exact fun _ => Triple.raise _ (stable_leftNothing 1) fun _ _ hp => hp

theorem does_acquire :
    Does (.acquire i) (Outside i) (acquire i) (fun _ _ => True) (LeftNothing i) := by
  have hnext : ∀ (b : Bool) (s : State), Still s { s with markNext := b } :=
    fun _ _ => ⟨rfl, rfl, rfl, rfl, rfl, rfl, rfl⟩
  have hholdNext : ∀ (b : Bool) (s : State), Still s { s with holdNext := b } :=
    fun _ _ => ⟨rfl, rfl, rfl, rfl, rfl, rfl, rfl⟩
  apply Triple.bind (does_attempt stable_outside)
  intro _
  apply Triple.bind does_checkHold
  intro _
  apply Triple.bind (does_write stable_writing (hnext true) (fun _ => rfl) fun _ hp => hp)
  intro _
  apply Triple.bind (does_move stable_writing stable_marked
    fun s hs hp => ⟨guar_mark hs hp, hp, rfl⟩)
  intro _
  apply Triple.bind (does_write stable_marked (hholdNext true) (fun _ => rfl) fun _ hp => hp)
  intro _
  apply Triple.bind (does_move stable_marked stable_waiting
    fun s hs hp => ⟨guar_hold hs hp, Function.update_self ..⟩)
  intro _
  apply Triple.bind (does_gone stable_waiting)
  intro _
  apply Triple.bind (does_awaitFrontend 10)
  intro _
  apply Triple.bind (does_gone stable_waiting)
  intro _
  apply Triple.bind (Q := fun gone => if gone then fun _ => True else Writing i)
  · apply Triple.run stable_waiting
    · intro gone
      cases gone with
      | true => exact fun _ _ _ _ _ _ => trivial
      | false => exact stable_writing
    · intro s hs hp o ho hcareful
      have hown : s.files.hold ≠ some .foreign := by
        apply hs.own (i := i)
        rw [hp]
        exact fun h => by cases h
      simp only [List.mem_cons, List.not_mem_nil, or_false] at ho
      rcases ho with rfl | rfl
      · refine ⟨?_, trivial⟩
        apply guar_acquire .out hs
        · exact fun _ => rfl
        · exact rfl
        · exact fun _ _ => rfl
        · exact rfl
        · exact rfl
        · exact rfl
        · exact Nat.le_succ _
        · exact fun h => by cases h
        · exact hs.marked
        · exact fun h => absurd h hown
        · exact fun _ => Or.inr (Or.inl (Nat.lt_succ_self _))
      · exact ⟨guar_enter hs hcareful hown, Function.update_self ..⟩
  · intro gone
    cases gone with
    | true => exact Triple.pure _ (fun _ _ _ _ _ _ => trivial) fun _ _ _ => trivial
    | false =>
      exact Triple.conseq does_giveUp (fun _ _ hp => hp) (fun _ _ _ h => h.elim) fun _ _ _ h => h

end Acquire

section Release

variable {s t : State} {i : ℕ} {E : ℕ → State → Prop}

def Idle (i : ℕ) (s : State) : Prop := s.removing i = false

def Removing (i : ℕ) (s : State) : Prop := s.removing i = true

/-- The hold is gone. -/
def Cleared (i : ℕ) (s : State) : Prop := s.removing i = true ∧ s.files.hold = none

theorem stable_true {p : Process} : Stable protocol p fun _ => True :=
  fun _ _ _ _ _ _ => trivial

theorem stable_idle : Stable protocol (.release i) (Idle i) :=
  fun _ _ _ hs hrely _ => hrely.1.trans hs

theorem stable_removing : Stable protocol (.release i) (Removing i) :=
  fun _ _ _ hs hrely _ => hrely.1.trans hs

theorem stable_cleared : Stable protocol (.release i) (Cleared i) :=
  fun _ _ _ hs hrely _ => ⟨hrely.1.trans hs.1, hrely.2.2 hs.1 hs.2⟩

theorem guar_begin (hs : Consistent s) (hcareful : Careful s (s.begin i))
    (hp : Idle i s) (hmark : s.files.mark = true) :
    protocol.guar (.release i) s (s.begin i) := by
  have hnobody : ∀ j, s.phase j ≠ .writing :=
    hcareful.removals i (Function.update_self ..) hp
  apply guar_release hs
  · refine ⟨hs.marked, ?_, hs.one, ?_, ?_, hs.matched, hs.covered⟩
    · intro hhold
      have hno := (hs.foreign hhold).1
      rw [hmark] at hno
      cases hno
    · exact fun j _ hj => absurd hj (hnobody j)
    · intro j
      by_cases hj : j = i
      · subst hj
        exact Nat.le_of_eq (Function.update_self ..)
      · exact Nat.le_trans (Nat.le_of_eq (Function.update_of_ne hj _ _)) (hs.seen j)
  · exact rfl
  · exact rfl
  · exact fun j hj => Function.update_of_ne hj _ _
  · exact fun j hj => Function.update_of_ne hj _ _
  · exact fun _ => rfl
  · exact Or.inl rfl

theorem guar_pass (hs : Consistent s) (hmark : s.files.mark = false) :
    protocol.guar (.release i) s (s.pass i) := by
  apply guar_release hs
  · refine ⟨hs.marked, hs.foreign, hs.one, hs.apart, ?_, ?_, ?_⟩
    · intro j
      by_cases hj : j = i
      · subst hj
        exact Nat.le_of_eq (Function.update_self ..)
      · exact Nat.le_trans (Nat.le_of_eq (Function.update_of_ne hj _ _)) (hs.seen j)
    · exact Nat.max_le.mpr ⟨hs.matched, Nat.le_refl _⟩
    · intro h
      rw [show (s.pass i).files.mark = s.files.mark from rfl, hmark] at h
      cases h
  · exact rfl
  · exact rfl
  · exact fun _ _ => rfl
  · exact fun j hj => Function.update_of_ne hj _ _
  · exact fun _ => rfl
  · exact Or.inl rfl

theorem guar_clear (hs : Consistent s) (hp : Removing i s) :
    protocol.guar (.release i) s (s.setHold none) := by
  apply guar_release hs
  · exact ⟨(fun h => by cases h), (fun h => by cases h), hs.one, hs.apart, hs.seen, hs.matched,
      hs.covered⟩
  · exact rfl
  · exact rfl
  · exact fun _ _ => rfl
  · exact fun _ _ => rfl
  · intro h
    cases h.symm.trans hp
  · exact Or.inr rfl

theorem guar_failed (hs : Consistent s) : protocol.guar (.release i) s s.failed := by
  apply guar_release hs
  · exact ⟨hs.marked, hs.foreign, hs.one, hs.apart, hs.seen, hs.matched, hs.covered⟩
  · exact rfl
  · exact rfl
  · exact fun _ _ => rfl
  · exact fun _ _ => rfl
  · exact fun _ => rfl
  · exact Or.inl rfl

theorem guar_matchedBy (hs : Consistent s) (hp : Cleared i s)
    (ht : t.files = { s.files with mark := false })
    (hphase : t.phase = s.phase) (hleft : t.left = s.left) (hremoving : t.removing = s.removing)
    (hseen : t.seen = s.seen) (hmatched : t.matched = s.matched)
    (hacquired : t.acquired = s.acquired) :
    protocol.guar (.release i) s (t.matchedBy i) := by
  have hhold : (t.matchedBy i).files.hold = none := by
    change t.files.hold = none
    rw [ht]
    exact hp.2
  apply guar_release hs
  · refine ⟨?_, ?_, ?_, ?_, ?_, ?_, ?_⟩
    · rw [hhold]
      exact fun h => by cases h
    · rw [hhold]
      exact fun h => by cases h
    · change ∀ j k, t.phase j = .writing → t.phase k = .writing → j = k
      rw [hphase]
      exact hs.one
    · intro j k hj
      change t.phase j = .writing at hj
      change Function.update t.removing i false k = false
      rw [hphase] at hj
      rw [hremoving]
      by_cases hk : k = i
      · rw [hk, Function.update_self]
      · rw [Function.update_of_ne hk]
        exact hs.apart j k hj
    · change ∀ j, t.seen j ≤ t.acquired
      rw [hseen, hacquired]
      exact hs.seen
    · change max t.matched (t.seen i) ≤ t.acquired
      rw [hseen, hmatched, hacquired]
      exact Nat.max_le.mpr ⟨hs.matched, hs.seen i⟩
    · intro h
      change t.files.mark = true at h
      rw [ht] at h
      cases h
  · exact hphase
  · exact hleft
  · intro j hj
    rw [← hremoving]
    exact Function.update_of_ne hj _ _
  · exact fun j _ => congrFun hseen j
  · intro h
    cases h.symm.trans hp.1
  · exact Or.inr hhold

theorem does_removeFiles :
    Does (.release i) (Removing i) (removeFiles i) (fun _ _ => True) fun _ _ => True := by
  apply Triple.bind (Q := fun _ => Cleared i)
  · apply Triple.run stable_removing fun _ => stable_cleared
    intro s hs hp o ho hcareful
    simp only [List.mem_cons, List.not_mem_nil, or_false] at ho
    rcases ho with rfl | rfl
    · exact ⟨guar_clear hs hp, hp, rfl⟩
    · have hmark : s.files.mark = false := hcareful.failures (Nat.succ_ne_self _)
      refine ⟨guar_failed hs, hp, ?_⟩
      change s.files.hold = none
      cases hhold : s.files.hold with
      | none => rfl
      | some owner =>
        cases owner with
        | foreign =>
          have hidle := (hs.foreign hhold).2.2 i
          cases hidle.symm.trans hp
        | portmaster =>
          rw [hs.marked hhold] at hmark
          cases hmark
  · intro holdGone
    apply Triple.bind (Q := fun _ _ => True)
    · apply Triple.run stable_cleared fun _ => stable_true
      intro s hs hp o ho hcareful
      simp only [List.mem_cons, List.not_mem_nil, or_false] at ho
      rcases ho with rfl | rfl
      · exact ⟨guar_matchedBy hs hp rfl rfl rfl rfl rfl rfl rfl, trivial⟩
      · have hmark : s.files.mark = false := hcareful.failures (Nat.succ_ne_self _)
        have hfiles : s.failed.files = { s.files with mark := false } := by
          rw [← hmark]
          rfl
        exact ⟨guar_matchedBy hs hp hfiles rfl rfl rfl rfl rfl rfl, trivial⟩
    · intro markGone
      apply Triple.ite
      · exact fun _ => Triple.pure _ stable_true fun _ _ _ => trivial
      · exact fun _ => Triple.raise _ stable_true fun _ _ _ => trivial

theorem does_look {f : State → List (Bool × State)} (hf : ∀ s, ∀ o ∈ f s, o.2 = s) :
    Does (.release i) (fun _ => True) (Script.run f) (fun _ _ => True) E :=
  Triple.look (fun _ ht => guar_refl ht) stable_true (fun _ => stable_true)
    fun s _ _ o ho => ⟨hf s o ho, trivial⟩

theorem does_choose :
    Does (.release i) (fun _ => True) (Script.run fun s => [(true, s), (false, s)])
      (fun _ _ => True) E := by
  apply does_look
  intro s o ho
  simp only [List.mem_cons, List.not_mem_nil, or_false] at ho
  rcases ho with rfl | rfl
  · rfl
  · rfl

theorem does_awaitLauncher (n : ℕ) :
    Does (.release i) (fun _ => True) (awaitLauncher n) (fun _ _ => True) fun _ _ => True := by
  have hpure : ∀ b, Does (.release i) (fun _ => True) (pure b : Sh Bool) (fun _ _ => True)
      fun _ _ => True := fun b => Triple.pure _ stable_true fun _ _ _ => trivial
  have hraise : Does (.release i) (fun _ => True) (.raise 1 : Sh Bool) (fun _ _ => True)
      fun _ _ => True := Triple.raise _ stable_true fun _ _ _ => trivial
  induction n with
  | zero => exact hpure true
  | succ n ih =>
    apply Triple.bind (does_gone stable_true)
    intro gone
    apply Triple.ite
    · intro _
      apply Triple.bind does_choose
      intro recovery
      apply Triple.ite (fun _ => hpure true)
      intro _
      apply Triple.bind does_choose
      intro slept
      exact Triple.ite (fun _ => ih) fun _ => hraise
    · exact fun _ => hpure false

theorem does_restartFrontend :
    Does (.release i) (fun _ => True) restartFrontend (fun _ _ => True) fun _ _ => True := by
  have hpure : Does (.release i) (fun _ => True) (pure () : Sh Unit) (fun _ _ => True)
      fun _ _ => True := Triple.pure _ stable_true fun _ _ _ => trivial
  apply Triple.bind (does_awaitLauncher 5)
  intro longGone
  apply Triple.ite
  · intro _
    apply Triple.bind does_choose
    intro started
    apply Triple.ite (fun _ => hpure)
    exact fun _ => Triple.raise _ stable_true fun _ _ _ => trivial
  · exact fun _ => hpure

theorem does_release :
    Does (.release i) (Idle i) (release i) (fun _ _ => True) fun _ _ => True := by
  apply Triple.bind (Q := fun owned => if owned then Removing i else fun _ => True)
  · apply Triple.run stable_idle
    · intro owned
      cases owned with
      | true => exact stable_removing
      | false => exact stable_true
    · intro s hs hp o ho hcareful
      rw [List.mem_singleton] at ho
      subst ho
      dsimp only at hcareful ⊢
      cases hmark : s.files.mark with
      | true =>
        simp only [hmark, if_true] at hcareful ⊢
        exact ⟨guar_begin hs hcareful hp hmark, Function.update_self ..⟩
      | false =>
        simp only [Bool.false_eq_true, if_false]
        exact ⟨guar_pass hs hmark, trivial⟩
  · intro owned
    cases owned with
    | true => exact Triple.bind does_removeFiles fun _ => does_restartFrontend
    | false => exact Triple.pure _ stable_true fun _ _ _ => trivial

end Release

section Sessions

variable {foreign markNext holdNext : Bool} {deeds : List Deed} {m n : ℕ} {is : List Process}
  {p q : Session} {s t : State}

theorem guar_other {hold : Option Owner} (hs : Consistent s)
    (hmarked : hold ≠ some .portmaster)
    (hforeign : hold = some .foreign →
      s.files.mark = false ∧ (∀ i, s.phase i = .out) ∧ ∀ i, s.removing i = false)
    (hnone : hold = none → s.files.hold = some .foreign) :
    protocol.guar .other s (s.setHold hold) := by
  have hnobody : (∀ i, s.phase i = .out) ∧ ∀ i, s.removing i = false := by
    cases hhold : hold with
    | none => exact (hs.foreign (hnone hhold)).2
    | some owner =>
      cases owner with
      | portmaster => exact absurd hhold hmarked
      | foreign => exact (hforeign hhold).2
  refine ⟨⟨fun h => absurd h hmarked, hforeign, hs.one, hs.apart, hs.seen, hs.matched,
    hs.covered⟩, fun q _ => ?_, fun h => absurd rfl h⟩
  cases q with
  | other => trivial
  | acquire j =>
    refine ⟨rfl, rfl, fun hj => ?_⟩
    cases (hnobody.1 j).symm.trans hj
  | release j =>
    refine ⟨rfl, rfl, fun hj => ?_⟩
    cases (hnobody.2 j).symm.trans hj

theorem does_otherTool (deeds : List Deed) :
    Does .other (fun _ => True) (otherTool deeds) (fun _ _ => True) fun _ _ => True := by
  induction deeds with
  | nil => exact Triple.pure _ stable_true fun _ _ _ => trivial
  | cons deed deeds ih =>
    cases deed with
    | create =>
      apply Triple.bind (Q := fun _ _ => True)
      · apply Triple.run stable_true fun _ => stable_true
        intro s hs _ o ho hcareful
        rw [List.mem_singleton] at ho
        subst ho
        refine ⟨?_, trivial⟩
        apply guar_other hs
        · exact fun h => by cases h
        · intro hset
          by_cases hhold : s.files.hold = some .foreign
          · exact hs.foreign hhold
          · exact hcareful.holds hset hhold
        · exact fun h => by cases h
      · exact fun _ => ih
    | remove =>
      apply Triple.bind (Q := fun _ _ => True)
      · apply Triple.run stable_true fun _ => stable_true
        intro s hs _ o ho hcareful
        rw [List.mem_singleton] at ho
        subst ho
        refine ⟨?_, trivial⟩
        dsimp only
        split
        · rename_i hhold
          apply guar_other hs
          · exact fun h => by cases h
          · exact fun h => by cases h
          · exact fun _ => hhold
        · exact guar_refl hs
      · exact fun _ => ih

def session (foreign markNext holdNext : Bool) (deeds : List Deed) (m n : ℕ) : Session :=
  ⟨.start foreign markNext holdNext, programs deeds m n⟩

theorem consistent_start : Consistent (.start foreign markNext holdNext) where
  marked h := by cases foreign <;> cases h
  foreign _ := ⟨rfl, fun _ => rfl, fun _ => rfl⟩
  one i _ hi := by cases hi
  apart i _ hi := by cases hi
  seen _ := Nat.le_refl _
  matched := Nat.le_refl _
  covered h := by cases h

/-- What an acquire that has failed left. -/
def Ends : Process → ℕ → State → Prop
  | .acquire i => LeftNothing i
  | _ => fun _ _ => True

theorem session_correct :
    Pool.Correct protocol (fun _ => Careful) (fun _ _ _ => True) Ends
      (session foreign markNext holdNext deeds m n) := by
  have hs : protocol.inv (.start foreign markNext holdNext) := consistent_start
  refine ⟨hs, fun q => ?_⟩
  cases q with
  | acquire i =>
    dsimp only [session, programs]
    split
    · exact does_acquire _ hs rfl
    · exact fun _ _ _ => trivial
  | release i =>
    dsimp only [session, programs]
    split
    · exact does_release _ hs rfl
    · exact fun _ _ _ => trivial
  | other => exact does_otherTool deeds _ hs trivial

/-- The hold is owned: a step in `C` of a run of `plumos-portmaster-frontend-control` keeps a
foreign hold, a failed acquire left neither file, and neither is there when a release has come
after every acquire that succeeded. -/
structure Owned (C : State → State → Prop) (p : Session) : Prop where
  kept : ∀ i q, i ≠ .other → Pool.StepIn (fun _ => C) p i q →
    p.shared.files.hold = some .foreign → q.shared.files.hold = some .foreign
  failed : ∀ i e, p.thread (.acquire i) = .raise e → LeftNothing i e p.shared
  released : (∀ i, p.shared.phase i = .out) → p.shared.acquired ≤ p.shared.matched →
    p.shared.files.hold ≠ some .portmaster ∧ p.shared.files.mark = false

/-- Where every step is careful, the hold is owned in every state of every interleaving. -/
theorem hold_owned
    (hrun : Run (Pool.StepIn fun _ => Careful) (session foreign markNext holdNext deeds m n) is p) :
    Owned Careful p := by
  have hp := session_correct.run hrun
  have hinv : Consistent p.shared := hp.inv
  constructor
  · exact fun i q hi hstep => (hp.step hstep).1.2.2 hi
  · exact fun i e hthread => hp.raised hthread
  · intro hout hmatched
    have hmark : p.shared.files.mark = false := by
      cases hmark : p.shared.files.mark with
      | false => rfl
      | true =>
        rcases hinv.covered hmark with ⟨i, hi⟩ | hless
        · exact absurd (hout i) hi
        · omega
    refine ⟨fun hhold => ?_, hmark⟩
    rw [hinv.marked hhold] at hmark
    cases hmark

theorem Careful.quiet (hphase : ∀ i, t.phase i = s.phase i ∨ t.phase i = .out)
    (hremoving : t.removing = s.removing) (hfailures : t.failures = s.failures)
    (hhold : t.files.hold = s.files.hold) : Careful s t where
  acquires i hi hnot := by
    rcases hphase i with h | h
    · exact absurd (h.symm.trans hi) hnot
    · cases h.symm.trans hi
  removals i hi hnot := by
    rw [hremoving, hnot] at hi
    cases hi
  failures h := absurd hfailures h
  holds h hnot := absurd (hhold.symm.trans h) hnot

/-- The other tool sets its hold, then an acquire is refused. -/
def refused : List (Process × ℕ) :=
  [(.other, 0), (.acquire 0, 0), (.acquire 0, 0), (.acquire 0, 0)]

theorem hold_owned_sample :
    Owned Careful (Pool.play refused (session false false false [.create] 1 0)) := by
  let created := Pool.play [(.other, 0)] (session false false false [.create] 1 0)
  let made := Pool.play [(.acquire 0, 0)] created
  let held := Pool.play [(.acquire 0, 0)] made
  have hcreated : Pool.StepIn (fun _ => Careful) (session false false false [.create] 1 0) .other
      created := by
    refine ⟨Pool.step_play rfl rfl, fun i hi => ?_, fun i hi => ?_, fun h => ?_, fun _ _ => ?_⟩
    · cases hi
    · cases hi
    · exact absurd rfl h
    · exact ⟨rfl, fun _ => rfl, fun _ => rfl⟩
  have hmade : Pool.StepIn (fun _ => Careful) created (.acquire 0) made :=
    ⟨Pool.step_play rfl rfl, .quiet (fun _ => Or.inl rfl) rfl rfl rfl⟩
  have hheld : Pool.StepIn (fun _ => Careful) made (.acquire 0) held :=
    ⟨Pool.step_play rfl rfl, .quiet (fun _ => Or.inl rfl) rfl rfl rfl⟩
  have hrefused : Pool.StepIn (fun _ => Careful) held (.acquire 0)
      (Pool.play [(.acquire 0, 0)] held) := by
    refine ⟨Pool.step_play rfl rfl, .quiet (fun i => Or.inr ?_) rfl rfl rfl⟩
    cases i with
    | zero => rfl
    | succ i => rfl
  exact hold_owned ((((Run.single hcreated).concat hmade).concat hheld).concat hrefused)

/-- An acquire fails between its mark and its hold, the other tool sets its hold, and a release
finds the mark. -/
def markLeft : List (Process × ℕ) :=
  [(.acquire 0, 0), (.acquire 0, 0), (.acquire 0, 0), (.acquire 0, 0), (.acquire 0, 1),
    (.other, 0), (.release 0, 0)]

theorem foreign_hold_removed : ∃ is p q,
    Run Pool.Step (session false false false [.create] 1 1) is p ∧
    p.thread (.acquire 0) = .raise 1 ∧ p.shared.left 0 = some ⟨none, true⟩ ∧
    p.Step (.release 0) q ∧ p.shared.files.hold = some .foreign ∧
    q.shared.files.hold = none := by
  obtain ⟨is, hrun⟩ := Pool.run_play markLeft (session false false false [.create] 1 1)
  exact ⟨is, _, _, hrun, rfl, rfl, Pool.step_play (c := 0) rfl rfl, rfl, rfl⟩

end Sessions

end PlumosBubble.FrontendControl
