import PlumosBubble.Network.Services

/-! The recorded preferences are the user's: where every copy that is renamed is fresh, the
runs of `start-enabled` change none of them, whatever the interleaving. -/

namespace PlumosBubble.Network

open Scripts Transition
open Update (Text)

section Lines

theorem eq_of_keyStart {k k' : Service} {line : Text} (h : keyStart k <+: line)
    (h' : keyStart k' <+: line) : k = k' := by
  have hprefix := List.prefix_or_prefix_of_prefix h h'
  revert hprefix
  cases k <;> cases k' <;> decide

theorem lineValue_enabledLine (k k' : Service) (on : Bool) :
    lineValue k' (enabledLine k on) =
      if k' = k then some (if on then ['1'] else ['0']) else none := by
  unfold lineValue enabledLine
  by_cases hk : k' = k
  · subst hk
    rw [if_pos (List.prefix_append _ _), if_pos rfl, List.drop_left]
  · rw [if_neg hk, if_neg]
    intro h
    exact hk (eq_of_keyStart h (List.prefix_append _ _))

theorem filterMap_otherLines {k k' : Service} (hk : k' ≠ k) (lines : List Text) :
    (otherLines k lines).filterMap (lineValue k') = lines.filterMap (lineValue k') := by
  unfold otherLines
  rw [List.filterMap_filter]
  apply List.filterMap_congr
  intro line _
  by_cases h : keyStart k <+: line
  · have hnot : ¬ keyStart k' <+: line := fun h' => hk (eq_of_keyStart h' h)
    simp [lineValue, hnot]
  · simp [h]

theorem enabled_append (lines : List Text) (k k' : Service) (on : Bool) :
    enabled k' (some (lines ++ [enabledLine k on])) =
      if k' = k then on else enabled k' (some lines) := by
  unfold enabled
  simp only [Option.getD_some, List.filterMap_append, List.filterMap_cons, List.filterMap_nil,
    lineValue_enabledLine]
  by_cases hk : k' = k
  · simp only [hk, if_true, List.getLast?_append, List.getLast?_singleton, Option.some_or]
    cases k <;> cases on <;> decide
  · simp only [hk, if_false, List.append_nil]

theorem enabled_otherLines {k k' : Service} (hk : k' ≠ k) (conf : Conf) :
    enabled k' (some (otherLines k (conf.getD []))) = enabled k' conf := by
  unfold enabled
  rw [Option.getD_some, filterMap_otherLines hk]

end Lines

section Alone

/-- What the user has recorded. -/
abbrev Preferences := Service → Bool

def preferences (conf : Conf) : Preferences := fun service => enabled service conf

/-- What a command records. -/
def recorded (sftpInstalled : Bool) (V : Preferences) : Action × Service → Preferences
  | (.start, .sftp) =>
    if sftpInstalled then Function.update (Function.update V .sftp true) .ssh true
    else Function.update V .sftp true
  | (.stop, .ssh) => Function.update (Function.update V .ssh false) .sftp false
  | (_, .adb) => V
  | (action, service) => Function.update V service (action = .start)

variable {V : Preferences} {s : State} {p : Process} {installed : Bool}

theorem preferences_set (conf : Conf) (k : Service) (on : Bool) :
    preferences (some (otherLines k (conf.getD []) ++ [enabledLine k on])) =
      Function.update (preferences conf) k on := by
  funext k'
  unfold preferences
  rw [enabled_append]
  by_cases hk : k' = k
  · subst hk
    rw [if_pos rfl, Function.update_self]
  · rw [if_neg hk, Function.update_of_ne hk, enabled_otherLines hk]

/-- Every end of a script that nobody interrupts. -/
abbrev alone (m : Sh Bool) (Q : State → Prop) (s : State) : Prop :=
  wp (fun _ => True) (fun _ => Q) (fun _ _ => False) m s

theorem wp_setEnabled {k : Service} {on : Bool} {Q : Unit → State → Prop}
    (hs : preferences s.conf = V)
    (hQ : ∀ t, preferences t.conf = Function.update V k on → Q () t) :
    wp (fun _ => True) Q (fun _ _ => False) (setEnabled p k on) s := by
  unfold setEnabled
  rw [wp_bind, wp_read]
  refine ⟨trivial, ?_⟩
  simp only [wp_bind, wp_run, List.mem_singleton, forall_eq, ne_eq, List.cons_ne_nil,
    not_false_eq_true, true_and]
  apply hQ
  have hnext : (if s.conf.isSome = true then otherLines k (s.conf.getD []) else []) =
      otherLines k (s.conf.getD []) := by
    cases s.conf with
    | none => rfl
    | some lines => rfl
  simp only [State.rename, State.append, State.copy, Function.update_self, hnext]
  rw [preferences_set, hs]

theorem wp_daemon {Q : Bool → State → Prop} (h : ∀ ok, Q ok s) :
    wp (fun _ => True) Q (fun _ _ => False) daemon s := by
  unfold daemon
  rw [wp_run]
  refine ⟨by simp, fun o ho => ⟨trivial, ?_⟩⟩
  simp only [List.mem_cons, List.not_mem_nil, or_false] at ho
  rcases ho with rfl | rfl
  · exact h true
  · exact h false

theorem wp_startOnly {k : Service} {Q : Bool → State → Prop} (hs : preferences s.conf = V)
    (hQ : ∀ ok t, preferences t.conf = Function.update V k true → Q ok t) :
    wp (fun _ => True) Q (fun _ _ => False) (startOnly p k) s := by
  unfold startOnly
  rw [wp_bind]
  exact wp_setEnabled hs fun t ht => wp_daemon fun ok => hQ ok t ht

theorem wp_stopOnly {k : Service} (hs : preferences s.conf = V) :
    alone (stopOnly p k) (fun t => preferences t.conf = Function.update V k false) s := by
  unfold alone stopOnly
  rw [wp_bind]
  exact wp_setEnabled hs fun t ht => ht

theorem wp_runOne (hs : preferences s.conf = V) (action : Action) (service : Service) :
    alone (runOne p installed action service)
      (fun t => preferences t.conf = recorded installed V (action, service)) s := by
  cases action with
  | start =>
    cases service with
    | ssh => exact wp_startOnly hs fun _ _ h => h
    | ftp => exact wp_startOnly hs fun _ _ h => h
    | samba => exact wp_startOnly hs fun _ _ h => h
    | adb => exact hs
    | sftp =>
      unfold alone runOne startSftp
      rw [wp_bind]
      apply wp_setEnabled hs
      intro t ht
      cases installed with
      | false => exact ht
      | true =>
        simp only [if_true]
        rw [wp_bind]
        apply wp_startOnly ht
        intro ok u hu
        cases ok with
        | true => exact (wp_read _).mpr ⟨trivial, hu⟩
        | false => exact hu
  | stop =>
    cases service with
    | ftp => exact wp_stopOnly hs
    | sftp => exact wp_stopOnly hs
    | samba => exact wp_stopOnly hs
    | adb => exact hs
    | ssh =>
      unfold alone runOne stopSsh
      rw [wp_bind]
      apply wp_setEnabled hs
      intro t ht
      rw [wp_bind]
      exact wp_setEnabled ht fun u hu => hu

theorem wp_userCommands (commands : List (Action × Service)) (hs : preferences s.conf = V) :
    alone (userCommands installed commands)
      (fun t => preferences t.conf = commands.foldl (recorded installed) V) s := by
  induction commands generalizing s V with
  | nil => exact hs
  | cons command commands ih =>
    unfold alone userCommands
    rw [wp_bind]
    exact wp_mono (wp_runOne hs _ _) (fun _ h => h) (fun _ t ht => ih ht) fun _ _ h => h

end Alone

section Protocol

/-- The copy of a process and what it is for. -/
def SameCopy (p : Process) (s t : State) : Prop :=
  t.next p = s.next p ∧ t.editing p = s.editing p

theorem SameCopy.trans {p : Process} {s t u : State} (h : SameCopy p s t) (h' : SameCopy p t u) :
    SameCopy p s u :=
  ⟨h'.1.trans h.1, h'.2.trans h.2⟩

/-- Everyone keeps to the own copy, and the preferences change by the user's commands only. -/
def protocol : Protocol Process State where
  inv _ := True
  rely p s t := SameCopy p s t ∧ (p = .user → preferences t.conf = preferences s.conf)
  guar p s t := (∀ q, q ≠ p → SameCopy q s t) ∧
    (p ≠ .user → preferences t.conf = preferences s.conf)
  rely_refl _ _ := ⟨⟨rfl, rfl⟩, fun _ => rfl⟩
  rely_trans h h' := ⟨h.1.trans h'.1, fun hp => (h'.2 hp).trans (h.2 hp)⟩
  keeps _ _ := trivial
  others {_ q _ _} hpq _ h :=
    ⟨h.1 q (Ne.symm hpq), fun hq => h.2 fun hp => hpq (hp.trans hq.symm)⟩

theorem guar_refl (p : Process) (s : State) : protocol.guar p s s :=
  ⟨fun _ _ => ⟨rfl, rfl⟩, fun _ => rfl⟩

/-- The copy that the process would rename is fresh: for every service but the one that it sets
it records what the file records, and a run of `start-enabled` sets only what is enabled. -/
def Fresh (p : Process) (s : State) : Prop :=
  (∀ service, service ≠ s.editing p →
    enabled service (some (s.next p)) = enabled service s.conf) ∧
  (p ≠ .user → enabled (s.editing p) s.conf = true)

/-- `services.conf` is not replaced, or by a fresh copy. -/
def FreshStep (p : Process) (s t : State) : Prop := t.conf = s.conf ∨ Fresh p s

instance (p : Process) (s t : State) : Decidable (FreshStep p s t) :=
  inferInstanceAs (Decidable (_ = _ ∨ (∀ _, _ → _ = _) ∧ (_ → _ = _)))

abbrev Does {α : Type} (p : Process) (pre : State → Prop) (m : Script State Empty α)
    (Q : α → State → Prop) : Prop :=
  Triple protocol (FreshStep p) p pre m Q fun _ _ => True

/-- What is true between the commands of a process: of its copy, and for the user of the
preferences. -/
structure Lasting (p : Process) (pre : State → Prop) : Prop where
  stays : ∀ s t, pre s → SameCopy p s t →
    (p = .user → preferences t.conf = preferences s.conf) → pre t

theorem Lasting.stable {p : Process} {pre : State → Prop} (h : Lasting p pre) :
    Stable protocol p pre :=
  fun s t _ hs hrely _ => h.stays s t hs hrely.1 hrely.2

variable {p : Process} {α : Type} {pre : State → Prop}

theorem does_read {f : State → α} {Q : α → State → Prop} (hpre : Lasting p pre)
    (hQ : ∀ a, Lasting p (Q a)) (h : ∀ t, pre t → Q (f t) t) :
    Does p pre (Script.read f) Q := by
  apply Triple.read (fun t _ => guar_refl p t) hpre.stable
    fun a => (hQ a).stable
  exact fun t _ => h t

/-- A command that leaves `services.conf` alone. -/
theorem does_copy {f : State → State} {Q : State → Prop} (hpre : Lasting p pre)
    (hQ : Lasting p Q) (hconf : ∀ s, (f s).conf = s.conf)
    (hothers : ∀ s q, q ≠ p → SameCopy q s (f s)) (h : ∀ t, pre t → Q (f t)) :
    Does p pre (Script.run fun s => [((), f s)]) fun _ => Q := by
  apply Triple.run hpre.stable fun _ => hQ.stable
  intro t _ ht o ho _
  rw [List.mem_singleton.mp ho]
  refine ⟨⟨hothers t, fun _ => ?_⟩, h t ht⟩
  rw [hconf]

theorem does_daemon (hpre : Lasting p pre) : Does p pre daemon fun _ => pre := by
  apply Triple.look (fun t _ => guar_refl p t) hpre.stable
    fun _ => hpre.stable
  intro t _ ht o ho
  simp only [List.mem_cons, List.not_mem_nil, or_false] at ho
  rcases ho with rfl | rfl
  · exact ⟨rfl, ht⟩
  · exact ⟨rfl, ht⟩

end Protocol

section Programs

variable {V : Preferences} {p : Process} {installed : Bool}

/-- The preferences that the user's commands have left; nobody else counts on any. -/
def Holds (p : Process) (V : Preferences) (s : State) : Prop :=
  p = .user → preferences s.conf = V

theorem lasting_holds : Lasting p (Holds p V) :=
  ⟨fun _ _ hs _ hprefs hp => (hprefs hp).trans (hs hp)⟩

/-- The copy is about this service. -/
def Edits (p : Process) (V : Preferences) (k : Service) (s : State) : Prop :=
  Holds p V s ∧ s.editing p = k

theorem lasting_edits {k : Service} : Lasting p (Edits p V k) :=
  ⟨fun s t hs hsame hprefs =>
    ⟨lasting_holds.stays s t hs.1 hsame hprefs, hsame.2.trans hs.2⟩⟩

/-- The copy is ready to be renamed. -/
def Ready (p : Process) (V : Preferences) (k : Service) (on : Bool) (s : State) : Prop :=
  Edits p V k s ∧ enabled k (some (s.next p)) = on

theorem lasting_ready {k : Service} {on : Bool} : Lasting p (Ready p V k on) :=
  ⟨fun s t hs hsame hprefs =>
    ⟨lasting_edits.stays s t hs.1 hsame hprefs, by rw [hsame.1]; exact hs.2⟩⟩

theorem Fresh.preferences {s : State} (hfresh : Fresh p s) {k : Service} {on : Bool}
    (hs : Ready p V k on s) :
    preferences (some (s.next p)) = Function.update (preferences s.conf) k on := by
  funext service
  by_cases hk : service = k
  · rw [hk, Function.update_self]
    exact hs.2
  · rw [Function.update_of_ne hk]
    exact hfresh.1 service (by rw [hs.1.2]; exact hk)

theorem does_setEnabled {k : Service} {on : Bool} (hon : p ≠ .user → on = true) :
    Does p (Holds p V) (setEnabled p k on) fun _ => Holds p (Function.update V k on) := by
  have hne : ∀ {q : Process} {β : Type} (f : Process → β) (x : β), q ≠ p →
      Function.update f p x q = f q := fun f x hq => Function.update_of_ne hq x f
  apply Triple.bind (does_read (Q := fun _ => Holds p V) lasting_holds (fun _ => lasting_holds)
    fun _ h => h)
  intro readable
  apply Triple.bind (Q := fun _ => Edits p V k)
  · apply does_copy lasting_holds lasting_edits
    · exact fun _ => rfl
    · exact fun s q hq => ⟨hne s.next _ hq, hne s.editing _ hq⟩
    · exact fun t ht => ⟨ht, Function.update_self ..⟩
  intro _
  apply Triple.bind (Q := fun _ => Ready p V k on)
  · apply does_copy lasting_edits lasting_ready
    · exact fun _ => rfl
    · exact fun s q hq => ⟨hne s.next _ hq, rfl⟩
    · intro t ht
      refine ⟨ht, ?_⟩
      simp only [State.append, Function.update_self]
      rw [enabled_append, if_pos rfl]
  intro _
  apply Triple.run lasting_ready.stable fun _ => lasting_holds.stable
  intro t _ ht o ho hstep
  rw [List.mem_singleton.mp ho] at hstep ⊢
  -- a copy that replaces the file by the same file is fresh as well
  have hset : preferences (t.rename p).conf = Function.update (preferences t.conf) k on := by
    rcases hstep with hsame | hfresh
    · have hself : preferences t.conf k = on := by
        rw [← hsame]
        exact ht.2
      rw [hsame, ← hself, Function.update_eq_self]
    · exact hfresh.preferences ht
  refine ⟨⟨fun _ _ => ⟨rfl, rfl⟩, fun hp => ?_⟩, fun hp => ?_⟩
  · rw [hset]
    have hself : preferences t.conf k = on := by
      rcases hstep with hsame | hfresh
      · rw [← hsame]
        exact ht.2
      · rw [hon hp, ← ht.1.2]
        exact hfresh.2 hp
    rw [← hself, Function.update_eq_self]
  · rw [hset, ht.1.1 hp]

theorem does_startOnly {k : Service} :
    Does p (Holds p V) (startOnly p k) fun _ => Holds p (Function.update V k true) :=
  Triple.bind (does_setEnabled fun _ => rfl) fun _ => does_daemon lasting_holds

theorem does_stopOnly {k : Service} (hp : p = .user) :
    Does p (Holds p V) (stopOnly p k) fun _ => Holds p (Function.update V k false) :=
  Triple.bind (does_setEnabled fun h => absurd hp h) fun _ =>
    Triple.pure _ lasting_holds.stable fun _ _ h => h

theorem does_runOne {action : Action} (haction : p ≠ .user → action = .start)
    (service : Service) :
    Does p (Holds p V) (runOne p installed action service)
      fun _ => Holds p (recorded installed V (action, service)) := by
  have hadb : Does p (Holds p V) (pure false) fun _ => Holds p V :=
    Triple.pure _ lasting_holds.stable fun _ _ h => h
  cases action with
  | start =>
    cases service with
    | ssh => exact does_startOnly
    | ftp => exact does_startOnly
    | samba => exact does_startOnly
    | adb => exact hadb
    | sftp =>
      apply Triple.bind (does_setEnabled fun _ => rfl)
      intro _
      cases installed with
      | false => exact Triple.pure _ lasting_holds.stable fun _ _ h => h
      | true =>
        apply Triple.bind does_startOnly
        intro running
        cases running with
        | true => exact does_read lasting_holds (fun _ => lasting_holds) fun _ h => h
        | false => exact Triple.pure _ lasting_holds.stable fun _ _ h => h
  | stop =>
    have hp : p = .user := by
      by_contra h
      cases haction h
    cases service with
    | ftp => exact does_stopOnly hp
    | sftp => exact does_stopOnly hp
    | samba => exact does_stopOnly hp
    | adb => exact hadb
    | ssh =>
      apply Triple.bind (does_setEnabled fun h => absurd hp h)
      intro _
      exact does_stopOnly hp

theorem does_userCommands (commands : List (Action × Service)) :
    Does .user (Holds .user V) (userCommands installed commands)
      fun _ => Holds .user (commands.foldl (recorded installed) V) := by
  induction commands generalizing V with
  | nil => exact Triple.pure _ lasting_holds.stable fun _ _ h => h
  | cons command commands ih =>
    apply Triple.bind (does_runOne (fun h => absurd rfl h) command.2)
    exact fun _ => ih

theorem does_startEnabled {i : ℕ} (candidates : List Service) (result : Bool) :
    Does (.run i) (Holds (.run i) V) (startEnabled (.run i) installed candidates result)
      fun _ => Holds (.run i) V := by
  have hany : ∀ {V' : Preferences} {s : State}, Holds (.run i) V' s := fun h => by cases h
  induction candidates generalizing result with
  | nil => exact Triple.pure _ lasting_holds.stable fun _ _ h => h
  | cons candidate candidates ih =>
    apply Triple.bind (does_read (Q := fun _ => Holds (.run i) V) lasting_holds
      (fun _ => lasting_holds) fun _ h => h)
    intro on
    apply Triple.ite
    · intro _
      apply Triple.bind (does_runOne (fun _ => rfl) candidate)
      intro ok
      exact (ih _).conseq (fun _ _ _ => hany) (fun _ _ _ h => h) fun _ _ _ h => h
    · exact fun _ => ih _

end Programs

section Sessions

variable {conf : Conf} {installed : Bool} {commands : List (Action × Service)} {n : ℕ}
  {is : List Process} {p : Session}

/-- What the user's commands record of these preferences. -/
def wanted (installed : Bool) (commands : List (Action × Service)) (V : Preferences) :
    Preferences :=
  commands.foldl (recorded installed) V

theorem wanted_alone {rest : Sh Bool} {t : State}
    (halone : (userCommands installed commands).Leads (.start conf) rest t) (hend : rest.Ended) :
    preferences t.conf = wanted installed commands (preferences conf) := by
  obtain ⟨_, -, ht⟩ := result_of_wp (wp_userCommands commands rfl) trivial halone hend
  exact ht

theorem session_correct :
    Pool.Correct protocol FreshStep
      (fun q _ => Holds q (wanted installed commands (preferences conf))) (fun _ _ _ => True)
      (session conf installed commands n) := by
  refine ⟨trivial, fun q => ?_⟩
  cases q with
  | user => exact does_userCommands commands _ trivial fun _ => rfl
  | run i =>
    have hany : ∀ {s : State}, Holds (.run i) (wanted installed commands (preferences conf)) s :=
      fun h => by cases h
    dsimp only [session, programs]
    split
    · exact does_startEnabled _ _ _ trivial hany
    · exact fun _ _ _ => hany

/-- Where only fresh copies replace `services.conf`, the user's commands have the same effect
among any runs of `start-enabled` as alone, from when the last of them has finished. -/
theorem preferences_kept
    (hrun : Run (Pool.StepIn FreshStep) (session conf installed commands n) is p)
    (hend : (p.thread .user).Ended) {rest : Sh Bool} {t : State}
    (halone : (userCommands installed commands).Leads (.start conf) rest t)
    (haloneEnd : rest.Ended) (service : Service) :
    enabled service p.shared.conf = enabled service t.conf := by
  have hp := session_correct.run hrun
  have hsame : preferences p.shared.conf = preferences t.conf := by
    rw [wanted_alone halone haloneEnd]
    revert hend
    cases hthread : p.thread .user with
    | done ok => exact fun _ => hp.returned hthread rfl
    | raise e => exact e.elim
    | cmd outcomes next => exact fun h => h.elim
  exact congrFun hsame service

/-- The user starts SSH while a run of `start-enabled` starts FTP; the copies are renamed one
after the other. -/
def sshDuringStart : Session :=
  session (some ["ftp_enabled=1".toList]) true [(.start, .ssh)] 1

def freshCopies : List (Process × ℕ) :=
  [(.run 0, 0), (.run 0, 0), (.run 0, 0), (.run 0, 0), (.run 0, 0), (.run 0, 0), (.user, 0),
    (.user, 0), (.user, 0), (.user, 0), (.user, 0), (.run 0, 0), (.run 0, 0)]

theorem preferences_kept_sample :
    enabled .ftp (Pool.playIn FreshStep freshCopies sshDuringStart).shared.conf =
      enabled .ftp
        (Script.play [0, 0, 0, 0, 0] (userCommands true [(.start, .ssh)])
          (.start (some ["ftp_enabled=1".toList]))).2.conf := by
  obtain ⟨is, hrun⟩ := Pool.run_playIn (C := FreshStep) freshCopies sshDuringStart
  exact preferences_kept hrun trivial (Script.leads_play [0, 0, 0, 0, 0] _ _) trivial .ftp

/-- A run of `start-enabled` finds FTP enabled, the user stops FTP, and the run records FTP as
enabled again. -/
def stopDuringStart : Session :=
  session (some ["ftp_enabled=1".toList]) true [(.stop, .ftp)] 1

def staleStart : List (Process × ℕ) :=
  [(.run 0, 0), (.user, 0), (.user, 0), (.user, 0), (.user, 0), (.run 0, 0), (.run 0, 0),
    (.run 0, 0), (.run 0, 0), (.run 0, 0), (.run 0, 0), (.run 0, 0)]

theorem stop_lost : ∃ is p, Run Pool.Step stopDuringStart is p ∧
    (∀ q, (p.thread q).Ended) ∧ enabled .ftp p.shared.conf = true ∧
    ∃ rest t, (userCommands true [(.stop, .ftp)]).Leads
        (.start (some ["ftp_enabled=1".toList])) rest t ∧
      rest.Ended ∧ enabled .ftp t.conf = false := by
  obtain ⟨is, hrun⟩ := Pool.run_play staleStart stopDuringStart
  refine ⟨is, _, hrun, ?_, by decide +kernel, _, _,
    Script.leads_play [0, 0, 0, 0] _ _, trivial, by decide +kernel⟩
  intro q
  cases q with
  | user => exact trivial
  | run i =>
    cases i with
    | zero => exact trivial
    | succ i => exact trivial

end Sessions

end PlumosBubble.Network
