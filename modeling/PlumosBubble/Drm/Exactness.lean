import PlumosBubble.Drm.Broker

/-! The hand-off of DRM master is exact: over any run a mark tells that a drop has taken mastership
from the description and no set has restored it since, and each request that is answered ok
moves one mark. -/

namespace PlumosBubble.Drm

open Transition
open Update (Text)

variable {D : Type} [DecidableEq D] {s t u v : State D} {es fs : List (Event D)} {ev : Event D}

section Marks

/-- A drop has taken mastership from the description, and no set has restored it since. -/
def Taken (d : D) (es : List (Event D)) : Prop :=
  ∃ before after, es = before ++ .took d :: after ∧ Event.restored d ∉ after

omit [DecidableEq D] in
theorem taken_took (es : List (Event D)) (d : D) : Taken d (es ++ [.took d]) :=
  ⟨es, [], rfl, List.not_mem_nil⟩

omit [DecidableEq D] in
theorem Taken.concat {d : D} (h : Taken d es) (hev : ev ≠ .restored d) : Taken d (es ++ [ev]) := by
  obtain ⟨before, after, rfl, hafter⟩ := h
  refine ⟨before, after ++ [ev], by simp, ?_⟩
  rw [List.mem_append, List.mem_singleton, not_or]
  exact ⟨hafter, fun h => hev h.symm⟩

/-- Of the entries of one description only the first can have a mark, and it has one only where
mastership is taken; a drop leaves no master behind. -/
structure Consistent (es : List (Event D)) (s : State D) : Prop where
  first : ∀ (i j : ℕ) (e e' : Entry D), i < j → s.sharedFds[i]? = some e →
    s.sharedFds[j]? = some e' → e.fd = e'.fd → e'.dropped = false
  taken : ∀ e ∈ s.sharedFds, e.dropped = true → Taken e.fd es
  passed : ∀ op, s.operation = some op → op.setMaster = false →
    ∀ j (e : Entry D), j < op.index → s.sharedFds[j]? = some e → s.master ≠ some e.fd

omit [DecidableEq D] in
theorem consistent_start (master : Option D) : Consistent [] (State.start master) where
  first i j e e' _ he := by cases he
  taken e he := by cases he
  passed op hop := by cases hop

omit [DecidableEq D] in
theorem Consistent.still (h : Consistent es s) (hfds : t.sharedFds = s.sharedFds)
    (hev : ∀ d, ev ≠ .restored d)
    (hpassed : ∀ op, t.operation = some op → op.setMaster = false →
      ∀ j (e : Entry D), j < op.index → s.sharedFds[j]? = some e → t.master ≠ some e.fd) :
    Consistent (es ++ [ev]) t where
  first := by
    rw [hfds]
    exact h.first
  taken := by
    rw [hfds]
    exact fun e he hmark => (h.taken e he hmark).concat (hev e.fd)
  passed := by
    rw [hfds]
    exact hpassed

omit [DecidableEq D] in
theorem mem_register {fds : List (Entry D)} {d : D} {e : Entry D} (h : e ∈ register fds d) :
    e ∈ fds ∨ e.dropped = false := by
  unfold register at h
  split at h
  · rcases List.mem_append.mp h with h | h
    · exact Or.inl h
    · rw [List.mem_singleton.mp h]
      exact Or.inr rfl
  · exact Or.inl h

omit [DecidableEq D] in
theorem getElem_register {fds : List (Entry D)} {d : D} {i : ℕ} {e : Entry D}
    (h : (register fds d)[i]? = some e) : fds[i]? = some e ∨ i = fds.length ∧ e = ⟨d, false⟩ := by
  unfold register at h
  split at h
  · rw [List.getElem?_append] at h
    split at h
    · exact Or.inl h
    · rename_i hi
      rw [List.getElem?_singleton] at h
      split at h
      · exact Or.inr ⟨by omega, (Option.some.inj h).symm⟩
      · cases h
  · exact Or.inl h

omit [DecidableEq D] in
theorem getElem_set {fds : List (Entry D)} {e : Entry D} {i j : ℕ} {e' : Entry D}
    (h : (fds.set i e)[j]? = some e') : j = i ∧ e' = e ∨ j ≠ i ∧ fds[j]? = some e' := by
  rw [List.getElem?_set] at h
  split at h
  · rename_i hij
    split at h
    · exact Or.inl ⟨hij.symm, (Option.some.inj h).symm⟩
    · cases h
  · rename_i hij
    exact Or.inr ⟨Ne.symm hij, h⟩

theorem dropMaster_eq {master master' : Option D} {d : D} (h : dropMaster master d = some master') :
    master = some d ∧ master' = none := by
  unfold dropMaster at h
  split at h
  · exact ⟨‹_›, (Option.some.inj h).symm⟩
  · cases h

theorem setMaster_eq {master master' : Option D} {d : D} (h : setMaster master d = some master') :
    (master = none ∨ master = some d) ∧ master' = some d := by
  unfold setMaster at h
  split at h
  · exact ⟨‹_›, (Option.some.inj h).symm⟩
  · cases h

theorem Consistent.step (h : Consistent es s) (hstep : Step s ev t) :
    Consistent (es ++ [ev]) t := by
  cases hstep with
  | sent d => exact h.still rfl (fun _ h => by cases h) h.passed
  | elsewhere hnot hnot' =>
    refine h.still rfl (fun _ h => by cases h) fun op hop _ j e _ he => ?_
    exact hnot' e (List.mem_of_getElem? he)
  | others master hidle =>
    refine h.still rfl (fun _ h => by cases h) fun op hop => ?_
    cases hidle.symm.trans hop
  | requested hidle hrequest =>
    refine h.still rfl (fun _ h => by cases h) fun op hop _ j e hj => ?_
    cases hop
    exact absurd hj (Nat.not_lt_zero j)
  | skipped hop he hset _ =>
    refine h.still rfl (fun _ h => by cases h) fun op' hop' hdrop => ?_
    cases hop'
    cases hset.symm.trans hdrop
  | answered hop _ =>
    refine h.still rfl (fun _ h => by cases h) fun op' hop' => ?_
    cases hop'
  | received hidle hchannel =>
    refine ⟨fun i j e e' hij he he' hfd => ?_, fun e he hmark => ?_, fun op hop => ?_⟩
    · rcases getElem_register he' with he' | ⟨-, rfl⟩
      · rcases getElem_register he with he | ⟨rfl, -⟩
        · exact h.first i j e e' hij he he' hfd
        · rw [List.getElem?_eq_none (Nat.le_of_lt hij)] at he'
          cases he'
      · rfl
    · rcases mem_register he with he | hno
      · exact (h.taken e he hmark).concat fun h => by cases h
      · rw [hno] at hmark
        cases hmark
    · cases hidle.symm.trans hop
  | took hop he hset hdrop =>
    rename_i op e master
    obtain ⟨hmaster, rfl⟩ := dropMaster_eq hdrop
    -- the entries before this one have been passed, so none of them is of this description
    have hbefore : ∀ j e', j < op.index → s.sharedFds[j]? = some e' → e'.fd ≠ e.fd :=
      fun j e' hj he' hfd => h.passed op hop hset j e' hj he' (by rw [hfd]; exact hmaster)
    refine ⟨fun i j e₁ e₂ hij he₁ he₂ hfd => ?_, fun e' he' hmark => ?_, fun op' _ _ j e' _ _ => ?_⟩
    · rcases getElem_set he₂ with ⟨rfl, rfl⟩ | ⟨hj, he₂⟩
      · rcases getElem_set he₁ with ⟨rfl, -⟩ | ⟨-, he₁⟩
        · exact absurd hij (Nat.lt_irrefl _)
        · exact absurd hfd (hbefore i e₁ hij he₁)
      · rcases getElem_set he₁ with ⟨rfl, rfl⟩ | ⟨-, he₁⟩
        · exact h.first _ _ e e₂ hij he he₂ hfd
        · exact h.first _ _ e₁ e₂ hij he₁ he₂ hfd
    · rcases List.mem_or_eq_of_mem_set he' with he' | rfl
      · exact (h.taken e' he' hmark).concat fun h => by cases h
      · exact taken_took es e.fd
    · exact fun h => by cases h
  | restored hop he hset hmark hmaster =>
    rename_i op e master
    -- no other entry of this description has a mark
    have hother : ∀ j e', j ≠ op.index → s.sharedFds[j]? = some e' → e'.dropped = true →
        e'.fd ≠ e.fd := by
      intro j e' hj he' hmark' hfd
      rcases Nat.lt_or_gt_of_ne hj with hlt | hgt
      · rw [h.first _ _ e' e hlt he' he hfd] at hmark
        cases hmark
      · rw [h.first _ _ e e' hgt he he' hfd.symm] at hmark'
        cases hmark'
    refine ⟨fun i j e₁ e₂ hij he₁ he₂ hfd => ?_, fun e' he' hmark' => ?_, fun op' hop' hdrop => ?_⟩
    · rcases getElem_set he₂ with ⟨rfl, rfl⟩ | ⟨-, he₂⟩
      · rfl
      · rcases getElem_set he₁ with ⟨rfl, rfl⟩ | ⟨-, he₁⟩
        · exact h.first _ _ e e₂ hij he he₂ hfd
        · exact h.first _ _ e₁ e₂ hij he₁ he₂ hfd
    · obtain ⟨j, he'⟩ := List.getElem?_of_mem he'
      rcases getElem_set he' with ⟨-, rfl⟩ | ⟨hj, he'⟩
      · cases hmark'
      · refine (h.taken e' (List.mem_of_getElem? he') hmark').concat fun hev => ?_
        exact hother j e' hj he' hmark' (Event.restored.inj hev).symm
    · cases hop'
      cases hset.symm.trans hdrop
  | failed errno hop he hresult =>
    rename_i op e
    refine h.still rfl (fun _ h => by cases h) fun op' hop' hdrop j e' hj he' => ?_
    cases hop'
    rcases Nat.lt_or_eq_of_le (Nat.le_of_lt_succ hj) with hlt | rfl
    · exact h.passed op hop hdrop j e' hlt he'
    · rw [he] at he'
      cases he'
      have hset : op.setMaster = false := hdrop
      rw [hset, if_neg Bool.false_ne_true] at hresult
      unfold dropMaster at hresult
      split at hresult
      · cases hresult
      · assumption

theorem consistent_run {master : Option D} (hrun : Run Step (State.start master) es s) :
    Consistent es s :=
  hrun.invariant (I := Consistent) (consistent_start master) fun _ h hstep => h.step hstep

end Marks

section Requests

/-- A drop has taken mastership from the one entry that had it. -/
def DropDone (s t : State D) : Prop :=
  ∃ i e, s.sharedFds[i]? = some e ∧ s.master = some e.fd ∧
    t.sharedFds = s.sharedFds.set i ⟨e.fd, true⟩ ∧ ∀ e' ∈ t.sharedFds, t.master ≠ some e'.fd

/-- A set has restored the mastership of one entry, which had a mark, before the entry `k`. -/
def SetDone (s t : State D) (k : ℕ) : Prop :=
  ∃ i e, i < k ∧ s.sharedFds[i]? = some e ∧ e.dropped = true ∧ t.master = some e.fd ∧
    t.sharedFds = s.sharedFds.set i ⟨e.fd, false⟩

/-- Nothing is done yet; who is master may have changed where the broker has no part in it. -/
structure Untouched (s : State D) (fs : List (Event D)) (t : State D) : Prop where
  fds : t.sharedFds = s.sharedFds
  master : t.master = s.master ∨ ∀ e ∈ t.sharedFds, t.master ≠ some e.fd
  still : Event.elsewhere ∉ fs → t.master = s.master

/-- What has been done, with the loop at the entry `op.index`. -/
def Stands (s : State D) (op : Operation) (fs : List (Event D)) (t : State D) : Prop :=
  if op.success then if op.setMaster then SetDone s t op.index else DropDone s t
  else Untouched s fs t

omit [DecidableEq D] in
theorem Stands.still {op op' : Operation} (h : Stands s op fs u)
    (hfds : v.sharedFds = u.sharedFds) (hmaster : v.master = u.master)
    (hset : op'.setMaster = op.setMaster) (hsuccess : op'.success = op.success)
    (hindex : op.index ≤ op'.index) : Stands s op' (fs ++ [ev]) v := by
  unfold Stands at h ⊢
  rw [hset, hsuccess]
  split
  · rename_i hok
    rw [if_pos hok] at h
    split
    · rename_i hs
      rw [if_pos hs] at h
      obtain ⟨i, e, hi, he, hmark, hm, hf⟩ := h
      exact ⟨i, e, Nat.lt_of_lt_of_le hi hindex, he, hmark, hmaster.trans hm, hfds.trans hf⟩
    · rename_i hs
      rw [if_neg hs] at h
      obtain ⟨i, e, he, hm, hf, hnone⟩ := h
      refine ⟨i, e, he, hm, hfds.trans hf, ?_⟩
      rw [hfds, hmaster]
      exact hnone
  · rename_i hok
    rw [if_neg hok] at h
    refine ⟨hfds.trans h.fds, ?_, fun hno => ?_⟩
    · rw [hfds, hmaster]
      exact h.master
    · rw [hmaster]
      exact h.still fun hmem => hno (List.mem_append_left _ hmem)

omit [DecidableEq D] in
theorem Stands.elsewhere {op : Operation} {master : Option D} (h : Stands s op fs u)
    (hnot : ∀ e ∈ u.sharedFds, u.master ≠ some e.fd)
    (hnot' : ∀ e ∈ u.sharedFds, master ≠ some e.fd) :
    Stands s op (fs ++ [.elsewhere]) { u with master := master } := by
  unfold Stands at h ⊢
  split
  · rename_i hok
    rw [if_pos hok] at h
    split
    · rename_i hs
      rw [if_pos hs] at h
      obtain ⟨i, e, -, he, -, hm, hf⟩ := h
      have hmem : (⟨e.fd, false⟩ : Entry D) ∈ u.sharedFds := by
        rw [hf]
        obtain ⟨hi, -⟩ := List.getElem?_eq_some_iff.mp he
        exact List.mem_set hi _
      exact absurd hm (hnot ⟨e.fd, false⟩ hmem)
    · rename_i hs
      rw [if_neg hs] at h
      obtain ⟨i, e, he, hm, hf, -⟩ := h
      exact ⟨i, e, he, hm, hf, hnot'⟩
  · rename_i hok
    rw [if_neg hok] at h
    refine ⟨h.fds, Or.inr hnot', fun hno => ?_⟩
    exact absurd (List.mem_append_right _ (List.mem_singleton_self _)) hno

omit [DecidableEq D] in
theorem Stands.took {op : Operation} {e : Entry D} (h : Stands s op fs u)
    (he : u.sharedFds[op.index]? = some e) (hset : op.setMaster = false)
    (hmaster : u.master = some e.fd) :
    Stands s op.succeed (fs ++ [.took e.fd])
      { u with
        master := none
        sharedFds := u.sharedFds.set op.index ⟨e.fd, true⟩
        operation := some op.succeed } := by
  have hmem : e ∈ u.sharedFds := List.mem_of_getElem? he
  unfold Stands at h ⊢
  rw [show op.succeed.success = true from rfl, show op.succeed.setMaster = false from hset,
    if_pos rfl, if_neg Bool.false_ne_true]
  rw [hset, if_neg Bool.false_ne_true] at h
  split at h
  · obtain ⟨-, -, -, -, -, hnone⟩ := h
    exact absurd hmaster (hnone e hmem)
  · have hbefore : s.master = some e.fd := by
      rcases h.master with hsame | hnone
      · rw [← hsame]
        exact hmaster
      · exact absurd hmaster (hnone e hmem)
    refine ⟨op.index, e, ?_, hbefore, ?_, fun _ _ h => by cases h⟩
    · rw [← h.fds]
      exact he
    · rw [← h.fds]

theorem Stands.restored {op : Operation} {e : Entry D} {master : Option D}
    (hs : Consistent es s) (h : Stands s op fs u)
    (he : u.sharedFds[op.index]? = some e) (hset : op.setMaster = true)
    (hmark : e.dropped = true) (hmaster : setMaster u.master e.fd = some master) :
    Stands s op.succeed (fs ++ [.restored e.fd])
      { u with
        master := master
        sharedFds := u.sharedFds.set op.index ⟨e.fd, false⟩
        operation := some op.succeed } := by
  obtain ⟨hfree, rfl⟩ := setMaster_eq hmaster
  unfold Stands at h ⊢
  rw [show op.succeed.success = true from rfl, show op.succeed.setMaster = true from hset,
    if_pos rfl, if_pos rfl]
  rw [hset, if_pos rfl] at h
  split at h
  · -- the kernel would have to accept a second master of one description with two marks
    obtain ⟨i, e', hi, he', hmark', hm, hf⟩ := h
    rw [hm] at hfree
    rcases hfree with hfree | hfree
    · cases hfree
    · rw [hf] at he
      rcases getElem_set he with ⟨heq, -⟩ | ⟨-, he⟩
      · omega
      · rw [hs.first i op.index e' e hi he' he (Option.some.inj hfree)] at hmark
        cases hmark
  · refine ⟨op.index, e, Nat.lt_succ_self _, ?_, hmark, rfl, ?_⟩
    · rw [← h.fds]
      exact he
    · rw [← h.fds]

/-- How far the request accepted in `s` has come. -/
def Progress (s : State D) (set : Bool) (fs : List (Event D)) (t : State D) : Prop :=
  ∃ op, t.operation = some op ∧ op.setMaster = set ∧ Stands s op fs t

theorem Progress.step {set : Bool} (hs : Consistent es s) (h : Progress s set fs u)
    (hstep : Step u ev v) (hev : ∀ a, ev ≠ .answered a) : Progress s set (fs ++ [ev]) v := by
  obtain ⟨op, hop, rfl, hstands⟩ := h
  cases hstep with
  | sent d => exact ⟨op, hop, rfl, hstands.still rfl rfl rfl rfl (Nat.le_refl _)⟩
  | elsewhere hnot hnot' => exact ⟨op, hop, rfl, hstands.elsewhere hnot hnot'⟩
  | others master hidle => cases hidle.symm.trans hop
  | received hidle _ => cases hidle.symm.trans hop
  | requested hidle _ => cases hidle.symm.trans hop
  | skipped hop' _ _ _ =>
    cases hop.symm.trans hop'
    exact ⟨op.next, rfl, rfl, hstands.still rfl rfl rfl rfl (Nat.le_succ _)⟩
  | took hop' he hset hdrop =>
    cases hop.symm.trans hop'
    obtain ⟨hmaster, rfl⟩ := dropMaster_eq hdrop
    exact ⟨op.succeed, rfl, rfl, hstands.took he hset hmaster⟩
  | restored hop' he hset hmark hmaster =>
    cases hop.symm.trans hop'
    exact ⟨op.succeed, rfl, rfl, hstands.restored hs he hset hmark hmaster⟩
  | failed errno hop' _ _ =>
    cases hop.symm.trans hop'
    exact ⟨op.fail errno, rfl, rfl, hstands.still rfl rfl rfl rfl (Nat.le_succ _)⟩
  | answered _ _ => exact absurd rfl (hev _)

theorem progress_run {request : Text} {set : Bool} (hs : Consistent es s)
    (hrequest : requestOf request = some set) (haccept : Step s (.requested request) u)
    (hrun : Run Step u fs v) (hno : ∀ a, Event.answered a ∉ fs) : Progress s set fs v := by
  have hall : ∀ {gs : List (Event D)} {w : State D}, Run Step u gs w →
      (∀ a, Event.answered a ∉ gs) → Progress s set gs w := by
    intro gs w hrun
    induction hrun with
    | nil =>
      intro _
      cases haccept with
      | requested hidle hrequest' =>
        cases hrequest.symm.trans hrequest'
        exact ⟨_, rfl, rfl, rfl, Or.inl rfl, fun _ => rfl⟩
    | concat _ hlast ih =>
      intro hno
      have hbefore := ih fun a hmem => hno a (List.mem_append_left _ hmem)
      refine hbefore.step hs hlast fun a ha => hno a ?_
      rw [ha]
      exact List.mem_append_right _ (List.mem_singleton_self _)
  exact hall hrun hno

/-- The hand-off is exact: whatever has happened before a request, and whatever is sent while it
is served, an ok to a drop means that the one registered master lost its mastership and got
the mark, an ok to a set that one description whose mastership a drop took is master again, and any
other answer that nothing changed. -/
theorem handoff_exact {master : Option D} {request : Text} {answer : Answer}
    (hrun : Run Step (State.start master) es s) (hserved : Served s request fs answer t) :
    (answer = .ok → requestOf request = some false →
      ∃ i e, s.sharedFds[i]? = some e ∧ s.master = some e.fd ∧
        t.sharedFds = s.sharedFds.set i ⟨e.fd, true⟩ ∧
        ∀ e' ∈ t.sharedFds, t.master ≠ some e'.fd) ∧
    (answer = .ok → requestOf request = some true →
      ∃ i e, s.sharedFds[i]? = some e ∧ e.dropped = true ∧ Taken e.fd es ∧
        t.master = some e.fd ∧ t.sharedFds = s.sharedFds.set i ⟨e.fd, false⟩) ∧
    (answer ≠ .ok → t.sharedFds = s.sharedFds ∧ (Event.elsewhere ∉ fs → t.master = s.master)) := by
  have hs := consistent_run hrun
  cases hserved with
  | rejected hrequest =>
    exact ⟨(fun h => by cases h), (fun h => by cases h), fun _ => ⟨rfl, fun _ => rfl⟩⟩
  | operated hrequest haccept hgoes hno hanswer =>
    obtain ⟨op, hop, hset, hstands⟩ := progress_run hs hrequest haccept hgoes hno
    cases hanswer with
    | answered hop' _ =>
      cases hop.symm.trans hop'
      unfold Stands at hstands
      unfold Operation.answer
      rw [hrequest]
      cases hsuccess : op.success with
      | false =>
        rw [if_neg (by rw [hsuccess]; exact Bool.false_ne_true)] at hstands
        exact ⟨(fun h => by cases h), (fun h => by cases h), fun _ => ⟨hstands.fds, hstands.still⟩⟩
      | true =>
        rw [if_pos hsuccess, hset] at hstands
        refine ⟨fun _ hdrop => ?_, fun _ hrestore => ?_, fun h => absurd rfl h⟩
        · rw [Option.some.inj hdrop, if_neg Bool.false_ne_true] at hstands
          exact hstands
        · rw [Option.some.inj hrestore, if_pos rfl] at hstands
          obtain ⟨i, e, -, he, hmark, hmaster, hfds⟩ := hstands
          have htaken : Taken e.fd es := hs.taken e (List.mem_of_getElem? he) hmark
          exact ⟨i, e, he, hmark, htaken, hmaster, hfds⟩

def dropRequest : Text := "drop\n".toList

def setRequest : Text := "set\n".toList

/-- Description 0 is registered. -/
def registered (master : Option ℕ) (dropped : Bool) (op : Option Operation) : State ℕ :=
  ⟨master, [], [⟨0, dropped⟩], op⟩

/-- It is the master, and dropped. -/
def droppedEvents : List (Event ℕ) :=
  [.sent 0] ++ [.received] ++ [.requested dropRequest] ++ [.took 0] ++ [.answered .ok]

theorem run_dropped :
    Run Step (State.start (some 0)) droppedEvents (registered none true none) := by
  have hrequest : requestOf dropRequest = some false := by decide +kernel
  have hsent : Run Step (State.start (some 0)) [.sent 0] ⟨some 0, [0], [], none⟩ :=
    Run.single (.sent 0)
  have hreceived : Step (⟨some 0, [0], [], none⟩ : State ℕ) .received
      (registered (some 0) false none) := .received rfl rfl
  let before : State ℕ := registered (some 0) false (some ⟨false, 0, false, enodev⟩)
  let after : State ℕ := registered none true (some ⟨false, 1, true, enodev⟩)
  have hrequested : Step (registered (some 0) false none) (.requested dropRequest) before :=
    .requested rfl hrequest
  have hbefore : before.operation = some ⟨false, 0, false, enodev⟩ := rfl
  have hentry : before.sharedFds[0]? = some ⟨0, false⟩ := rfl
  have htook : Step before (.took 0) after := .took hbefore hentry rfl rfl
  have hafter : after.operation = some ⟨false, 1, true, enodev⟩ := rfl
  have hanswered : Step after (.answered .ok) (registered none true none) := .answered hafter rfl
  exact (((hsent.concat hreceived).concat hrequested).concat htook).concat hanswered

theorem served_set :
    Served (registered none true none) setRequest [.restored 0] .ok
      (registered (some 0) false none) := by
  have hrequest : requestOf setRequest = some true := by decide +kernel
  let before : State ℕ := registered none true (some ⟨true, 0, false, enodev⟩)
  let after : State ℕ := registered (some 0) false (some ⟨true, 1, true, enodev⟩)
  have haccept : Step (registered none true none) (.requested setRequest) before :=
    .requested rfl hrequest
  have hbefore : before.operation = some ⟨true, 0, false, enodev⟩ := rfl
  have hentry : before.sharedFds[0]? = some ⟨0, true⟩ := rfl
  have hrestored : Step before (.restored 0) after := .restored hbefore hentry rfl rfl rfl
  have hafter : after.operation = some ⟨true, 1, true, enodev⟩ := rfl
  have hanswered : Step after (.answered .ok) (registered (some 0) false none) :=
    .answered hafter rfl
  exact .operated hrequest haccept (Run.single hrestored) (by simp) hanswered

/-- Description 0 gets its mastership back. -/
theorem handoff_exact_sample :
    ∃ i e, (registered none true none).sharedFds[i]? = some e ∧ e.dropped = true ∧
      Taken e.fd droppedEvents ∧ (registered (some 0) false none).master = some e.fd ∧
      (registered (some 0) false none).sharedFds =
        (registered none true none).sharedFds.set i ⟨e.fd, false⟩ :=
  (handoff_exact run_dropped served_set).2.1 rfl (by decide +kernel)

end Requests

end PlumosBubble.Drm
