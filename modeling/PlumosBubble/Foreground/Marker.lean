import PlumosBubble.Foreground.Groups

/-! What the marker is good for. The id of a group stays in the marker, in the frontend's call
and in a terminate run after the group has gone, and the kernel may give it out again; a launch
may be there that the marker does not name. Where no other program makes a group under an id
that is still held, and no terminate run misses a launch or a process while it looks, every
group signal reaches the processes of a launch, and a run that returns 0 leaves none alive. -/

namespace PlumosBubble.Foreground

open Transition

variable {s t : State} {e : Event} {g p q : ℕ}

/-- Somebody may still signal the group `g`. -/
def Held (s : State) (g : ℕ) : Prop :=
  s.marker = some g ∨ s.frontend.group = some g ∨ ∃ r ∈ s.runs, r.group = some g

/-- `m` is a live process of a launch's group. -/
def Lives (s : State) (m : Proc) : Prop := m ∈ s.procs ∧ m.ours = true ∧ m.zombie = false

/-- The run has read the marker, and its result is still open. -/
def Quiesce.Looked : Quiesce → Prop
  | .start | .pids false => False
  | _ => True

/-- The scan of the run will not come to the process `q`. -/
def Quiesce.Misses (q g : ℕ) : Quiesce → Prop
  | .scan g' _ left => g' = g ∧ q ∉ left
  | _ => False

/-- The condition on a step: no launch while a terminate run is past the marker; no group made
by another program under a held id; no process that comes into a group behind the scan of it,
or into a group without a live process while a run is past the marker; and a marker that names
the group of every live launch when a run reads it. -/
def Orderly (s : State) : Event → Prop
  | .launched _ => ∀ r ∈ s.runs, ¬ r.Looked
  | .created g => ¬ Held s g
  | .forked q g => ∀ r ∈ s.runs, ¬ r.Misses q g
  | .joined q g => ∀ r ∈ s.runs,
      ¬ r.Misses q g ∧ (r.Looked → ∃ m ∈ s.procs, m.pgid = g ∧ m.zombie = false)
  | .looked => ∀ m, Lives s m → s.marker = some m.pgid
  | _ => True

/-- A group signal reaches processes of a launch, and only these; a terminate run that returns
0 leaves no live process of a launch's group. -/
def Good (s : State) : Event → Prop
  | .signalled g => (∃ m ∈ s.procs, m.pgid = g ∧ m.ours = true) ∧
      ∀ m ∈ s.procs, m.pgid = g → m.ours = true
  | .returned true => ∀ m ∈ s.procs, m.ours = true → m.zombie = true
  | _ => True

/-- What a run past the marker knows of a live process `m` of a launch. -/
def Quiesce.Sees (m : Proc) : Quiesce → Prop
  | .start | .pids false => True
  | .listing g _ | .term g | .cont g | .kill g => m.pgid = g
  | .scan g _ left => m.pgid = g ∧ m.pid ∈ left
  | .remove _ | .pids true => False

/-- The invariant: the processes of a group are all a launch's or none is, a held group is a
launch's, and no run past the marker has lost a live process of a launch. -/
structure Named (s : State) : Prop where
  same : ∀ m ∈ s.procs, ∀ n ∈ s.procs, m.pgid = n.pgid → m.ours = n.ours
  held : ∀ g, Held s g → ∀ m ∈ s.procs, m.pgid = g → m.ours = true
  seen : ∀ r ∈ s.runs, ∀ m, Lives s m → r.Sees m

theorem Initial.named (h : Initial s) : Named s := by
  obtain ⟨hprocs, hmarker, hfrontend, hruns⟩ := h
  constructor
  · intro m hm n hn _
    rw [hprocs m hm, hprocs n hn]
  · intro g hg
    rcases hg with hg | hg | ⟨r, hr, -⟩
    · simp [hmarker] at hg
    · simp [hfrontend, Frontend.group] at hg
    · simp [hruns] at hr
  · intro r hr
    simp [hruns] at hr

/-- A step that takes away no name, kills no process and moves none keeps the invariant. -/
theorem Named.mono (h : Named s) (hheld : ∀ g, Held t g → Held s g)
    (hprocs : ∀ m ∈ t.procs, m ∈ s.procs ∨ m.zombie = true ∧ ∃ n ∈ s.procs,
      n.pgid = m.pgid ∧ n.ours = m.ours)
    (hruns : ∀ r ∈ t.runs, r ∈ s.runs ∨ r = .start) : Named t := by
  have hold : ∀ m ∈ t.procs, ∃ n ∈ s.procs, n.pgid = m.pgid ∧ n.ours = m.ours := by
    intro m hm
    rcases hprocs m hm with hm | ⟨-, hn⟩
    · exact ⟨m, hm, rfl, rfl⟩
    · exact hn
  constructor
  · intro m hm n hn hmn
    obtain ⟨m', hm', hmg, hmo⟩ := hold m hm
    obtain ⟨n', hn', hng, hno⟩ := hold n hn
    rw [← hmo, ← hno]
    exact h.same m' hm' n' hn' (by rw [hmg, hng, hmn])
  · intro g hg m hm hmg
    obtain ⟨n, hn, hng, hno⟩ := hold m hm
    rw [← hno]
    exact h.held g (hheld g hg) n hn (hng.trans hmg)
  · intro r hr m hm
    rcases hruns r hr with hr | rfl
    · refine h.seen r hr m ⟨?_, hm.2⟩
      rcases hprocs m hm.1 with h' | ⟨hz, -⟩
      · exact h'
      · simp [hm.2.2] at hz
    · trivial

/-! ### The steps of a terminate run -/

theorem Test.live_group (test : Test) :
    (test.live g).group = some g ∨ (test.live g).group = none := by
  rcases test with _ | (_ | n) | _ | (_ | n) | _ <;> simp [Test.live, Quiesce.group]

theorem Test.gone_group (test : Test) :
    (test.gone g).group = some g ∨ (test.gone g).group = none := by
  cases test <;> simp [Test.gone, Quiesce.group]

theorem Test.live_sees (test : Test) {m : Proc} (hg : m.pgid = g) : (test.live g).Sees m := by
  rcases test with _ | (_ | n) | _ | (_ | n) | _ <;> simp [Test.live, Quiesce.Sees, hg]

theorem Quiesce.Step.holds {r r' : Quiesce} {marker : Option ℕ} (h : r.Step s e marker r') :
    (r'.group = some g → r.group = some g ∨ s.marker = some g) ∧
      (marker = some g → s.marker = some g) := by
  cases h with
  | no_marker hm => simp [Quiesce.group]
  | marker hm => simp [Quiesce.group, hm]
  | found hm hg hz =>
    rename_i g' test left m
    refine ⟨fun h => .inl ?_, id⟩
    rcases test.live_group (g := g') with hl | hl
    · exact hl.symm.trans h
    · simp [hl] at h
  | scanned =>
    rename_i g' test
    refine ⟨fun h => .inl ?_, id⟩
    rcases test.gone_group (g := g') with hl | hl
    · exact hl.symm.trans h
    · simp [hl] at h
  | remove => simp [Quiesce.group]
  | listed | passed | term | term_absent | cont | cont_absent | kill | kill_absent =>
    exact ⟨fun h => .inl h, id⟩

theorem Quiesce.Step.sees {r r' : Quiesce} {marker : Option ℕ} (h : r.Step s e marker r')
    (he : Orderly s e) {m : Proc} (hm : Lives s m) (hr : r.Sees m) : r'.Sees m := by
  cases h with
  | no_marker hn =>
    have hnamed : s.marker = some m.pgid := he m hm
    simp [hn] at hnamed
  | marker hg =>
    have hnamed : s.marker = some m.pgid := he m hm
    rw [hg] at hnamed
    exact (Option.some.inj hnamed).symm
  | listed hleft => exact ⟨hr, hleft m hm.1⟩
  | found => exact Test.live_sees _ hr.1
  | passed hq =>
    refine ⟨hr.1, ?_⟩
    rcases List.mem_cons.1 hr.2 with h | h
    · have hz := hq m hm.1 h hr.1
      simp [hm.2.2] at hz
    · exact h
  | scanned => exact absurd hr.2 List.not_mem_nil
  | remove => exact hr.elim
  | term | term_absent | cont | cont_absent | kill | kill_absent => exact hr

/-! ### The invariant -/

theorem Named.quiesce (h : Named s) {l r : List Quiesce} {q q' : Quiesce} {marker : Option ℕ}
    (hs : s.runs = l ++ q :: r) (hq : q.Step s e marker q') (he : Orderly s e) :
    Named { s with marker := marker, runs := l ++ q' :: r } := by
  have hmem : q ∈ s.runs := by simp [hs]
  have hother : ∀ r' ∈ l ++ q' :: r, r' ∈ s.runs ∨ r' = q' := by
    intro r' hr'
    simp only [hs, List.mem_append, List.mem_cons] at hr' ⊢
    tauto
  refine ⟨h.same, ?_, ?_⟩
  · rintro g (hg | hg | ⟨r', hr', hg⟩)
    · exact h.held g (.inl (hq.holds.2 hg))
    · exact h.held g (.inr (.inl hg))
    · rcases hother r' hr' with hr' | rfl
      · exact h.held g (.inr (.inr ⟨r', hr', hg⟩))
      · rcases hq.holds.1 hg with hg | hg
        · exact h.held g (.inr (.inr ⟨q, hmem, hg⟩))
        · exact h.held g (.inl hg)
  · intro r' hr' m hm
    rcases hother r' hr' with hr' | rfl
    · exact h.seen r' hr' m hm
    · exact hq.sees he hm (h.seen q hmem m hm)

theorem Quiesce.sees_of_not_looked {r : Quiesce} (hr : ¬ r.Looked) (m : Proc) : r.Sees m := by
  rcases r with _ | _ | _ | _ | _ | _ | _ | (_ | _) <;> simp_all [Quiesce.Looked, Quiesce.Sees]

theorem Named.launch (h : Named s) (hp : Fresh s p) (hr : ∀ r ∈ s.runs, ¬ r.Looked) :
    Named { s with procs := s.procs ++ [⟨p, p, true, false⟩], frontend := .forked p } := by
  constructor
  · intro m hm n hn hmn
    simp only [List.mem_append, List.mem_singleton] at hm hn
    rcases hm with hm | rfl <;> rcases hn with hn | rfl
    · exact h.same m hm n hn hmn
    · exact absurd hmn (hp.2 m hm).2
    · exact absurd hmn.symm (hp.2 n hn).2
    · rfl
  · intro g hg m hm hmg
    rcases List.mem_append.1 hm with hm | hm
    · have hheld : Held s g := by
        rcases hg with hg | hg | hg
        · exact .inl hg
        · -- the group of the call is the child's, which no older process is in
          exact absurd (hmg.trans (Option.some.inj hg).symm) (hp.2 m hm).2
        · exact .inr (.inr hg)
      exact h.held g hheld m hm hmg
    · rw [List.mem_singleton.1 hm]
  · intro r hr' m _
    exact Quiesce.sees_of_not_looked (hr r hr') m

theorem Quiesce.sees_of_group {r : Quiesce} {m n : Proc} (hr : r.Sees m) (hg : n.pgid = m.pgid)
    (hn : ¬ r.Misses n.pid m.pgid) : r.Sees n := by
  rcases r with _ | _ | ⟨g, test, left⟩ | _ | _ | _ | _ | (_ | _)
  case scan =>
    refine ⟨hg.trans hr.1, ?_⟩
    by_contra hleft
    exact hn ⟨hr.1.symm, hleft⟩
  all_goals simp_all [Quiesce.Sees]

theorem Named.fork (h : Named s) {m : Proc} (hm : m ∈ s.procs) (hz : m.zombie = false)
    (he : ∀ r ∈ s.runs, ¬ r.Misses q m.pgid) :
    Named { s with procs := s.procs ++ [⟨q, m.pgid, m.ours, false⟩] } := by
  constructor
  · intro n hn n' hn' hnn
    simp only [List.mem_append, List.mem_singleton] at hn hn'
    rcases hn with hn | rfl <;> rcases hn' with hn' | rfl
    · exact h.same n hn n' hn' hnn
    · exact h.same n hn m hm hnn
    · exact h.same m hm n' hn' hnn
    · rfl
  · intro g hg n hn hng
    rcases List.mem_append.1 hn with hn | hn
    · exact h.held g hg n hn hng
    · rw [List.mem_singleton.1 hn] at hng ⊢
      exact h.held g hg m hm hng
  · rintro r hr n ⟨hn, hours, hlive⟩
    rcases List.mem_append.1 hn with hn | hn
    · exact h.seen r hr n ⟨hn, hours, hlive⟩
    · rw [List.mem_singleton.1 hn] at hours ⊢
      exact Quiesce.sees_of_group (h.seen r hr m ⟨hm, hours, hz⟩) rfl (he r hr)

theorem Named.move (h : Named s) {l r : List Proc} {m n : Proc} (hs : s.procs = l ++ m :: r)
    (hsame : ∀ m' ∈ s.procs, m'.pgid = n.pgid → m'.ours = n.ours)
    (hheld : Held s n.pgid → n.ours = true)
    (hseen : n.ours = true → n.zombie = false → ∀ r ∈ s.runs, r.Sees n) :
    Named { s with procs := l ++ n :: r } := by
  have hother : ∀ m' ∈ l ++ n :: r, m' ∈ s.procs ∨ m' = n := by
    intro m' hm'
    simp only [hs, List.mem_append, List.mem_cons] at hm' ⊢
    tauto
  constructor
  · intro m' hm' n' hn' hmn
    rcases hother m' hm' with hm | rfl <;> rcases hother n' hn' with hn | rfl
    · exact h.same m' hm n' hn hmn
    · exact hsame m' hm hmn
    · exact (hsame n' hn hmn.symm).symm
    · rfl
  · intro g hg m' hm' hmg
    rcases hother m' hm' with hm' | rfl
    · exact h.held g hg m' hm' hmg
    · exact hheld (hmg ▸ hg)
  · rintro r hr m' ⟨hm', hours, hlive⟩
    rcases hother m' hm' with hm' | rfl
    · exact h.seen r hr m' ⟨hm', hours, hlive⟩
    · exact hseen hours hlive r hr

theorem Named.join (h : Named s) {l r : List Proc} {m n : Proc} (hs : s.procs = l ++ m :: r)
    (hn : n ∈ s.procs) (he : Orderly s (.joined m.pid n.pgid)) :
    Named { s with procs := l ++ { m with pgid := n.pgid, ours := n.ours } :: r } := by
  apply h.move hs
  · intro m' hm' hg
    exact h.same m' hm' n hn hg
  · intro hg
    exact h.held n.pgid hg n hn rfl
  · intro hours _ r' hr'
    obtain ⟨hmisses, hlive⟩ := he r' hr'
    by_cases hlooked : r'.Looked
    · obtain ⟨m', hm', hg, hz⟩ := hlive hlooked
      have hseen := h.seen r' hr' m' ⟨hm', (h.same m' hm' n hn hg).trans hours, hz⟩
      exact Quiesce.sees_of_group hseen hg.symm (hg ▸ hmisses)
    · exact Quiesce.sees_of_not_looked hlooked _

theorem Named.create (h : Named s) {l r : List Proc} {m : Proc} (hs : s.procs = l ++ m :: r)
    (hg : ¬ Present s m.pid) (he : ¬ Held s m.pid) :
    Named { s with procs := l ++ { m with pgid := m.pid, ours := false } :: r } := by
  apply h.move hs
  · intro m' hm' hmg
    exact absurd ⟨m', hm', hmg⟩ hg
  · intro hheld
    exact absurd hheld he
  · intro hours
    exact absurd hours (by simp)

theorem After.next_group (after : After) : (after.next p).group = none := by
  cases after <;> rfl

theorem Named.frontend (h : Named s) {f : Frontend} {procs : List Proc} {requested : Bool}
    (hf : f.group = none ∨ f.group = s.frontend.group) (hprocs : procs ⊆ s.procs) :
    Named { s with procs := procs, frontend := f, requested := requested } := by
  apply h.mono
  · rintro g (hg | hg | hg)
    · exact .inl hg
    · rcases hf with hf | hf
      · simp [hf] at hg
      · exact .inr (.inl (hf ▸ hg))
    · exact .inr (.inr hg)
  · intro m hm
    exact .inl (hprocs hm)
  · intro r hr
    exact .inl hr

theorem Named.step (h : Named s) (hst : Step s e t) (he : Orderly s e) : Named t := by
  cases hst with
  | launch hf hp => exact h.launch hp he
  | quiesce hs hq => exact h.quiesce hs hq he
  | fork hm hz hq => exact h.fork hm hz he
  | join hs hz hn => exact h.join hs hn he
  | create hs hz hg => exact h.create hs hg he
  | grouped hf | unpublished hf | asked hf | no_child hf | probe hf | term hf | term_absent hf
  | wait hf | waited_out hf =>
    exact h.frontend (.inr (by rw [hf]; rfl)) (List.Subset.refl _)
  | refused | clear | clear_other | reap_none | restart =>
    exact h.frontend (.inl rfl) (List.Subset.refl _)
  | probe_absent | wait_absent | kill | kill_absent =>
    exact h.frontend (.inl (After.next_group _)) (List.Subset.refl _)
  | abandoned hf hs | reap hf hs =>
    refine h.frontend (.inl rfl) ?_
    simp [hs]
  | waited hf hs =>
    refine h.frontend (.inr (by rw [hf]; rfl)) ?_
    simp [hs]
  | gather hs =>
    refine h.frontend (.inr rfl) ?_
    simp [hs]
  | request => exact h.frontend (.inr rfl) (List.Subset.refl _)
  | exit hs =>
    rename_i l r m
    refine h.mono (fun g hg => hg) ?_ (fun r hr => .inl hr)
    intro m' hm'
    simp only [List.mem_append, List.mem_cons] at hm'
    rcases hm' with hm' | rfl | hm'
    · exact .inl (by simp [hs, hm'])
    · exact .inr ⟨rfl, m, by simp [hs], rfl, rfl⟩
    · exact .inl (by simp [hs, hm'])
  | publish hf =>
    refine h.mono ?_ (fun m hm => .inl hm) (fun r hr => .inl hr)
    rintro g (hg | hg | hg)
    · exact .inr (.inl (by rw [hf]; exact hg))
    · exact .inr (.inl (by rw [hf]; exact hg))
    · exact .inr (.inr hg)
  | unlink hf =>
    refine h.mono ?_ (fun m hm => .inl hm) (fun r hr => .inl hr)
    rintro g (hg | hg | hg)
    · simp at hg
    · simp [Frontend.group] at hg
    · exact .inr (.inr hg)
  | enter =>
    refine h.mono ?_ (fun m hm => .inl hm) ?_
    · rintro g (hg | hg | ⟨r, hr, hg⟩)
      · exact .inl hg
      · exact .inr (.inl hg)
      · simp only [List.mem_append, List.mem_singleton] at hr
        rcases hr with hr | rfl
        · exact .inr (.inr ⟨r, hr, hg⟩)
        · simp [Quiesce.group] at hg
    · intro r hr
      simpa using hr
  | quit listed hs =>
    rename_i l r ok
    have hsub : ∀ r' ∈ l ++ r, r' ∈ s.runs := by
      intro r' hr'
      simp only [hs, List.mem_append, List.mem_cons] at hr' ⊢
      tauto
    refine h.mono ?_ (fun m hm => .inl hm) (fun r' hr' => .inl (hsub r' hr'))
    rintro g (hg | hg | ⟨r', hr', hg⟩)
    · exact .inl hg
    · exact .inr (.inl hg)
    · exact .inr (.inr ⟨r', hsub r' hr', hg⟩)

/-! ### What the signals reach -/

/-- A signal of a step goes to a group that is there and held; a run that ends well has ended
its scan of the group, or has found no marker. -/
theorem Step.shows (h : Step s e t) :
    (∀ g, e = .signalled g → Held s g ∧ Present s g) ∧
      (e = .returned true → .pids true ∈ s.runs) := by
  cases h with
  | term hf hg | kill hf hg =>
    refine ⟨?_, by simp⟩
    rintro g ⟨⟩
    exact ⟨.inr (.inl (by rw [hf]; rfl)), hg⟩
  | quiesce hs hq =>
    rename_i l r q q' marker
    have hmem : q ∈ s.runs := by simp [hs]
    cases hq with
    | term hg | cont hg | kill hg =>
      refine ⟨?_, by simp⟩
      rintro g ⟨⟩
      exact ⟨.inr (.inr ⟨_, hmem, rfl⟩), hg⟩
    | no_marker | marker | listed | found | passed | scanned | term_absent | cont_absent
    | kill_absent | remove => simp
  | quit listed hs =>
    rename_i l r ok
    refine ⟨by simp, ?_⟩
    intro hok
    have hboth : ok = true ∧ listed = true := by simpa using hok
    simp [hs, hboth.1]
  | _ => simp

theorem Named.good (h : Named s) (hst : Step s e t) : Good s e := by
  obtain ⟨hsignal, hreturn⟩ := hst.shows
  cases e with
  | signalled g =>
    obtain ⟨hheld, m, hm, hg⟩ := hsignal g rfl
    have hours := h.held g hheld
    exact ⟨⟨m, hm, hg, hours m hm hg⟩, hours⟩
  | returned ok =>
    cases ok with
    | false => trivial
    | true =>
      intro m hm hours
      by_contra hz
      exact h.seen _ (hreturn rfl) m ⟨hm, hours, by simpa using hz⟩
  | launched | created | forked | joined | looked | moved => trivial

/-- In an orderly run every group signal reaches a launch and nobody else, and a terminate run
that returns 0 leaves no launch alive. -/
theorem foreground_marker_names_launch (s t u : State) (es : List Event) (e : Event)
    (hs : Initial s) (hrun : Run (fun s e t => Step s e t ∧ Orderly s e) s es t)
    (hlast : Step t e u) : Good t e := by
  have hnamed : Named t := hrun.keeps hs.named fun ht hstep => ht.step hstep.1 hstep.2
  exact hnamed.good hlast

/-- Another program, and a game with its id and its group. -/
def other : Proc := ⟨1, 1, false, false⟩
def game : Proc := ⟨100, 100, true, false⟩

/-- The system before the first launch. -/
def fresh : State := ⟨[other], none, .idle, false, []⟩

theorem fresh_initial : Initial fresh := by
  simp [Initial, fresh, other]

theorem fresh_launch :
    Step fresh (.launched 100) ⟨[other, game], none, .forked 100, false, []⟩ :=
  .launch rfl ⟨by decide, by decide⟩

/-- The frontend is asked to end while its game, published, is under way. -/
theorem foreground_marker_names_launch_sample :
    Good ⟨[other, game], some 100, .terminating 100 .term .reap, true, []⟩
      (.signalled 100) := by
  have h₁ : Step ⟨[other, game], none, .forked 100, false, []⟩ .moved
      ⟨[other, game], none, .publishing 100, false, []⟩ := .grouped rfl
  have h₂ : Step ⟨[other, game], none, .publishing 100, false, []⟩ .moved
      ⟨[other, game], some 100, .running 100, false, []⟩ := .publish rfl
  have h₃ : Step ⟨[other, game], some 100, .running 100, false, []⟩ .moved
      ⟨[other, game], some 100, .running 100, true, []⟩ := .request
  have h₄ : Step ⟨[other, game], some 100, .running 100, true, []⟩ .moved
      ⟨[other, game], some 100, .terminating 100 .probe .reap, true, []⟩ := .asked rfl rfl
  have h₅ : Step ⟨[other, game], some 100, .terminating 100 .probe .reap, true, []⟩ .moved
      ⟨[other, game], some 100, .terminating 100 .term .reap, true, []⟩ :=
    .probe rfl ⟨game, by decide, rfl⟩
  have h₆ : Step ⟨[other, game], some 100, .terminating 100 .term .reap, true, []⟩
      (.signalled 100) ⟨[other, game], some 100, .terminating 100 (.wait 10) .reap, true, []⟩ :=
    .term rfl ⟨game, by decide, rfl⟩
  have hlaunch : Orderly fresh (.launched 100) := by
    intro r hr
    simp [fresh] at hr
  exact foreground_marker_names_launch fresh _ _ _ _ fresh_initial
    (((((Run.nil.concat ⟨fresh_launch, hlaunch⟩).concat ⟨h₁, trivial⟩).concat
      ⟨h₂, trivial⟩).concat ⟨h₃, trivial⟩).concat ⟨h₄, trivial⟩ |>.concat ⟨h₅, trivial⟩) h₆

/-- The frontend reaps the child, another program takes the id, and the group signal that
follows goes to it; and a run finds no marker where the launch could not be published. -/
theorem reused_group_signalled :
    (∃ es t u, Run Step fresh es t ∧ Step t (.signalled 100) u ∧ ¬ Good t (.signalled 100)) ∧
      (∃ es t u, Run Step fresh es t ∧ Step t (.returned true) u ∧
        ¬ Good t (.returned true)) := by
  have h₁ : Step ⟨[other, game], none, .forked 100, false, []⟩ .moved
      ⟨[other, game], none, .publishing 100, false, []⟩ := .grouped rfl
  have hrun := (Run.nil.concat fresh_launch).concat h₁
  constructor
  · have h₂ : Step ⟨[other, game], none, .publishing 100, false, []⟩ .moved
        ⟨[other, game], some 100, .running 100, false, []⟩ := .publish rfl
    have h₃ : Step ⟨[other, game], some 100, .running 100, false, []⟩ .moved
        ⟨[other, { game with zombie := true }], some 100, .running 100, false, []⟩ :=
      .exit (l := [other]) rfl
    have h₄ : Step ⟨[other, { game with zombie := true }], some 100, .running 100, false, []⟩
        .moved ⟨[other], some 100, .terminating 100 .probe .clear, false, []⟩ :=
      .waited (l := [other]) rfl rfl rfl rfl
    have h₅ : Step ⟨[other], some 100, .terminating 100 .probe .clear, false, []⟩
        (.forked 100 1)
        ⟨[other, ⟨100, 1, false, false⟩], some 100, .terminating 100 .probe .clear, false, []⟩ :=
      .fork (m := other) (by decide) rfl ⟨by decide, by decide⟩
    have habsent : ¬ Present
        ⟨[other, ⟨100, 1, false, false⟩], some 100, .terminating 100 .probe .clear, false, []⟩
        100 := by
      simp [Present, other]
    have h₆ : Step
        ⟨[other, ⟨100, 1, false, false⟩], some 100, .terminating 100 .probe .clear, false, []⟩
        (.created 100)
        ⟨[other, ⟨100, 100, false, false⟩], some 100, .terminating 100 .probe .clear, false,
          []⟩ :=
      .create (l := [other]) (m := ⟨100, 1, false, false⟩) rfl rfl habsent
    have h₇ : Step
        ⟨[other, ⟨100, 100, false, false⟩], some 100, .terminating 100 .probe .clear, false, []⟩
        .moved
        ⟨[other, ⟨100, 100, false, false⟩], some 100, .terminating 100 .term .clear, false,
          []⟩ :=
      .probe rfl ⟨⟨100, 100, false, false⟩, by decide, rfl⟩
    refine ⟨_, _, _, ((((((hrun.concat h₂).concat h₃).concat h₄).concat h₅).concat h₆).concat h₇),
      .term rfl ⟨⟨100, 100, false, false⟩, by decide, rfl⟩, ?_⟩
    rintro ⟨-, hours⟩
    have htaken := hours ⟨100, 100, false, false⟩ (by decide) rfl
    exact Bool.false_ne_true htaken
  · have h₂ : Step ⟨[other, game], none, .publishing 100, false, []⟩ .moved
        ⟨[other, game], none, .running 100, false, []⟩ := .unpublished rfl
    have h₃ : Step ⟨[other, game], none, .running 100, false, []⟩ .moved
        ⟨[other, game], none, .running 100, false, [.start]⟩ := .enter
    have h₄ : Step ⟨[other, game], none, .running 100, false, [.start]⟩ .looked
        ⟨[other, game], none, .running 100, false, [.pids true]⟩ :=
      .quiesce (l := []) rfl (.no_marker rfl)
    have h₅ : Step ⟨[other, game], none, .running 100, false, [.pids true]⟩ (.returned true)
        ⟨[other, game], none, .running 100, false, []⟩ := @Step.quit _ [] [] true true rfl
    refine ⟨_, _, _, ((hrun.concat h₂).concat h₃).concat h₄, h₅, ?_⟩
    intro hgood
    exact Bool.false_ne_true (hgood game (by decide) rfl)

end PlumosBubble.Foreground
