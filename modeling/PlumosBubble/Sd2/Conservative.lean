import PlumosBubble.Transition.Run
import PlumosBubble.Sd2.Mounts

/-! What calls of `plumos-bubble-mount-sd2` do to the mounts: no partition of the storage
disk is mounted, no mount of another device is touched, nothing is mounted twice, and a stop
that succeeds leaves the table that the first start has found. -/

namespace PlumosBubble.Sd2.Content

open Frontend Scripts Transition

section Table

/-- The mount points of a table. -/
def targets (rows : List Row) : List CString := rows.map Row.target

variable {rows front : List Row} {path target : CString} {f : Row → List Row}

theorem mountSource_eq_none : mountSource rows path = none ↔ path ∉ targets rows := by
  simp only [mountSource, Option.map_eq_none_iff, List.find?_eq_none, decide_eq_true_eq, targets,
    List.mem_map, not_exists, not_and]

theorem any_target : rows.any (·.target = target) = true ↔ target ∈ targets rows := by
  simp [targets]

theorem changeTop_absent (h : target ∉ targets rows) : changeTop target f rows = rows := by
  cases rows with
  | nil => rfl
  | cons row rows =>
    simp only [targets, List.map_cons, List.mem_cons, not_or] at h
    rw [changeTop, if_neg (fun hany => h.2 (any_target.mp hany)), if_neg (Ne.symm h.1)]

theorem changeTop_append (h : target ∉ targets front) :
    changeTop target f (front ++ rows) = front ++ changeTop target f rows := by
  induction front with
  | nil => rfl
  | cons row front ih =>
    simp only [targets, List.map_cons, List.mem_cons, not_or] at h
    rw [List.cons_append, changeTop, ih h.2]
    by_cases hmem : target ∈ targets rows
    · have hany : (front ++ rows).any (·.target = target) = true := by
        rw [List.any_append, any_target.mpr hmem, Bool.or_true]
      rw [if_pos hany, List.cons_append]
    · rw [changeTop_absent hmem, if_neg (Ne.symm h.1)]
      split_ifs <;> rfl

theorem targets_remount (readOnly : Bool) :
    targets (changeTop target (fun row => [{ row with readOnly }]) rows) = targets rows := by
  induction rows with
  | nil => rfl
  | cons row rows ih =>
    rw [changeTop]
    split_ifs
    · simp only [targets, List.map_cons] at ih ⊢
      rw [ih]
    · rfl
    · rfl

theorem umount_sublist : (changeTop target (fun _ => []) rows).Sublist rows := by
  induction rows with
  | nil => exact List.Sublist.refl _
  | cons row rows ih =>
    rw [changeTop]
    split_ifs
    · exact ih.cons_cons row
    · exact List.sublist_cons_self row rows
    · exact List.Sublist.refl _

theorem umount_absent (h : (targets rows).count target ≤ 1) :
    target ∉ targets (changeTop target (fun _ => []) rows) := by
  induction rows with
  | nil => simp [changeTop, targets]
  | cons row rows ih =>
    have hcount : (targets (row :: rows)).count target =
        (targets rows).count target + if row.target = target then 1 else 0 := by
      simp [targets, List.count_cons]
    rw [hcount] at h
    rw [changeTop]
    split_ifs with hany hrow
    · have hpos := List.count_pos_iff.mpr (any_target.mp hany)
      have hne : row.target ≠ target := by
        intro heq
        rw [if_pos heq] at h
        omega
      have hrest := ih (by omega)
      simp only [targets, List.map_cons, List.mem_cons, not_or] at hrest ⊢
      exact ⟨Ne.symm hne, hrest⟩
    · exact fun hmem => hany (any_target.mpr hmem)
    · simp only [targets, List.map_cons, List.mem_cons, not_or]
      exact ⟨Ne.symm hrow, fun hmem => hany (any_target.mpr hmem)⟩

end Table

section Steps

/-- A target of content. -/
def Config.IsContent (c : Config) (target : CString) : Prop :=
  target = c.romTarget ∨ target = c.biosTarget

/-- What the script makes sure of before a command. -/
def Command.Permitted (c : Config) (m : Mounts) : Command → Prop
  | mount device target _ => target = c.sd2Mount ∧ mountSource m.rows target = none ∧
      ∀ source, mountSource m.rows storage = some source → deviceDisk device ≠ deviceDisk source
  | remount target _ => target = c.sd2Mount
  | remountBind target _ => c.IsContent target ∧
      ∃ device, mountSource m.rows target = some device ∧
        mountSource m.rows c.sd2Mount = some device
  | bind _ target => c.IsContent target ∧ mountSource m.rows target = none ∧
      mountSource m.rows c.sd2Mount ≠ none
  | umount target => target = c.sd2Mount ∨ c.IsContent target ∧
      ∃ device, mountSource m.rows target = some device ∧
        mountSource m.rows c.sd2Mount = some device

/-- The commands of a call; a start mounts the device that it has resolved. -/
def Call.Uses (m : Mounts) : Call → Command → Prop
  | start w, .mount device _ _ => resolveDevice w m.rows = some device
  | start _, .umount _ => False
  | start _, _ => True
  | stop, .umount _ => True
  | stop, .remount _ _ => True
  | stop, _ => False

/-- A command of one of the calls. -/
def Does (c : Config) (calls : List Call) (m : Mounts) (r : Record) (m' : Mounts) : Prop :=
  r.mounts = m ∧ m' = (if r.ok then r.command.effect m else m) ∧ r.command.Permitted c m ∧
    ∃ call ∈ calls, call.Uses m r.command

/-- The mounts and the log come from the commands of the calls. -/
def Reached (c : Config) (calls : List Call) (s t : State) : Prop :=
  ∃ records, t.log = s.log ++ records ∧ Run (Does c calls) s.mounts records t.mounts

variable {c : Config} {calls : List Call} {s t : State} {command : Command}
  {Q : Bool → State → Prop} {E : Empty → State → Prop}

theorem Reached.refl (c : Config) (calls : List Call) (s : State) : Reached c calls s s :=
  ⟨[], (List.append_nil _).symm, Run.nil⟩

theorem Reached.concat (h : Reached c calls s t) (hpermitted : command.Permitted c t.mounts)
    (huses : ∃ call ∈ calls, call.Uses t.mounts command) (ok : Bool) :
    Reached c calls s
      ⟨if ok then command.effect t.mounts else t.mounts,
        t.log ++ [⟨t.mounts, command, ok⟩]⟩ := by
  obtain ⟨records, hlog, hrun⟩ := h
  refine ⟨records ++ [⟨t.mounts, command, ok⟩], ?_, hrun.concat ⟨rfl, rfl, hpermitted, huses⟩⟩
  rw [hlog, List.append_assoc]

theorem wp_attempt (h : Reached c calls s t) (hpermitted : command.Permitted c t.mounts)
    (huses : ∃ call ∈ calls, call.Uses t.mounts command)
    (hok : Reached c calls s
        ⟨command.effect t.mounts, t.log ++ [⟨t.mounts, command, true⟩]⟩ →
      Q true ⟨command.effect t.mounts, t.log ++ [⟨t.mounts, command, true⟩]⟩)
    (hfail : Reached c calls s ⟨t.mounts, t.log ++ [⟨t.mounts, command, false⟩]⟩ →
      Q false ⟨t.mounts, t.log ++ [⟨t.mounts, command, false⟩]⟩) :
    wp (Reached c calls s) Q E (attempt command) t := by
  have hdone := h.concat hpermitted huses true
  have hleft := h.concat hpermitted huses false
  unfold attempt
  rw [wp_run]
  refine ⟨by simp, fun o ho => ?_⟩
  rcases mem_pair ho with rfl | rfl
  · exact ⟨hdone, hok hdone⟩
  · exact ⟨hleft, hfail hleft⟩

theorem wp_succeeds (h : Reached c calls s t) (hQ : ∀ b, Q b t) :
    wp (Reached c calls s) Q E succeeds t := by
  unfold succeeds
  rw [wp_run]
  refine ⟨by simp, fun o ho => ?_⟩
  rcases mem_pair ho with rfl | rfl <;> exact ⟨h, hQ _⟩

end Steps

section Scripts

variable {c : Config} {calls : List Call} {s t : State} {E : Empty → State → Prop}

theorem bindContentDir_wp {w : Surroundings} (hcall : Call.start w ∈ calls)
    {sourceDir targetDir : CString} (htarget : c.IsContent targetDir) (h : Reached c calls s t) :
    wp (Reached c calls s) (fun _ => Reached c calls s) E
      (bindContentDir c sourceDir targetDir) t := by
  unfold bindContentDir
  rw [wp_bind, wp_read]
  refine ⟨h, ?_⟩
  cases hsd2 : mountSource t.mounts.rows c.sd2Mount with
  | none => exact h
  | some sd2Source =>
    cases hcurrent : mountSource t.mounts.rows targetDir with
    | some currentSource =>
      simp only
      split_ifs with hsame haccess
      · exact wp_attempt h ⟨htarget, sd2Source, by rw [hcurrent, hsame], hsd2⟩
          ⟨_, hcall, trivial⟩ (fun h => h) fun h => h
      · exact h
      · exact h
    | none =>
      simp only
      rw [wp_bind]
      refine wp_succeeds h fun made => ?_
      split_ifs
      · exact wp_attempt h ⟨htarget, hcurrent, by simp [hsd2]⟩ ⟨_, hcall, trivial⟩ (fun h => h)
          fun h => h
      · exact h

theorem bindFound_wp {w : Surroundings} (hcall : Call.start w ∈ calls)
    {found : Option CString} {targetDir : CString} (htarget : c.IsContent targetDir)
    (h : Reached c calls s t) :
    wp (Reached c calls s) (fun _ => Reached c calls s) E (bindFound c found targetDir) t := by
  cases found with
  | some sourceDir => exact bindContentDir_wp hcall htarget h
  | none => exact h

theorem resolveDevice_disk {w : Surroundings} {rows : List Row} {device source : CString}
    (h : resolveDevice w rows = some device) (hsource : mountSource rows storage = some source) :
    deviceDisk device ≠ deviceDisk source := by
  unfold resolveDevice validateDevice at h
  split_ifs at h with hvalid
  cases h
  rw [hsource] at hvalid
  simp only [Bool.and_eq_true, decide_eq_true_eq] at hvalid
  exact hvalid.2.2

theorem mountSd2_wp {w : Surroundings} (hcall : Call.start w ∈ calls)
    (h : Reached c calls s t) :
    wp (Reached c calls s) (fun _ => Reached c calls s) E (mountSd2 c w) t := by
  unfold mountSd2
  rw [wp_bind, wp_read]
  refine ⟨h, ?_⟩
  cases hdevice : resolveDevice w t.mounts.rows with
  | none => exact h
  | some device =>
    cases hmounted : mountSource t.mounts.rows c.sd2Mount with
    | some mountedSource =>
      simp only
      split_ifs with hsame haccess
      · rw [wp_bind]
        exact wp_attempt h rfl ⟨_, hcall, trivial⟩ (fun h => h) fun h => h
      · exact h
      · exact h
    | none =>
      have hpermitted : ∀ readOnly,
          (Command.mount device c.sd2Mount readOnly).Permitted c t.mounts :=
        fun _ => ⟨rfl, hmounted, fun _ hsource => resolveDevice_disk hdevice hsource⟩
      simp only
      rw [wp_bind]
      refine wp_attempt h (hpermitted _) ⟨_, hcall, hdevice⟩ (fun h => h) fun hleft => ?_
      simp only [Bool.false_eq_true, if_false]
      split_ifs
      · exact hleft
      · rw [wp_bind]
        exact wp_attempt hleft (hpermitted _) ⟨_, hcall, hdevice⟩ (fun h => h) fun h => h

theorem startSd2_wp {w : Surroundings} (hcall : Call.start w ∈ calls)
    (h : Reached c calls s t) :
    wp (Reached c calls s) (fun _ => Reached c calls s) E (startSd2 c w) t := by
  unfold startSd2
  rw [wp_bind]
  refine wp_mono (mountSd2_wp hcall h) (fun _ h => h) (fun mountRc u hu => ?_) fun _ _ h => h
  split_ifs
  · rw [wp_bind]
    refine wp_mono (bindFound_wp hcall (Or.inl rfl) hu) (fun _ h => h) (fun roms v hv => ?_)
      fun _ _ h => h
    rw [wp_bind]
    exact wp_mono (bindFound_wp hcall (Or.inr rfl) hv) (fun _ h => h) (fun _ _ h => h)
      fun _ _ h => h
  · exact hu

/-- No target is mounted more than once. -/
def OneEach (c : Config) (m : Mounts) : Prop :=
  ∀ target, target = c.sd2Mount ∨ c.IsContent target → (targets m.rows).count target ≤ 1

theorem unbindContentDir_wp (hcall : Call.stop ∈ calls) {targetDir : CString}
    (htarget : c.IsContent targetDir) (h : Reached c calls s t) :
    wp (Reached c calls s)
      (fun ok u => Reached c calls s u ∧ (targets u.mounts.rows).Sublist (targets t.mounts.rows) ∧
        (ok = true → OneEach c t.mounts → targetDir ∉ targets u.mounts.rows)) E
      (unbindContentDir c targetDir) t := by
  unfold unbindContentDir
  rw [wp_bind, wp_read]
  refine ⟨h, ?_⟩
  cases hcurrent : mountSource t.mounts.rows targetDir with
  | none => exact ⟨h, List.Sublist.refl _, fun _ _ => mountSource_eq_none.mp hcurrent⟩
  | some currentSource =>
    simp only
    split_ifs with hsd2
    · refine wp_attempt h (Or.inr ⟨htarget, currentSource, hcurrent, hsd2⟩) ⟨_, hcall, trivial⟩
        (fun hu => ⟨hu, umount_sublist.map _,
          fun _ hone => umount_absent (hone _ (Or.inr htarget))⟩)
        fun hu => ⟨hu, List.Sublist.refl _, fun hok => by cases hok⟩
    · exact ⟨h, List.Sublist.refl _, fun hok => by cases hok⟩

theorem unmountSd2_wp (hcall : Call.stop ∈ calls) (h : Reached c calls s t) :
    wp (Reached c calls s)
      (fun ok u => Reached c calls s u ∧ (targets u.mounts.rows).Sublist (targets t.mounts.rows) ∧
        (ok = true → OneEach c t.mounts → c.sd2Mount ∉ targets u.mounts.rows)) E
      (unmountSd2 c) t :=
  wp_attempt h (Or.inl rfl) ⟨_, hcall, trivial⟩
    (fun hu => ⟨hu, umount_sublist.map _, fun _ hone => umount_absent (hone _ (Or.inl rfl))⟩)
    fun hu => ⟨hu, List.Sublist.refl _, fun hok => by cases hok⟩

theorem stopSd2_wp (hcall : Call.stop ∈ calls) (h : Reached c calls s t) :
    wp (Reached c calls s)
      (fun ok u => Reached c calls s u ∧
        (ok = true → (∀ v, Reached c calls s v → OneEach c v.mounts) →
          ∀ target, target = c.sd2Mount ∨ c.IsContent target → target ∉ targets u.mounts.rows)) E
      (stopSd2 c) t := by
  unfold stopSd2
  rw [wp_bind]
  refine wp_mono (unbindContentDir_wp hcall (Or.inr rfl) h) (fun _ h => h)
    (fun bios u hu => ?_) fun _ _ h => h
  obtain ⟨hu, hsubu, hbios⟩ := hu
  rw [wp_bind]
  refine wp_mono (unbindContentDir_wp hcall (Or.inl rfl) hu) (fun _ h => h)
    (fun roms v hv => ?_) fun _ _ h => h
  obtain ⟨hv, hsubv, hroms⟩ := hv
  split_ifs with hboth
  · rw [Bool.and_eq_true] at hboth
    have hfree : ∀ {x : State}, (targets x.mounts.rows).Sublist (targets v.mounts.rows) →
        (∀ v, Reached c calls s v → OneEach c v.mounts) → c.sd2Mount ∉ targets x.mounts.rows →
        ∀ target, target = c.sd2Mount ∨ c.IsContent target → target ∉ targets x.mounts.rows := by
      intro x hsub hone hsd2 target htarget hmem
      rcases htarget with rfl | rfl | rfl
      · exact hsd2 hmem
      · exact hroms hboth.2 (hone u hu) (hsub.subset hmem)
      · exact hbios hboth.1 (hone t h) (hsubv.subset (hsub.subset hmem))
    rw [wp_bind, wp_read]
    refine ⟨hv, ?_⟩
    cases hsd2 : mountSource v.mounts.rows c.sd2Mount with
    | none =>
      exact ⟨hv, fun _ hone => hfree (List.Sublist.refl _) hone (mountSource_eq_none.mp hsd2)⟩
    | some source =>
      simp only
      split_ifs with haccess
      · refine wp_mono (unmountSd2_wp hcall hv) (fun _ h => h) (fun ok x hx => ?_) fun _ _ h => h
        exact ⟨hx.1, fun hok hone => hfree hx.2.1 hone (hx.2.2 hok (hone v hv))⟩
      · rw [wp_bind]
        refine wp_attempt hv rfl ⟨_, hcall, trivial⟩ (fun hx => ?_)
          fun hx => ⟨hx, fun hok => by cases hok⟩
        refine wp_mono (unmountSd2_wp hcall hx) (fun _ h => h) (fun ok y hy => ?_) fun _ _ h => h
        refine ⟨hy.1, fun hok hone => hfree ?_ hone (hy.2.2 hok (hone _ hx))⟩
        have hsame := hy.2.1
        change (targets y.mounts.rows).Sublist
          (targets (changeTop c.sd2Mount (fun row => [{ row with readOnly := true }])
            v.mounts.rows)) at hsame
        rwa [targets_remount] at hsame
  · exact ⟨hv, fun hok => by cases hok⟩

theorem call_keeps {call : Call} (hcall : call ∈ calls) :
    Keeps (Reached c calls s) (call.script c) := by
  constructor
  intro t h
  cases call with
  | start w => exact wp_mono (startSd2_wp hcall h) (fun _ h => h) (fun _ _ h => h) fun _ _ h => h
  | stop => exact wp_mono (stopSd2_wp hcall h) (fun _ h => h) (fun _ _ h => h.1) fun _ _ h => h

theorem callAll_keeps : Keeps (Reached c calls s) (callAll c calls) :=
  Keeps.forEach fun _ hcall => Keeps.bind (call_keeps hcall) fun _ => Keeps.pure ()

end Scripts

section Runs

variable {c : Config} {calls : List Call} {m₀ m m' : Mounts} {records : List Record}
  {r : Record} {path target : CString}

theorem permitted_run (h : Run (Does c calls) m₀ records m) :
    ∀ r ∈ records, r.command.Permitted c r.mounts := by
  refine h.invariant (I := fun records _ => ∀ r ∈ records, r.command.Permitted c r.mounts)
    (fun r hr => absurd hr List.not_mem_nil) fun {es m₁ r' m₂} _ hold hstep r hr => ?_
  rcases List.mem_append.mp hr with hr | hr
  · exact hold r hr
  · rw [List.mem_singleton.mp hr, hstep.1]
    exact hstep.2.2.1

theorem mem_remount {rows : List Row} {readOnly : Bool} {row : Row}
    (h : row ∈ changeTop target (fun row => [{ row with readOnly }]) rows) :
    ∃ old ∈ rows, old.source = row.source ∧ old.target = row.target := by
  induction rows with
  | nil => simp [changeTop] at h
  | cons first rows ih =>
    rw [changeTop] at h
    split_ifs at h
    · rcases List.mem_cons.mp h with rfl | h
      · exact ⟨row, List.mem_cons_self, rfl, rfl⟩
      · obtain ⟨old, hold, hsame⟩ := ih h
        exact ⟨old, List.mem_cons_of_mem _ hold, hsame⟩
    · rcases List.mem_append.mp h with h | h
      · rw [List.mem_singleton] at h
        subst h
        exact ⟨first, List.mem_cons_self, rfl, rfl⟩
      · exact ⟨row, List.mem_cons_of_mem _ h, rfl, rfl⟩
    · exact ⟨row, h, rfl, rfl⟩

/-- All mounts on a path are of one source. -/
def Agreed (path : CString) (rows : List Row) : Prop :=
  ∀ row ∈ rows, ∀ other ∈ rows, row.target = path → other.target = path →
    row.source = other.source

theorem Agreed.append_absent {rows : List Row} {row : Row} (h : Agreed path rows)
    (hnone : row.target ∉ targets rows) : Agreed path (rows ++ [row]) := by
  intro first hfirst second hsecond hpath hpath'
  rcases List.mem_append.mp hfirst with hin | hlast <;>
    rcases List.mem_append.mp hsecond with hin' | hlast'
  · exact h first hin second hin' hpath hpath'
  · rw [List.mem_singleton] at hlast'
    have hmem : row.target ∈ targets rows :=
      List.mem_map.mpr ⟨first, hin, by rw [hpath, ← hpath', hlast']⟩
    exact absurd hmem hnone
  · rw [List.mem_singleton] at hlast
    have hmem : row.target ∈ targets rows :=
      List.mem_map.mpr ⟨second, hin', by rw [hpath', ← hpath, hlast]⟩
    exact absurd hmem hnone
  · rw [List.mem_singleton.mp hlast, List.mem_singleton.mp hlast']

theorem agreed_step (h : Agreed path m.rows) (hstep : Does c calls m r m') :
    Agreed path m'.rows := by
  obtain ⟨-, rfl, hpermitted, -⟩ := hstep
  cases r.ok with
  | false => exact h
  | true =>
    rw [if_pos rfl]
    have hremount : ∀ target readOnly,
        Agreed path (changeTop target (fun row => [{ row with readOnly }]) m.rows) := by
      intro target readOnly row hrow other hother hpath hpath'
      obtain ⟨old, hold, hsource, htarget⟩ := mem_remount hrow
      obtain ⟨old', hold', hsource', htarget'⟩ := mem_remount hother
      rw [← hsource, ← hsource']
      exact h old hold old' hold' (htarget.trans hpath) (htarget'.trans hpath')
    cases hcommand : r.command with
    | mount device target readOnly =>
      rw [hcommand] at hpermitted
      exact h.append_absent (mountSource_eq_none.mp hpermitted.2.1)
    | remount target readOnly => exact hremount target readOnly
    | remountBind target readOnly => exact hremount target readOnly
    | bind directory target =>
      rw [hcommand] at hpermitted
      exact h.append_absent (mountSource_eq_none.mp hpermitted.2.1)
    | umount target =>
      exact fun row hrow other hother =>
        h row (umount_sublist.subset hrow) other (umount_sublist.subset hother)

theorem Agreed.topSource {rows : List Row} (h : Agreed path rows) :
    topSource rows path = mountSource rows path := by
  unfold Content.topSource mountSource
  rw [List.findRev?_eq_find?_reverse]
  cases hfirst : rows.find? (·.target = path) with
  | none =>
    rw [List.find?_eq_none] at hfirst
    rw [List.find?_eq_none.mpr fun row hrow => hfirst row (List.mem_reverse.mp hrow)]
  | some row =>
    have hrow : row.target = path := by simpa using List.find?_some hfirst
    cases hlast : rows.reverse.find? (·.target = path) with
    | none =>
      rw [List.find?_eq_none] at hlast
      exact absurd (by simpa using hrow)
        (hlast row (List.mem_reverse.mpr (List.mem_of_find?_eq_some hfirst)))
    | some other =>
      have hother : other.target = path := by simpa using List.find?_some hlast
      simp only [Option.map_some, Option.some.injEq]
      exact h other (List.mem_reverse.mp (List.mem_of_find?_eq_some hlast)) row
        (List.mem_of_find?_eq_some hfirst) hother hrow

theorem agreed_run (h : Run (Does c calls) m₀ records m) (hstart : Agreed path m₀.rows) :
    ∀ r ∈ records, Agreed path r.mounts.rows := by
  have hall : (∀ r ∈ records, Agreed path r.mounts.rows) ∧ Agreed path m.rows := by
    refine h.invariant
      (I := fun records m => (∀ r ∈ records, Agreed path r.mounts.rows) ∧ Agreed path m.rows)
      ⟨fun r hr => absurd hr List.not_mem_nil, hstart⟩
      fun {es m₁ r' m₂} _ hold hstep => ⟨fun r hr => ?_, agreed_step hold.2 hstep⟩
    rcases List.mem_append.mp hr with hr | hr
    · exact hold.1 r hr
    · rw [List.mem_singleton.mp hr, hstep.1]
      exact hold.2
  exact hall.1

/-- No target is mounted, nor any device that a start of the calls resolves to. -/
structure Unmounted (c : Config) (calls : List Call) (m : Mounts) : Prop where
  targets : ∀ target, target = c.sd2Mount ∨ c.IsContent target → target ∉ Content.targets m.rows
  devices : ∀ w, Call.start w ∈ calls → ∀ device, resolveDevice w m.rows = some device →
    ∀ row ∈ m.rows, row.source ≠ device

/-- The table is that of the beginning, with mounts of the script behind it. -/
structure Extends (c : Config) (m₀ m : Mounts) (ours : List Row) : Prop where
  rows : m.rows = m₀.rows ++ ours
  own : ∀ row ∈ ours, row.target = c.sd2Mount ∨ c.IsContent row.target
  once : ∀ target, (targets ours).count target ≤ 1
  foreign : ∀ row ∈ ours, row.target = c.sd2Mount → ∀ old ∈ m₀.rows, old.source ≠ row.source
  frozen : ∀ old ∈ m₀.rows, m.frozen old.source = m₀.frozen old.source

theorem resolveDevice_front {w : Surroundings} {rows ours : List Row} {device : CString}
    (h : resolveDevice w (rows ++ ours) = some device) : resolveDevice w rows = some device := by
  unfold resolveDevice at h ⊢
  split_ifs at h with hvalid
  rw [if_pos ?_]
  · exact h
  · simp only [validateDevice, Bool.and_eq_true, mountSource, List.find?_append] at hvalid ⊢
    refine ⟨hvalid.1, ?_⟩
    cases hfirst : rows.find? (·.target = storage) with
    | none => simp
    | some row => simpa [hfirst] using hvalid.2

variable {ours : List Row}

theorem Extends.count_append {row : Row} (h : Extends c m₀ m ours)
    (hnone : mountSource m.rows row.target = none) (target : CString) :
    (targets (ours ++ [row])).count target ≤ 1 := by
  have hnot : row.target ∉ targets ours := by
    have habsent := mountSource_eq_none.mp hnone
    rw [h.rows, targets, List.map_append, List.mem_append, not_or] at habsent
    exact habsent.2
  rw [targets, List.map_append, List.count_append, List.map_singleton, List.count_singleton]
  by_cases heq : row.target = target
  · have hzero : (ours.map Row.target).count target = 0 :=
      List.count_eq_zero.mpr (heq ▸ hnot)
    rw [hzero]
    split_ifs <;> omega
  · have hone := h.once target
    rw [targets] at hone
    simpa [heq] using hone

theorem Extends.append (row : Row) (h : Extends c m₀ m ours)
    (hnone : mountSource m.rows row.target = none)
    (hown : row.target = c.sd2Mount ∨ c.IsContent row.target)
    (hforeign : row.target = c.sd2Mount → ∀ old ∈ m₀.rows, old.source ≠ row.source)
    (hrows : m'.rows = m.rows ++ [row])
    (hfrozen : ∀ old ∈ m₀.rows, m'.frozen old.source = m.frozen old.source) :
    Extends c m₀ m' (ours ++ [row]) := by
  refine ⟨by rw [hrows, h.rows, List.append_assoc], fun other hother => ?_, h.count_append hnone,
    fun other hother => ?_, fun old hold => (hfrozen old hold).trans (h.frozen old hold)⟩
  · rcases List.mem_append.mp hother with hother | hother
    · exact h.own other hother
    · rw [List.mem_singleton.mp hother]
      exact hown
  · rcases List.mem_append.mp hother with hother | hother
    · exact h.foreign other hother
    · rw [List.mem_singleton.mp hother]
      exact hforeign

theorem Extends.remount {readOnly : Bool} (h : Extends c m₀ m ours)
    (htarget : target ∉ targets m₀.rows)
    (hrows : m'.rows = changeTop target (fun row => [{ row with readOnly }]) m.rows)
    (hfrozen : ∀ old ∈ m₀.rows, m'.frozen old.source = m.frozen old.source) :
    Extends c m₀ m' (changeTop target (fun row => [{ row with readOnly }]) ours) := by
  refine ⟨by rw [hrows, h.rows, changeTop_append htarget], fun row hrow => ?_,
    fun path => by rw [targets_remount]; exact h.once path, fun row hrow hsd2 old hold => ?_,
    fun old hold => (hfrozen old hold).trans (h.frozen old hold)⟩
  · obtain ⟨old, hold, -, hsame⟩ := mem_remount hrow
    rw [← hsame]
    exact h.own old hold
  · obtain ⟨other, hother, hsource, hsame⟩ := mem_remount hrow
    rw [← hsource]
    exact h.foreign other hother (hsame.trans hsd2) old hold

theorem extends_step (hclean : Unmounted c calls m₀) (h : Extends c m₀ m ours)
    (hstep : Does c calls m r m') : ∃ ours', Extends c m₀ m' ours' := by
  obtain ⟨-, rfl, hpermitted, call, hcall, huses⟩ := hstep
  cases r.ok with
  | false => exact ⟨ours, h⟩
  | true =>
    rw [if_pos rfl]
    cases hcommand : r.command with
    | mount device target readOnly =>
      rw [hcommand] at hpermitted huses
      obtain ⟨rfl, hnone, -⟩ := hpermitted
      cases call with
      | stop => exact huses.elim
      | start w =>
        have hdevice : ∀ old ∈ m₀.rows, old.source ≠ device := by
          have hresolved : resolveDevice w m.rows = some device := huses
          rw [h.rows] at hresolved
          exact hclean.devices w hcall device (resolveDevice_front hresolved)
        refine ⟨_, h.append ⟨device, c.sd2Mount, readOnly⟩ hnone (Or.inl rfl)
          (fun _ => hdevice) rfl fun old hold => ?_⟩
        simp only [Command.effect]
        split_ifs
        · rfl
        · exact Function.update_of_ne (hdevice old hold) _ _
    | remount target readOnly =>
      rw [hcommand] at hpermitted
      cases hpermitted
      refine ⟨_, h.remount (hclean.targets _ (Or.inl rfl)) rfl fun old hold => ?_⟩
      simp only [Command.effect]
      cases htop : topSource m.rows c.sd2Mount with
      | none => rfl
      | some device =>
        unfold topSource at htop
        rw [List.findRev?_eq_find?_reverse, Option.map_eq_some_iff] at htop
        obtain ⟨row, hfound, rfl⟩ := htop
        have hrow := List.mem_reverse.mp (List.mem_of_find?_eq_some hfound)
        have hsd2 : row.target = c.sd2Mount := by simpa using List.find?_some hfound
        rw [h.rows] at hrow
        rcases List.mem_append.mp hrow with hrow | hrow
        · exact absurd (List.mem_map.mpr ⟨row, hrow, hsd2⟩) (hclean.targets _ (Or.inl rfl))
        · exact Function.update_of_ne (h.foreign row hrow hsd2 old hold) _ _
    | remountBind target readOnly =>
      rw [hcommand] at hpermitted
      exact ⟨_, h.remount (hclean.targets _ (Or.inr hpermitted.1)) rfl fun _ _ => rfl⟩
    | bind directory target =>
      rw [hcommand] at hpermitted
      refine ⟨_, h.append ⟨sourceOf m.rows directory, target, false⟩ hpermitted.2.1
        (Or.inr hpermitted.1) (fun hsd2 => ?_) rfl fun _ _ => rfl⟩
      change target = c.sd2Mount at hsd2
      exact absurd (hsd2 ▸ hpermitted.2.1) hpermitted.2.2
    | umount target =>
      rw [hcommand] at hpermitted
      have htarget : target ∉ targets m₀.rows :=
        hclean.targets target (hpermitted.imp_right And.left)
      refine ⟨changeTop target (fun _ => []) ours, ?_, fun row hrow => ?_, fun path => ?_,
        fun row hrow => ?_, h.frozen⟩
      · change changeTop target (fun _ => []) m.rows = _
        rw [h.rows, changeTop_append htarget]
      · exact h.own row (umount_sublist.subset hrow)
      · exact ((umount_sublist.map _).count_le path).trans (h.once path)
      · exact h.foreign row (umount_sublist.subset hrow)

theorem extends_run (hclean : Unmounted c calls m₀) (h : Run (Does c calls) m₀ records m) :
    ∃ ours, Extends c m₀ m ours :=
  h.keeps (I := fun m => ∃ ours, Extends c m₀ m ours)
    ⟨[], by simp, by simp, by simp [targets], by simp, fun _ _ => rfl⟩
    fun ⟨_, hours⟩ hstep => extends_step hclean hours hstep

theorem oneEach_run (hclean : Unmounted c calls m₀) (h : Run (Does c calls) m₀ records m) :
    OneEach c m := by
  obtain ⟨ours, hours⟩ := extends_run hclean h
  intro target htarget
  have hzero : (m₀.rows.map Row.target).count target = 0 :=
    List.count_eq_zero.mpr (hclean.targets target htarget)
  rw [hours.rows, targets, List.map_append, List.count_append, hzero, Nat.zero_add]
  exact hours.once target

theorem Extends.shown (h : Extends c m₀ m [])  : m.shown = m₀.shown := by
  have hrows : m.rows = m₀.rows := by rw [h.rows, List.append_nil]
  rw [Mounts.shown, Mounts.shown, hrows]
  exact List.map_congr_left fun row hrow => by rw [Mounts.access, Mounts.access, h.frozen row hrow]

/-- The command has mounted something on `target`. -/
def Record.mountsOn (target : CString) (r : Record) : Bool :=
  r.ok && match r.command with
    | .mount _ path _ | .bind _ path => path = target
    | _ => false

/-- How often something was mounted on `target`, counting a mount of the beginning. -/
def mountings (target : CString) (m₀ : Mounts) (records : List Record) : ℕ :=
  (records.filter (Record.mountsOn target)).length + if target ∈ targets m₀.rows then 1 else 0

theorem mountings_concat (target : CString) (m₀ : Mounts) (records : List Record) (r : Record) :
    mountings target m₀ (records ++ [r]) =
      mountings target m₀ records + if r.mountsOn target = true then 1 else 0 := by
  unfold mountings
  rw [List.filter_append, List.length_append]
  cases h : r.mountsOn target with
  | true =>
    simp only [h, List.filter_cons_of_pos, List.filter_nil, List.length_singleton, if_true]
    omega
  | false => simp [h]

theorem once_run (hstarts : ∀ call ∈ calls, ∃ w, call = .start w)
    (h : Run (Does c calls) m₀ records m) (target : CString) :
    mountings target m₀ records ≤ 1 ∧
      (0 < mountings target m₀ records → target ∈ targets m.rows) := by
  refine h.invariant (I := fun records m => mountings target m₀ records ≤ 1 ∧
    (0 < mountings target m₀ records → target ∈ targets m.rows)) ?_ ?_
  · unfold mountings
    rw [List.filter_nil, List.length_nil]
    split_ifs with hmem
    · exact ⟨by omega, fun _ => hmem⟩
    · exact ⟨by omega, fun hpos => by omega⟩
  · rintro es m₁ r m₂ - ⟨hone, hmounted⟩ ⟨-, rfl, hpermitted, call, hcall, huses⟩
    have hquiet : r.mountsOn target = false →
        (∀ path, path ∈ targets m₁.rows →
          path ∈ targets (if r.ok then r.command.effect m₁ else m₁).rows) →
        mountings target m₀ (es ++ [r]) ≤ 1 ∧ (0 < mountings target m₀ (es ++ [r]) →
          target ∈ targets (if r.ok then r.command.effect m₁ else m₁).rows) := by
      intro hnot hkept
      rw [mountings_concat, hnot]
      exact ⟨by simpa using hone, fun hpos => hkept target (hmounted (by simpa using hpos))⟩
    have hmount : ∀ row : Row, mountSource m₁.rows row.target = none →
        r.mountsOn target = decide (row.target = target) →
        (if r.ok then r.command.effect m₁ else m₁).rows = m₁.rows ++ [row] →
        mountings target m₀ (es ++ [r]) ≤ 1 ∧ (0 < mountings target m₀ (es ++ [r]) →
          target ∈ targets (if r.ok then r.command.effect m₁ else m₁).rows) := by
      intro row hnone hon hrows
      by_cases htarget : row.target = target
      · have hzero : ¬0 < mountings target m₀ es := fun hpos =>
          mountSource_eq_none.mp hnone (htarget ▸ hmounted hpos)
        rw [mountings_concat, hon, hrows]
        refine ⟨by simp [htarget]; omega, fun _ => ?_⟩
        simp [targets, htarget]
      · refine hquiet (by simp [hon, htarget]) fun path hpath => ?_
        rw [hrows, targets, List.map_append]
        exact List.mem_append_left _ hpath
    cases hok : r.ok with
    | false =>
      have hsame := hquiet (by simp [Record.mountsOn, hok]) (by simp [hok])
      rwa [hok] at hsame
    | true =>
      rw [hok] at hquiet hmount
      cases hcommand : r.command with
      | mount device path readOnly =>
        rw [hcommand] at hpermitted hmount
        exact hmount ⟨device, path, readOnly⟩ hpermitted.2.1
          (by simp [Record.mountsOn, hok, hcommand]) rfl
      | remount path readOnly =>
        rw [hcommand] at hquiet
        exact hquiet (by simp [Record.mountsOn, hcommand]) fun other hother => by
          rw [if_pos rfl]
          exact (targets_remount readOnly : _ = targets m₁.rows).symm ▸ hother
      | remountBind path readOnly =>
        rw [hcommand] at hquiet
        exact hquiet (by simp [Record.mountsOn, hcommand]) fun other hother => by
          rw [if_pos rfl]
          exact (targets_remount readOnly : _ = targets m₁.rows).symm ▸ hother
      | bind directory path =>
        rw [hcommand] at hpermitted hmount
        exact hmount ⟨sourceOf m₁.rows directory, path, false⟩ hpermitted.2.1
          (by simp [Record.mountsOn, hok, hcommand]) rfl
      | umount path =>
        obtain ⟨w, rfl⟩ := hstarts call hcall
        rw [hcommand] at huses
        exact huses.elim

end Runs

section Calls

variable {c : Config} {calls : List Call} {s t : State}

theorem run_of_reached (hlog : s.log = []) (h : Reached c calls s t) :
    Run (Does c calls) s.mounts t.log t.mounts := by
  obtain ⟨records, hrecords, hrun⟩ := h
  rw [hlog, List.nil_append] at hrecords
  rwa [hrecords]

theorem reached_of_leads {rest : Sh Unit} (h : Script.Leads (callAll c calls) s rest t) :
    Reached c calls s t :=
  leaves_of_wp (callAll_keeps.stays s (Reached.refl c calls s)) (Reached.refl c calls s)
    ⟨rest, h⟩

/-- Calls with a stop behind them. -/
def thenStop (c : Config) (calls : List Call) : Sh Bool := do
  callAll c calls
  stopSd2 c

theorem stopped_of_returns (h : (thenStop c calls).Returns s true t) :
    Reached c (.stop :: calls) s t ∧
      ((∀ v, Reached c (.stop :: calls) s v → OneEach c v.mounts) →
        ∀ target, target = c.sd2Mount ∨ c.IsContent target → target ∉ targets t.mounts.rows) := by
  have hstart := Reached.refl c (.stop :: calls) s
  have hcalls : Keeps (Reached c (.stop :: calls) s) (callAll c calls) :=
    Keeps.forEach fun _ hcall =>
      Keeps.bind (call_keeps (List.mem_cons_of_mem _ hcall)) fun _ => Keeps.pure ()
  have hwp : wp (Reached c (.stop :: calls) s) (fun ok u => Reached c (.stop :: calls) s u ∧
      (ok = true → (∀ v, Reached c (.stop :: calls) s v → OneEach c v.mounts) →
        ∀ target, target = c.sd2Mount ∨ c.IsContent target → target ∉ targets u.mounts.rows))
      (fun _ => Reached c (.stop :: calls) s) (thenStop c calls) s := by
    unfold thenStop
    rw [wp_bind]
    exact wp_mono (hcalls.stays s hstart) (fun _ h => h)
      (fun _ u hu => stopSd2_wp List.mem_cons_self hu) fun _ _ h => h
  have hend := returns_of_wp hwp hstart h
  exact ⟨hend.1, hend.2 rfl⟩

end Calls

/-- A card with games in the second slot, and nothing on its mount points. -/
def cardInserted : Surroundings where
  readOnly := false
  deviceOverride := []
  fallbackDevice := lit "/dev/mmcblk3p1"
  requestedUuid := []
  requestedLabel := []
  savedUuid := []
  savedLabel := []
  testAllowRegular := false
  findfs _ := none
  isBlock device := device = lit "/dev/mmcblk3p1"
  isRegular _ := false
  isDirectory path := path = lit "/run/media/sd2/roms"

def defaultPaths : Config :=
  ⟨lit "/run/media/sd2", lit "/storage/user/Roms", lit "/storage/user/BIOS"⟩

def beforeStart : State := ⟨⟨[⟨lit "/dev/mmcblk2p8", storage, false⟩], fun _ => false⟩, []⟩

end PlumosBubble.Sd2.Content
