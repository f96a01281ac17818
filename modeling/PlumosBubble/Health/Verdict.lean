import PlumosBubble.Health.Status

/-! A dirty verdict lasts while no run ends without a verdict of its own: a refused, missing or
interrupted checker overwrites it. -/

namespace PlumosBubble.Health

open Update (Text)

section Events

/-- A completed run. -/
inductive Event where
  | observe (e : Surroundings)
  | check (e : Surroundings)
  | repair (a : Attempt)

def Event.step (s : Store) : Event → Store
  | .observe e => storageHealth .observe e s
  | .check e => storageHealth .check e s
  | .repair a => sd2Repair a s

/-- The recorded result of a device. -/
def Store.verdict (s : Store) (device : Text) : Option Result :=
  (s.media (mediaKey device)).map Report.result

/-- The checker is run on the mounted device. -/
def Surroundings.Checks (e : Surroundings) (m : Mount) : Prop :=
  e.kernelError (kernelName m.device) = false ∧ readOnly m.options = true ∧ e.checker = true

/-- No refusal of the repair holds. -/
def Attempt.Checks (a : Attempt) (m : Mount) : Prop :=
  isRepairable m.fstype = true ∧ a.safeDevice m = true ∧ a.osDevice m = false ∧
    a.toolsPresent = true ∧ a.stopOk = true

/-- A checker run on the device returns clean. -/
def Event.Clears (device : Text) : Event → Prop
  | .observe _ => False
  | .check e => ∃ m, e.line = some m ∧ m.device = device ∧ e.Checks m ∧ e.checkRc = 0
  | .repair a => a.Begun ∧ ∃ m, a.line = some m ∧ m.device = device ∧ a.Checks m ∧
    (a.checkRc = 0 ∨ a.checkRc = 1)

/-- The run does not write the record of the device, or with a verdict on the device. -/
def Event.Conclusive (device : Text) : Event → Prop
  | .observe e => ∀ m, e.line = some m → mediaKey m.device = mediaKey device →
    e.kernelError (kernelName m.device) = true ∨ isFat m.fstype = true
  | .check e => ∀ m, e.line = some m → mediaKey m.device = mediaKey device →
    e.kernelError (kernelName m.device) = true ∨
      e.Checks m ∧ e.checkRc ≠ 124 ∧ e.checkRc ≠ 137 ∧ (e.checkRc = 0 → m.device = device)
  | .repair a => a.Begun → ∀ m, a.line = some m → mediaKey m.device = mediaKey device →
    a.Checks m ∧ (a.checkRc = 0 ∨ a.checkRc = 1 → a.startOk = true → m.device = device) ∧
      (a.startOk = true → a.checkRc ≠ 124 ∧ a.checkRc ≠ 137)

end Events

section Records

variable {s : Store} {device : Text} {report : Report} {m : Mount}

theorem verdict_write_none : (s.write none report).verdict device = s.verdict device := rfl

theorem verdict_write_same (h : mediaKey m.device = mediaKey device) :
    (s.write (some m) report).verdict device = some report.result := by
  unfold Store.verdict Store.write
  dsimp only
  rw [h, Function.update_self]
  rfl

theorem verdict_write_other (h : mediaKey m.device ≠ mediaKey device) :
    (s.write (some m) report).verdict device = s.verdict device := by
  unfold Store.verdict Store.write
  dsimp only
  rw [Function.update_of_ne (Ne.symm h)]

theorem previousResult_of_verdict {root : Text} {result : Result}
    (h : s.verdict m.device = some result) : previousResult s root m = some result := by
  obtain ⟨record, hrecord, hresult⟩ := Option.map_eq_some_iff.mp h
  unfold previousResult
  rw [hrecord]
  exact congrArg some hresult

end Records

section Steps

variable {s : Store} {device : Text} {m : Mount}

theorem observe_dirty_iff {e : Surroundings} (hm : e.line = some m)
    (hkey : mediaKey m.device = mediaKey device) (hdirty : s.verdict device = some .dirty) :
    (judge .observe e s).1 = .dirty ↔
      e.kernelError (kernelName m.device) = true ∨ isFat m.fstype = true := by
  have hprevious : previousResult s e.mediaRoot m = some .dirty := by
    apply previousResult_of_verdict
    unfold Store.verdict at hdirty ⊢
    rw [hkey]
    exact hdirty
  unfold judge
  rw [hm]
  dsimp only
  by_cases hkernel : e.kernelError (kernelName m.device) = true
  · rw [if_pos hkernel]
    simp [hkernel]
  · rw [if_neg hkernel, hprevious]
    unfold observeResult
    by_cases hfat : isFat m.fstype = true
    · rw [if_pos ⟨hfat, rfl⟩]
      simp [hfat]
    · rw [if_neg fun h => hfat h.1, if_neg fun h => hfat h.1]
      simp [hkernel, hfat]

theorem checkResult_dirty_iff {e : Surroundings} :
    (checkResult e m).1 = .dirty ↔ (readOnly m.options = true ∧ e.checker = true) ∧
      e.checkRc ≠ 0 ∧ e.checkRc ≠ 124 ∧ e.checkRc ≠ 137 := by
  unfold checkResult
  by_cases hready : readOnly m.options = true ∧ e.checker = true
  · rw [if_neg (by simp [hready.1]), if_neg (by simp [hready.2])]
    split
    · rename_i hclean
      simp [hclean]
    · rename_i hclean
      split
      · rename_i htimeout
        simp only [reduceCtorEq, false_iff]
        omega
      · rename_i htimeout
        exact iff_of_true rfl ⟨hready, hclean, not_or.mp htimeout⟩
  · have hno : (checkResult e m).1 ≠ .dirty := by
      unfold checkResult
      split
      · simp
      · rename_i hro
        rw [if_pos (by simpa [hro] using hready)]
        simp
    exact iff_of_false hno fun h => hready h.1

theorem check_dirty_iff {e : Surroundings} (hm : e.line = some m) :
    (judge .check e s).1 = .dirty ↔ e.kernelError (kernelName m.device) = true ∨
      e.Checks m ∧ e.checkRc ≠ 0 ∧ e.checkRc ≠ 124 ∧ e.checkRc ≠ 137 := by
  unfold judge
  rw [hm]
  dsimp only
  by_cases hkernel : e.kernelError (kernelName m.device) = true
  · rw [if_pos hkernel]
    simp [hkernel]
  · rw [if_neg hkernel, checkResult_dirty_iff]
    have hquiet : e.kernelError (kernelName m.device) = false := by simpa using hkernel
    simp [Surroundings.Checks, hquiet]

theorem repairResult_dirty_iff {rc : ℕ} :
    (repairResult rc).1 = .dirty ↔ rc ≠ 0 ∧ rc ≠ 1 ∧ rc ≠ 124 ∧ rc ≠ 137 := by
  unfold repairResult
  split
  · rename_i hrc
    simp [hrc]
  · split
    · rename_i hrc
      simp [hrc]
    · split
      · simp only [reduceCtorEq, false_iff]
        omega
      · simp only [true_iff]
        omega

theorem repair_dirty_iff {a : Attempt} :
    (repairJudge a m).1.1 = .dirty ↔ a.Checks m ∧ (a.startOk = true →
      a.checkRc ≠ 0 ∧ a.checkRc ≠ 1 ∧ a.checkRc ≠ 124 ∧ a.checkRc ≠ 137) := by
  by_cases hchecks : a.Checks m
  · obtain ⟨hfstype, hsafe, hos, htools, hstop⟩ := id hchecks
    unfold repairJudge
    rw [if_neg (by simp [hfstype]), if_neg (by simp [hsafe]), if_neg (by simp [hos]),
      if_neg (by simp [htools]), if_neg (by simp [hstop])]
    by_cases hstart : a.startOk = true
    · rw [if_neg (by simp [hstart]), repairResult_dirty_iff]
      simp [hchecks, hstart]
    · rw [if_pos (by simpa using hstart)]
      simp [hchecks, hstart]
  · refine iff_of_false (fun hdirty => hchecks ?_) fun h => hchecks h.1
    unfold repairJudge at hdirty
    split at hdirty
    · cases hdirty
    · rename_i hfstype
      split at hdirty
      · cases hdirty
      · rename_i hsafe
        split at hdirty
        · cases hdirty
        · rename_i hos
          split at hdirty
          · cases hdirty
          · rename_i htools
            split at hdirty
            · cases hdirty
            · rename_i hstop
              exact ⟨by simpa using hfstype, by simpa using hsafe, by simpa using hos,
                by simpa using htools, by simpa using hstop⟩

theorem verdict_write_of_ne {line : Option Mount} {report : Report}
    (h : ∀ m, line = some m → mediaKey m.device ≠ mediaKey device) :
    (s.write line report).verdict device = s.verdict device := by
  cases line with
  | none => exact verdict_write_none
  | some m => exact verdict_write_other (h m rfl)

/-- The run either does not write the record, or writes it for the line `m`. -/
theorem line_cases (line : Option Mount) (device : Text) :
    (∀ m, line = some m → mediaKey m.device ≠ mediaKey device) ∨
      ∃ m, line = some m ∧ mediaKey m.device = mediaKey device := by
  cases line with
  | none => exact Or.inl fun m hm => by cases hm
  | some m =>
    by_cases hkey : mediaKey m.device = mediaKey device
    · exact Or.inr ⟨m, rfl, hkey⟩
    · exact Or.inl fun m' hm' => by cases hm'; exact hkey

theorem storageHealth_keeps_iff {action : Action} {e : Surroundings}
    (hdirty : s.verdict device = some .dirty) :
    (storageHealth action e s).verdict device = some .dirty ↔
      ∀ m, e.line = some m → mediaKey m.device = mediaKey device →
        (judge action e s).1 = .dirty := by
  unfold storageHealth
  rcases line_cases e.line device with hno | ⟨m, hm, hkey⟩
  · rw [verdict_write_of_ne hno]
    exact iff_of_true hdirty fun m hm hkey => absurd hkey (hno m hm)
  · rw [hm, verdict_write_same hkey]
    constructor
    · intro hresult _ _ _
      exact Option.some.inj hresult
    · exact fun h => congrArg some (h m rfl hkey)

theorem sd2Repair_keeps_iff {a : Attempt} (hdirty : s.verdict device = some .dirty) :
    (sd2Repair a s).verdict device = some .dirty ↔
      (a.Begun → ∀ m, a.line = some m → mediaKey m.device = mediaKey device →
        (repairJudge a m).1.1 = .dirty) := by
  unfold sd2Repair
  by_cases hbegun : a.Begun
  · rw [if_pos hbegun]
    rcases line_cases a.line device with hno | ⟨m, hm, hkey⟩
    · rw [verdict_write_of_ne hno]
      exact iff_of_true hdirty fun _ m hm hkey => absurd hkey (hno m hm)
    · have hreport : repairReport a = reportOf (repairJudge a m).1.1 a.now a.mediaRoot (some m)
          (repairJudge a m).2 (repairJudge a m).1.2 := by
        unfold repairReport
        rw [hm]
      rw [hm, verdict_write_same hkey, hreport]
      constructor
      · intro hresult _ m' hm' _
        cases hm'
        exact Option.some.inj hresult
      · exact fun h => congrArg some (h hbegun m rfl hkey)
  · rw [if_neg hbegun]
    exact iff_of_true hdirty fun h => absurd h hbegun

theorem observe_keeps_iff {e : Surroundings} (hdirty : s.verdict device = some .dirty) :
    (storageHealth .observe e s).verdict device = some .dirty ↔
      (Event.observe e).Conclusive device := by
  rw [storageHealth_keeps_iff hdirty]
  constructor
  · exact fun h m hm hkey => (observe_dirty_iff hm hkey hdirty).mp (h m hm hkey)
  · exact fun h m hm hkey => (observe_dirty_iff hm hkey hdirty).mpr (h m hm hkey)

theorem check_keeps_iff {e : Surroundings} (hdirty : s.verdict device = some .dirty) :
    (storageHealth .check e s).verdict device = some .dirty ∨ (Event.check e).Clears device ↔
      (Event.check e).Conclusive device := by
  rw [storageHealth_keeps_iff hdirty]
  constructor
  · intro h m hm hkey
    rcases h with h | ⟨m', hm', hdevice, hchecks, hclean⟩
    · have hresult := (check_dirty_iff hm).mp (h m hm hkey)
      exact hresult.imp_right fun h => ⟨h.1, h.2.2.1, h.2.2.2, fun hrc => absurd hrc h.2.1⟩
    · rw [hm] at hm'
      cases hm'
      exact Or.inr ⟨hchecks, by omega, by omega, fun _ => hdevice⟩
  · intro h
    by_cases hclears : (Event.check e).Clears device
    · exact Or.inr hclears
    · refine Or.inl fun m hm hkey => (check_dirty_iff hm).mpr ((h m hm hkey).imp_right ?_)
      rintro ⟨hchecks, htimeout, hkilled, hown⟩
      exact ⟨hchecks, fun hrc => hclears ⟨m, hm, hown hrc, hchecks, hrc⟩, htimeout, hkilled⟩

theorem repair_keeps_iff {a : Attempt} (hdirty : s.verdict device = some .dirty) :
    (sd2Repair a s).verdict device = some .dirty ∨ (Event.repair a).Clears device ↔
      (Event.repair a).Conclusive device := by
  rw [sd2Repair_keeps_iff hdirty]
  constructor
  · intro h hbegun m hm hkey
    rcases h with h | ⟨-, m', hm', hdevice, hchecks, hclean⟩
    · obtain ⟨hchecks, hrc⟩ := repair_dirty_iff.mp (h hbegun m hm hkey)
      refine ⟨hchecks, fun hclean hstart => ?_, fun hstart => (hrc hstart).2.2⟩
      have hrc := hrc hstart
      omega
    · rw [hm] at hm'
      cases hm'
      exact ⟨hchecks, fun _ _ => hdevice, fun _ => by omega⟩
  · intro h
    by_cases hclears : (Event.repair a).Clears device
    · exact Or.inr hclears
    · refine Or.inl fun hbegun m hm hkey => repair_dirty_iff.mpr ?_
      obtain ⟨hchecks, hown, hended⟩ := h hbegun m hm hkey
      refine ⟨hchecks, fun hstart => ?_⟩
      have hno : ¬ (a.checkRc = 0 ∨ a.checkRc = 1) := fun hrc =>
        hclears ⟨hbegun, m, hm, hown hrc hstart, hchecks, hrc⟩
      have hended := hended hstart
      omega

theorem step_keeps_iff {r : Event} (hdirty : s.verdict device = some .dirty) :
    (r.step s).verdict device = some .dirty ∨ r.Clears device ↔ r.Conclusive device := by
  cases r with
  | observe e =>
    have hnever : ¬ (Event.observe e).Clears device := id
    rw [or_iff_left hnever]
    exact observe_keeps_iff hdirty
  | check e => exact check_keeps_iff hdirty
  | repair a => exact repair_keeps_iff hdirty

end Steps

section Runs

variable {s : Store} {device : Text} {runs : List Event}

/-- The runs one after the other. -/
def afterRuns (s : Store) (runs : List Event) : Store := runs.foldl Event.step s

theorem afterRuns_keeps (hdirty : s.verdict device = some .dirty)
    (hruns : ∀ r ∈ runs, r.Conclusive device ∧ ¬ r.Clears device) :
    (afterRuns s runs).verdict device = some .dirty := by
  induction runs generalizing s with
  | nil => exact hdirty
  | cons r rest ih =>
    obtain ⟨hconclusive, hclears⟩ := hruns r List.mem_cons_self
    have hstep := ((step_keeps_iff hdirty).mpr hconclusive).resolve_right hclears
    exact ih hstep fun r' hr' => hruns r' (List.mem_cons_of_mem _ hr')

/-- Once dirty is recorded for a FAT device, an observation of it reports dirty until a checker
run on it returns clean, if all runs in between are conclusive. -/
theorem dirty_sticks (hdirty : s.verdict device = some .dirty)
    (hruns : ∀ r ∈ runs, r.Conclusive device ∧ ¬ r.Clears device) {e : Surroundings} {m : Mount}
    (hm : e.line = some m) (hdevice : m.device = device) (hfat : isFat m.fstype = true) :
    (healthReport .observe e (afterRuns s runs)).result = .dirty := by
  have hkept := afterRuns_keeps hdirty hruns
  exact (observe_dirty_iff hm (congrArg mediaKey hdevice) hkept).mpr (Or.inr hfat)

/-- SD2 as a FAT card, mounted read-write. -/
def sd2Mount : Mount where
  device := "/dev/mmcblk3p1".toList
  path := sd2Root
  fstype := "vfat".toList
  options := "rw".toList
  named := by decide

/-- Nothing in the kernel log, and a checker installed. -/
def sd2Mounted : Surroundings where
  sdcardRoot := sd2Root
  mounts := [sd2Mount]
  kernelError _ := false
  checker := true
  checkRc := 0
  now := []

/-- The same with an error in the kernel log. -/
def sd2Broken : Surroundings := { sd2Mounted with kernelError := fun _ => true }

def noRecords : Store := ⟨none, fun _ => none⟩

theorem dirty_sticks_sample :
    (healthReport .observe sd2Mounted
      (afterRuns (storageHealth .observe sd2Broken noRecords) [.observe sd2Mounted])).result =
        .dirty := by
  have hline : sd2Mounted.line = some sd2Mount := by decide +kernel
  have hfat : isFat sd2Mount.fstype = true := by decide +kernel
  have hdirty : (storageHealth .observe sd2Broken noRecords).verdict sd2Mount.device =
      some .dirty := by decide +kernel
  refine dirty_sticks hdirty ?_ hline rfl hfat
  intro r hr
  rw [List.mem_singleton.mp hr]
  refine ⟨fun m hm _ => ?_, id⟩
  rw [hline] at hm
  cases hm
  exact Or.inr hfat

/-- A check that is refused because the card is mounted read-write takes the verdict away. -/
theorem refused_check_forgets :
    ¬ ∀ (s : Store) (device : Text) (runs : List Event) (e : Surroundings) (m : Mount),
      s.verdict device = some .dirty → (∀ r ∈ runs, ¬ r.Clears device) → e.line = some m →
        m.device = device → isFat m.fstype = true →
          (healthReport .observe e (afterRuns s runs)).result = .dirty := by
  intro hclaim
  have hrefused : ¬ (Event.check sd2Mounted).Clears sd2Mount.device := by
    rintro ⟨m, hm, -, hchecks, -⟩
    have hline : sd2Mounted.line = some sd2Mount := by decide +kernel
    rw [hline] at hm
    cases hm
    have hrw : readOnly sd2Mount.options = false := by decide +kernel
    rw [hchecks.2.1] at hrw
    cases hrw
  have hreported := hclaim (storageHealth .observe sd2Broken noRecords) sd2Mount.device
    [.check sd2Mounted] sd2Mounted sd2Mount (by decide +kernel)
    (fun r hr => by rw [List.mem_singleton.mp hr]; exact hrefused) (by decide +kernel) rfl
    (by decide +kernel)
  have hobserved : (healthReport .observe sd2Mounted (afterRuns
      (storageHealth .observe sd2Broken noRecords) [.check sd2Mounted])).result = .observed := by
    decide +kernel
  rw [hobserved] at hreported
  cases hreported

end Runs

end PlumosBubble.Health
