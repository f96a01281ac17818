import PlumosBubble.Launch.Requests
import PlumosBubble.Transition.Run

/-! Resuming the newest recent game. `boot` starts it with the profile and the path that were
recorded at its last launch, the Recents list asks for the recorded profile and a path resolved
anew, and the Gallery has both resolved anew. The three agree as long as what was recorded is
what is in force. -/

namespace PlumosBubble.Frontend

open Transition TextUi

/-- What lasts from one launch to the next. -/
structure History where
  overrides : CoreOverrides
  cache : CString → Option (List TextUi.RomEntry)
  recents : Option CString

/-- A step of the history. An executed launch finds the files of its time. -/
inductive HistoryEvent where
  | launched (env : LaunchEnv) (systemId : CString) (relativePath : Buffer 1024)
      (profile : Option CString) (playedAt : CString)
  | overridden (overrides : CoreOverrides)
  | rescanned (cache : CString → Option (List TextUi.RomEntry))

section Setup

variable (plumosRoot : CString) (systemsJson : Option CString)

def History.card (s : History) (env : LaunchEnv) : Card where
  env := env
  plumosRoot := plumosRoot
  systemsJson := systemsJson
  overrides := s.overrides
  cache := s.cache

def History.step (s : History) : HistoryEvent → History
  | .launched env systemId relativePath profile playedAt => { s with
      recents := recentsAfter (s.card plumosRoot systemsJson env) systemId relativePath.text
        profile playedAt s.recents }
  | .overridden overrides => { s with overrides }
  | .rescanned cache => { s with cache }

/-- The newest recent game. -/
def History.newest (s : History) : Option RecentEntry := (loadRecent s.recents).bind List.head?

/-- The file of a game, as the cache gives it. -/
def cachedPath (cache : CString → Option (List TextUi.RomEntry)) (entry : RecentEntry) :
    Option (Buffer 1024) :=
  (loadSelectedRom cache entry.systemId.text entry.relativePath.text).map (·.path)

/-- The condition on a step. A launch is made with the profile in force, of a game whose path
and name have no control character that the list of recent games cannot give back, and no `#`
where a content suffix is in force; the overrides change neither the profile nor the suffix of
the newest recent game; and the cache still lists it at the same path. -/
def Orderly (s : History) : HistoryEvent → Prop
  | .launched env systemId relativePath profile _ =>
    ∀ run, launch (s.card plumosRoot systemsJson env) systemId relativePath.text profile =
      some run → ∀ rom system, loadSelectedRom s.cache systemId relativePath.text = some rom →
      coreSystem systemsJson systemId = some system →
        run.launchProfile = resolveLaunchProfile system s.overrides (some relativePath.text) ∧
        Lettered jsonWriteTable relativePath.text ∧ Lettered jsonWriteTable run.rom.path.text ∧
        (0x23 ∉ rom.path.text ∨ contentSuffix system s.overrides relativePath.text = [])
  | .overridden overrides => ∀ entry system, s.newest = some entry →
      coreSystem systemsJson entry.systemId.text = some system →
        resolveLaunchProfile system overrides (some entry.relativePath.text) =
          resolveLaunchProfile system s.overrides (some entry.relativePath.text) ∧
        contentSuffix system overrides entry.relativePath.text =
          contentSuffix system s.overrides entry.relativePath.text
  | .rescanned cache => ∀ entry, s.newest = some entry →
      cachedPath cache entry = cachedPath s.cache entry

/-- The controller comes to ask for a launch: the card can be written, the program is there and
its command fits. -/
def CanAsk (card : Card) (controller : ControllerCard) (recents : Option CString) : Prop :=
  ∀ screen entry rest, ControllerUi.loadRecentEntries recents = some (entry :: rest) →
    (launchRomEntry card controller screen entry).isSome = true

/-- A plan without its title. -/
def LaunchPlan.untitled (plan : LaunchPlan) : LaunchPlan := { plan with title := [] }

/-- The three plans are equal but for the title, or all are refused, and the path is that of the
cache with the suffix in force. -/
structure SameStart (card : Card) (controller : ControllerCard) (recents : Option CString) :
    Prop where
  list : (startNewest card controller .recent recents).map LaunchPlan.untitled =
    (boot card recents).map LaunchPlan.untitled
  gallery : (startNewest card controller .gallery recents).map LaunchPlan.untitled =
    (boot card recents).map LaunchPlan.untitled
  path : ∀ plan, boot card recents = some plan → ∃ entry system path,
    (loadRecent recents).bind List.head? = some entry ∧
    coreSystem card.systemsJson entry.systemId.text = some system ∧
    cachedPath card.cache entry = some path ∧
    plan.romPath = path.text ++ contentSuffix system card.overrides entry.relativePath.text

end Setup

/-! ### Profiles, paths and titles -/

variable {systemsJson : Option CString} {systemId relativePath : CString}
  {system : CoreSystem} {overrides : CoreOverrides}

theorem coreSystem_id (h : coreSystem systemsJson systemId = some system) :
    system.id.text = systemId := by
  obtain ⟨json, -, hload⟩ := Option.bind_eq_some_iff.1 h
  obtain ⟨body, -, hfind⟩ := Option.bind_eq_some_iff.1 hload
  simpa using List.find?_some hfind

theorem listedProfile_eq {profile : Buffer 128} (h : profile ∈ system.launchProfiles) :
    listedProfile system (some profile) = some profile.text := by
  have hvalid := system.listed.valid profile h
  have hne : profile.nonempty = true := by
    unfold validLaunchProfileId at hvalid
    simp only [Bool.and_eq_true] at hvalid
    exact hvalid.1
  have hlisted := hasProfile_iff.2 h
  simp [listedProfile, Option.filter, hne, hlisted]

theorem listedProfile_mem {profile : Option (Buffer 128)} {text : CString}
    (h : listedProfile system profile = some text) :
    ∃ p ∈ system.launchProfiles, p.text = text := by
  obtain ⟨p, hp, rfl⟩ := Option.map_eq_some_iff.1 h
  have hlisted := (Option.filter_eq_some_iff.1 hp).2
  simp only [Bool.and_eq_true] at hlisted
  exact ⟨p, hasProfile_iff.1 hlisted.2, rfl⟩

theorem resolveLaunchProfile_listed (rel : Option CString) :
    resolveLaunchProfile system overrides rel = lit "auto" ∨
      ∃ p ∈ system.launchProfiles, p.text = resolveLaunchProfile system overrides rel := by
  unfold resolveLaunchProfile
  simp only []
  split
  · rename_i profile hprofile
    exact .inr (listedProfile_mem hprofile)
  · split
    · rename_i profile hprofile
      exact .inr (listedProfile_mem hprofile)
    · cases hdefault : listedProfile system (some system.defaultLaunchProfile) with
      | none => exact .inl rfl
      | some profile => exact .inr (listedProfile_mem hdefault)

theorem executablePlan_auto (env : LaunchEnv) (req : LaunchRequest)
    (h : req.launchProfile = lit "auto") : executablePlan env req = none := by
  have hkind : profileKind req.launchProfile = .unknown := by
    rw [h]
    decide
  unfold executablePlan buildLaunchPlan
  rw [hkind]
  rfl

theorem executablePlan_title (env : LaunchEnv) (req : LaunchRequest) (title : CString) :
    (executablePlan env { req with title }).map LaunchPlan.untitled =
      (executablePlan env req).map LaunchPlan.untitled := by
  unfold executablePlan
  rw [buildLaunchPlan_title]
  cases buildLaunchPlan env req with
  | error plan => rfl
  | ok plan =>
    show Option.map LaunchPlan.untitled
      (if plan.canExecute = true then some { plan with title := _ } else none) =
        Option.map LaunchPlan.untitled (if plan.canExecute = true then some plan else none)
    by_cases hexec : plan.canExecute = true
    · rw [if_pos hexec, if_pos hexec]
      rfl
    · rw [if_neg hexec, if_neg hexec]

theorem bufferOf_text {size : ℕ} (b : Buffer size) : bufferOf size b.text = some b := by
  unfold bufferOf
  rw [dif_pos ⟨b.fits, b.noNul⟩]

theorem bufferOf_eq_some {size : ℕ} {s : CString} {b : Buffer size} :
    bufferOf size s = some b ↔ b.text = s := by
  constructor
  · intro h
    unfold bufferOf at h
    split at h
    · rw [← Option.some.inj h]
    · cases h
  · rintro rfl
    exact bufferOf_text b

theorem romPath_executablePlan {env : LaunchEnv} {req : LaunchRequest} {plan : LaunchPlan}
    (h : executablePlan env req = some plan) : plan.romPath = copied textPathMax req.romPath := by
  unfold executablePlan at h
  cases hplan : buildLaunchPlan env req with
  | error _ =>
    rw [hplan] at h
    cases h
  | ok out =>
    rw [hplan] at h
    simp only [Option.ite_none_right_eq_some, Option.some.injEq] at h
    rw [← h.2]
    exact romPath_buildLaunchPlan hplan

/-! ### One launch -/

variable {card : Card} {profile : Option CString} {run : Launch}

theorem launch_eq_some (h : launch card systemId relativePath profile = some run) :
    validSystemId systemId = true ∧ validRelativeRomPath relativePath = true ∧
    ∃ rom system path, loadSelectedRom card.cache systemId relativePath = some rom ∧
      coreSystem card.systemsJson systemId = some system ∧
      requestedProfile system card.overrides relativePath profile = some run.launchProfile ∧
      applyContentSuffixOverride system card.overrides relativePath rom.path.text =
        some path.text ∧
      run.rom = { rom with path } ∧
      executablePlan card.env (planRequest card system systemId relativePath rom.title.text
        path.text run.launchProfile) = some run.plan := by
  unfold launch at h
  split at h
  · cases h
  · rename_i hvalid
    simp only [Bool.or_eq_true, Bool.not_eq_true', not_or, Bool.not_eq_false] at hvalid
    simp only [Option.bind_eq_bind, Option.bind_eq_some_iff, Option.pure_def,
      Option.some.injEq] at h
    obtain ⟨rom, hrom, system, hsystem, launchProfile, hprofile, text, htext, path, hpath, plan,
      hplan, rfl⟩ := h
    rw [bufferOf_eq_some] at hpath
    refine ⟨hvalid.1.1, hvalid.1.2, rom, system, path, hrom, hsystem, hprofile, ?_, rfl, hplan⟩
    rw [hpath]
    exact htext

theorem launch_plan {rom : TextUi.RomEntry} {path : Buffer 1024} {launchProfile : CString}
    (hid : validSystemId systemId = true) (hrel : validRelativeRomPath relativePath = true)
    (hvalid : ∀ p ∈ profile, validLaunchProfileId p = true)
    (hrom : loadSelectedRom card.cache systemId relativePath = some rom)
    (hsystem : coreSystem card.systemsJson systemId = some system)
    (hprofile : requestedProfile system card.overrides relativePath profile =
      some launchProfile)
    (hpath : applyContentSuffixOverride system card.overrides relativePath rom.path.text =
      some path.text) :
    (launch card systemId relativePath profile).map Launch.plan =
      executablePlan card.env (planRequest card system systemId relativePath rom.title.text
        path.text launchProfile) := by
  have hguard : (!validSystemId systemId || !validRelativeRomPath relativePath ||
      profile.any fun p => !validLaunchProfileId p) = false := by
    cases profile with
    | none => simp [hid, hrel]
    | some p => simp [hid, hrel, hvalid p rfl]
  unfold launch
  simp only [hguard, Bool.false_eq_true, if_false, hrom, hsystem, hprofile, hpath,
    bufferOf_text, Option.bind_eq_bind, Option.bind_some]
  cases executablePlan card.env (planRequest card system systemId relativePath rom.title.text
    path.text launchProfile) with
  | none => rfl
  | some plan => rfl

theorem relativePath_loadSelectedRom {cache : CString → Option (List TextUi.RomEntry)}
    {rel : Buffer 1024} {rom : TextUi.RomEntry}
    (h : loadSelectedRom cache systemId rel.text = some rom) : rom.relativePath = rel := by
  unfold loadSelectedRom at h
  simp only [Option.bind_eq_bind, Option.bind_eq_some_iff] at h
  obtain ⟨entries, -, h⟩ := h
  cases hfind : findRomByRelativePath entries rel.text with
  | some found =>
    rw [hfind] at h
    cases h
    apply Buffer.eq_of_text
    simpa using List.find?_some hfind
  | none =>
    simp only [hfind, Option.pure_def, Option.bind_eq_some_iff, Option.some.injEq] at h
    obtain ⟨base, -, found, -, path, -, buffer, -, rfl⟩ := h
    show (bufferOf 1024 rel.text).getD .empty = rel
    rw [bufferOf_text]
    rfl

/-! ### The newest recent game -/

/-- What the newest recent game was started with is what is in force for it. -/
structure Settled (systemsJson : Option CString) (s : History) (entry : RecentEntry)
    (rom : TextUi.RomEntry) (system : CoreSystem) : Prop where
  kept : entry.Kept
  selected : loadSelectedRom s.cache entry.systemId.text entry.relativePath.text = some rom
  system_eq : coreSystem systemsJson entry.systemId.text = some system
  listed : entry.launchProfile ∈ system.launchProfiles
  profile : entry.launchProfile.text =
    resolveLaunchProfile system s.overrides (some entry.relativePath.text)
  path : applyContentSuffixOverride system s.overrides entry.relativePath.text rom.path.text =
    some entry.path.text
  plain : 0x23 ∉ rom.path.text ∨
    contentSuffix system s.overrides entry.relativePath.text = []

/-- There is no list of recent games yet, or its newest game is settled. -/
def Recorded (systemsJson : Option CString) (s : History) : Prop :=
  s.recents = none ∨ ∃ entry older rom system,
    s.recents = some (saveRecent (entry :: older)) ∧ Settled systemsJson s entry rom system

theorem Settled.newest {s : History} {entry : RecentEntry} {older : List RecentEntry}
    {rom : TextUi.RomEntry} (h : Settled systemsJson s entry rom system)
    (hs : s.recents = some (saveRecent (entry :: older))) :
    ∃ first, s.newest = some first ∧ first.Agrees entry := by
  obtain ⟨first, rest, hload, hagrees⟩ := loadRecent_saveRecent h.kept older
  refine ⟨first, ?_, hagrees⟩
  unfold History.newest
  rw [hs, hload]
  rfl

theorem applyContentSuffixOverride_congr {overrides' : CoreOverrides} {path : CString}
    (h : contentSuffix system overrides' relativePath =
      contentSuffix system overrides relativePath) :
    applyContentSuffixOverride system overrides' relativePath path =
      applyContentSuffixOverride system overrides relativePath path := by
  unfold applyContentSuffixOverride
  rw [h]

theorem addRecentEntry_head (state : List RecentEntry) (entry : RecentEntry) :
    ∃ older, addRecentEntry state entry = entry :: older := by
  unfold addRecentEntry
  cases findRecent state entry.systemId.text entry.relativePath.text with
  | some i => exact ⟨state.eraseIdx i, rfl⟩
  | none => exact ⟨state.take 255, rfl⟩

variable {plumosRoot : CString}

theorem Recorded.launched {s : History} {env : LaunchEnv} {rel : Buffer 1024}
    {playedAt : CString} (h : Recorded systemsJson s)
    (he : Orderly plumosRoot systemsJson s (.launched env systemId rel profile playedAt)) :
    Recorded systemsJson
      (s.step plumosRoot systemsJson (.launched env systemId rel profile playedAt)) := by
  unfold History.step recentsAfter
  simp only []
  cases hrun : launch (s.card plumosRoot systemsJson env) systemId rel.text profile with
  | none => exact h
  | some run =>
    cases hload : loadRecent s.recents with
    | none => exact h
    | some state =>
      obtain ⟨hid, hrel, rom, system, path, hrom, hsystem, hprofile, hpath, hrunRom, hplan⟩ :=
        launch_eq_some hrun
      obtain ⟨hforce, hname, hfile, hplain⟩ := he run hrun rom system hrom hsystem
      have hrelative := relativePath_loadSelectedRom hrom
      have hsystemId := coreSystem_id hsystem
      -- a launch that is executed has a listed profile
      obtain ⟨p, hp, htext⟩ : ∃ p ∈ system.launchProfiles, p.text = run.launchProfile := by
        rcases @resolveLaunchProfile_listed system s.overrides (some rel.text) with hauto | hp
        · rw [executablePlan_auto _ _ (hforce.trans hauto)] at hplan
          cases hplan
        · rwa [hforce]
      obtain ⟨older, holder⟩ := addRecentEntry_head state
        (recentEntryFromRom systemId run.rom run.launchProfile playedAt)
      have hentry : (recentEntryFromRom systemId run.rom run.launchProfile playedAt).systemId =
          system.id := by
        unfold recentEntryFromRom
        rw [← hsystemId, bufferOf_text]
        rfl
      have hentryProfile : (recentEntryFromRom systemId run.rom run.launchProfile
          playedAt).launchProfile = p := by
        unfold recentEntryFromRom
        rw [← htext, bufferOf_text]
        rfl
      have hentryRelative : (recentEntryFromRom systemId run.rom run.launchProfile
          playedAt).relativePath = rel := by
        unfold recentEntryFromRom
        rw [hrunRom]
        exact hrelative
      have hentryPath : (recentEntryFromRom systemId run.rom run.launchProfile playedAt).path =
          path := by
        unfold recentEntryFromRom
        rw [hrunRom]
      have hpathKept : Lettered jsonWriteTable path.text := by
        rw [hrunRom] at hfile
        exact hfile
      have hvalid := system.listed.valid p hp
      have hne : p.nonempty = true := by
        unfold validLaunchProfileId at hvalid
        simp only [Bool.and_eq_true] at hvalid
        exact hvalid.1
      right
      refine ⟨_, older, rom, system, congrArg (fun l => some (saveRecent l)) holder, ?_⟩
      constructor
      · constructor
        · unfold RecentEntry.accepted
          rw [hentry, hentryRelative, hentryProfile, hsystemId, hid, hrel, hne]
          rfl
        · rwa [hentryRelative]
        · rwa [hentryPath]
        · rwa [hentryProfile]
      · rw [hentry, hentryRelative, hsystemId]
        exact hrom
      · rw [hentry, hsystemId]
        exact hsystem
      · rwa [hentryProfile]
      · rw [hentryProfile, hentryRelative, htext]
        exact hforce
      · rw [hentryRelative, hentryPath]
        exact hpath
      · rw [hentryRelative]
        exact hplain

theorem Recorded.step {s : History} {e : HistoryEvent} (h : Recorded systemsJson s)
    (he : Orderly plumosRoot systemsJson s e) :
    Recorded systemsJson (s.step plumosRoot systemsJson e) := by
  cases e with
  | launched env systemId rel profile playedAt => exact h.launched he
  | overridden overrides =>
    rcases h with hnone | ⟨entry, older, rom, system, hs, hsettled⟩
    · exact .inl hnone
    · obtain ⟨first, hnewest, hid, hrel, -⟩ := hsettled.newest hs
      have hsystem : coreSystem systemsJson first.systemId.text = some system := by
        rw [hid]
        exact hsettled.system_eq
      obtain ⟨hprofile, hsuffix⟩ := he first system hnewest hsystem
      rw [hrel] at hprofile hsuffix
      refine .inr ⟨entry, older, rom, system, hs, ?_⟩
      exact { hsettled with
        profile := hsettled.profile.trans hprofile.symm
        path := (applyContentSuffixOverride_congr hsuffix).trans hsettled.path
        plain := hsettled.plain.imp_right fun hnil => hsuffix.trans hnil }
  | rescanned cache =>
    rcases h with hnone | ⟨entry, older, rom, system, hs, hsettled⟩
    · exact .inl hnone
    · obtain ⟨first, hnewest, hid, hrel, -⟩ := hsettled.newest hs
      have hpath := he first hnewest
      unfold cachedPath at hpath
      rw [hid, hrel, hsettled.selected, Option.map_some, Option.map_eq_some_iff] at hpath
      obtain ⟨rom', hrom', hsame⟩ := hpath
      refine .inr ⟨entry, older, rom', system, hs, ?_⟩
      exact { hsettled with
        selected := hrom'
        path := by
          rw [hsame]
          exact hsettled.path
        plain := by
          rw [hsame]
          exact hsettled.plain }

/-! ### The three starts -/

/-- The plan of `boot` for a settled game. -/
theorem Settled.boot {s : History} {entry : RecentEntry} {older : List RecentEntry}
    {rom : TextUi.RomEntry} (h : Settled systemsJson s entry rom system)
    (hs : s.recents = some (saveRecent (entry :: older))) (env : LaunchEnv) :
    ∃ title, boot (s.card plumosRoot systemsJson env) s.recents =
      executablePlan env (planRequest (s.card plumosRoot systemsJson env) system
        entry.systemId.text entry.relativePath.text title entry.path.text
        entry.launchProfile.text) := by
  obtain ⟨first, hnewest, hid, hrel, hpath, hprofile⟩ := h.newest hs
  obtain ⟨state, hload, hhead⟩ := Option.bind_eq_some_iff.1 hnewest
  have hsystemId := coreSystem_id h.system_eq
  refine ⟨first.title.text, ?_⟩
  unfold Frontend.boot
  simp only [hload, hhead, hid, hrel, hpath, hprofile, Option.bind_eq_bind, Option.bind_some]
  show (coreSystem systemsJson entry.systemId.text).bind _ = _
  rw [h.system_eq, Option.bind_some]
  show (applyContentSuffixOverride system s.overrides entry.relativePath.text
    entry.path.text).bind _ = _
  rw [applyContentSuffixOverride_idem system s.overrides h.path, Option.bind_some,
    listedProfile_eq h.listed]
  rfl

theorem Settled.startNewest {s : History} {entry : RecentEntry} {older : List RecentEntry}
    {rom : TextUi.RomEntry} (h : Settled systemsJson s entry rom system)
    (hs : s.recents = some (saveRecent (entry :: older))) (env : LaunchEnv)
    {controller : ControllerCard} (screen : ListScreen)
    (hask : CanAsk (s.card plumosRoot systemsJson env) controller s.recents) :
    startNewest (s.card plumosRoot systemsJson env) controller screen s.recents =
      executablePlan env (planRequest (s.card plumosRoot systemsJson env) system
        entry.systemId.text entry.relativePath.text rom.title.text entry.path.text
        entry.launchProfile.text) := by
  obtain ⟨rest, hlist⟩ := ControllerUi.loadRecentEntries_saveRecent h.kept older
  rw [← hs] at hlist
  obtain ⟨command, hcommand⟩ := Option.isSome_iff_exists.1 (hask screen _ _ hlist)
  have haccepted := h.kept.accepted
  unfold RecentEntry.accepted at haccepted
  simp only [Bool.and_eq_true] at haccepted
  obtain ⟨⟨hid, hrel⟩, hne⟩ := haccepted
  have hsystemId : entry.systemId.nonempty = true := by
    unfold validSystemId at hid
    simp only [Bool.and_eq_true] at hid
    exact hid.1
  have hentry : entrySystem ⟨entry.systemId, entry.relativePath, entry.launchProfile⟩ =
      entry.systemId.text := by
    unfold entrySystem
    rw [if_pos hsystemId]
  have hrequested : requestedProfile system s.overrides entry.relativePath.text
      (passedProfile screen ⟨entry.systemId, entry.relativePath, entry.launchProfile⟩) =
        some entry.launchProfile.text := by
    have hlisted := hasProfile_iff.2 h.listed
    cases screen with
    | recent => simp [passedProfile, hne, requestedProfile, hlisted]
    | gallery => simp [passedProfile, requestedProfile, ← h.profile]
  have hvalid : ∀ p ∈ passedProfile screen
      ⟨entry.systemId, entry.relativePath, entry.launchProfile⟩,
        validLaunchProfileId p = true := by
    intro p hp
    unfold passedProfile at hp
    split at hp
    · rw [← Option.mem_some_iff.1 hp]
      exact h.kept.launchProfile
    · cases hp
  have hplan := @launch_plan _ _ system (s.card plumosRoot systemsJson env) _ rom entry.path _
    hid hrel hvalid h.selected h.system_eq hrequested h.path
  unfold Frontend.startNewest
  simp only [hlist, List.head?_cons, Option.bind_eq_bind, Option.bind_some, hcommand, hentry]
  refine Eq.trans ?_ hplan
  cases launch (s.card plumosRoot systemsJson env) entry.systemId.text entry.relativePath.text
    (passedProfile screen ⟨entry.systemId, entry.relativePath, entry.launchProfile⟩) with
  | none => rfl
  | some run => rfl

theorem Settled.sameStart {s : History} {entry : RecentEntry} {older : List RecentEntry}
    {rom : TextUi.RomEntry} (h : Settled systemsJson s entry rom system)
    (hs : s.recents = some (saveRecent (entry :: older))) {env : LaunchEnv}
    {controller : ControllerCard}
    (hask : CanAsk (s.card plumosRoot systemsJson env) controller s.recents) :
    SameStart (s.card plumosRoot systemsJson env) controller s.recents := by
  have hboots : ∃ title, Frontend.boot (s.card plumosRoot systemsJson env) s.recents =
      executablePlan env (planRequest (s.card plumosRoot systemsJson env) system
        entry.systemId.text entry.relativePath.text title entry.path.text
        entry.launchProfile.text) := h.boot hs env
  obtain ⟨title, hboot⟩ := hboots
  have htitle := executablePlan_title env (planRequest (s.card plumosRoot systemsJson env) system
    entry.systemId.text entry.relativePath.text rom.title.text entry.path.text
    entry.launchProfile.text) title
  constructor
  · rw [h.startNewest hs env .recent hask, hboot]
    exact htitle.symm
  · rw [h.startNewest hs env .gallery hask, hboot]
    exact htitle.symm
  · intro plan hplan
    obtain ⟨first, hnewest, hid, hrel, -⟩ := h.newest hs
    refine ⟨first, system, rom.path, hnewest, ?_, ?_, ?_⟩
    · rw [hid]
      exact h.system_eq
    · unfold cachedPath
      rw [hid, hrel]
      show (loadSelectedRom s.cache _ _).map _ = _
      rw [h.selected]
      rfl
    · have hfits : copied textPathMax entry.path.text = entry.path.text := by
        have hlength := entry.path.fits
        unfold copied copyString
        rw [if_pos (by unfold textPathMax; omega)]
        rfl
      rw [hboot] at hplan
      have hromPath := romPath_executablePlan hplan
      rw [hrel, hromPath]
      show copied textPathMax entry.path.text =
        rom.path.text ++ contentSuffix system s.overrides entry.relativePath.text
      rw [hfits]
      have hpath := h.path
      unfold applyContentSuffixOverride at hpath
      rcases h.plain with hplain | hnil
      · by_cases hnil : contentSuffix system s.overrides entry.relativePath.text = []
        · simp only [hnil, decide_true, Bool.or_true, if_true, Option.some.injEq] at hpath
          rw [hnil, List.append_nil, hpath]
        · simp only [hplain, hnil, decide_false, Bool.or_self, Bool.false_eq_true, if_false,
            appendString, Option.ite_none_right_eq_some, Option.some.injEq] at hpath
          exact hpath.2.symm
      · simp only [hnil, decide_true, Bool.or_true, if_true, Option.some.injEq] at hpath
        rw [hnil, List.append_nil, hpath]

theorem sameStart_none (card : Card) (controller : ControllerCard) :
    SameStart card controller none where
  list := rfl
  gallery := rfl
  path := by
    intro plan hplan
    cases hplan

/-- After an orderly history the newest recent game starts the same way from everywhere. -/
theorem recent_game_starts_same (plumosRoot : CString) (systemsJson : Option CString)
    (s t : History) (es : List HistoryEvent) (env : LaunchEnv) (controller : ControllerCard)
    (hs : s.recents = none)
    (hrun : Run (fun s e t => t = s.step plumosRoot systemsJson e ∧
      Orderly plumosRoot systemsJson s e) s es t)
    (hask : CanAsk (t.card plumosRoot systemsJson env) controller t.recents) :
    SameStart (t.card plumosRoot systemsJson env) controller t.recents := by
  have hrecorded : Recorded systemsJson t := by
    refine hrun.keeps (.inl hs) ?_
    rintro s e t hrecorded ⟨rfl, he⟩
    exact hrecorded.step he
  rcases hrecorded with hnone | ⟨entry, older, rom, system, hnewest, hsettled⟩
  · rw [hnone]
    exact sameStart_none _ controller
  · exact hsettled.sameStart hnewest hask

/-- A card with every file that is asked for. -/
def fullEnv : LaunchEnv where
  deviceId := none
  busybox := none
  plumosRoot := none
  executable := fun _ => true
  isFile := fun _ => true
  isFileOrDir := fun path => path ≠ []
  isFileOrDir_nil := rfl

/-- A system with two cores, of which the first is the default. -/
def twoCores : CString :=
  lit "\x7b\"systems\":[\x7b\"id\":\"n\",\"launch_profiles\":[\"retroarch:a\",\"retroarch:b\"]," ++
    lit "\"default_launch_profile\":\"retroarch:a\"\x7d]\x7d"

def sampleRom : TextUi.RomEntry where
  title := .cut (lit "G")
  fileName := .cut (lit "g")
  relativePath := .cut (lit "g")
  path := .cut (lit "/r/g")
  thumbnail := .empty

/-- The second core for the game. -/
def otherCore : RomCoreOverride where
  systemId := .cut (lit "n")
  relativePath := .cut (lit "g")
  launchProfile := .cut (lit "retroarch:b")
  cpuPolicy := .empty
  contentSuffix := .empty
  audioDriver := .empty
  audioLatencyMs := 0
  dosboxPureForce60fps := .empty
  dosboxPureCycles := .empty
  suffix_valid := fun h => absurd rfl h

def beforeLaunch : History := ⟨⟨[], []⟩, fun _ => some [sampleRom], none⟩

def sampleLaunch : HistoryEvent :=
  .launched fullEnv (lit "n") sampleRom.relativePath none (lit "0")

def afterLaunch : History := beforeLaunch.step (lit "/p") (some twoCores) sampleLaunch

def sampleController : ControllerCard := ⟨lit "/s", false, fun _ => true⟩

theorem canAsk_of_head {card : Card} {controller : ControllerCard} {recents : Option CString}
    (h : ∀ screen, ((ControllerUi.loadRecentEntries recents).bind List.head?).all (fun entry =>
      (launchRomEntry card controller screen entry).isSome) = true) :
    CanAsk card controller recents := by
  intro screen entry rest hload
  have hscreen := h screen
  rw [hload] at hscreen
  exact hscreen

theorem contentSuffix_none (system : CoreSystem) (rel : CString) :
    contentSuffix system ⟨[], []⟩ rel = [] := by
  have hnone : ∀ path, findRomOverrideAt ⟨[], []⟩ system.id.text path = none := fun _ => rfl
  unfold contentSuffix findRomCoreOverride
  rw [hnone]
  cases dosBase system.id.text rel with
  | none => rfl
  | some base => rfl

/-- A game that was launched, and is the newest of the list. -/
theorem recent_game_starts_same_sample :
    SameStart (afterLaunch.card (lit "/p") (some twoCores) fullEnv) sampleController
      afterLaunch.recents := by
  have hlaunch : Orderly (lit "/p") (some twoCores) beforeLaunch sampleLaunch := by
    intro run hrun rom system hrom hsystem
    obtain ⟨-, -, rom', system', path, hrom', hsystem', hprofile, hpath, hrunRom, -⟩ :=
      launch_eq_some hrun
    obtain rfl : rom' = rom := Option.some.inj (hrom'.symm.trans hrom)
    obtain rfl : system' = system := Option.some.inj (hsystem'.symm.trans hsystem)
    obtain rfl : sampleRom = rom' := Option.some.inj hrom
    have hsuffix : contentSuffix system' beforeLaunch.overrides sampleRom.relativePath.text = [] :=
      contentSuffix_none system' _
    have hnone : applyContentSuffixOverride system' beforeLaunch.overrides
        sampleRom.relativePath.text sampleRom.path.text = some sampleRom.path.text := by
      unfold applyContentSuffixOverride
      simp [hsuffix]
    obtain rfl : path = sampleRom.path :=
      Buffer.eq_of_text (Option.some.inj (hpath.symm.trans hnone))
    refine ⟨(Option.some.inj hprofile).symm, by decide +kernel, ?_, .inr hsuffix⟩
    rw [hrunRom]
    decide +kernel
  have hrun : Run (fun s e t => t = s.step (lit "/p") (some twoCores) e ∧
      Orderly (lit "/p") (some twoCores) s e) beforeLaunch [sampleLaunch] afterLaunch :=
    Run.nil.concat ⟨rfl, hlaunch⟩
  have hask : CanAsk (afterLaunch.card (lit "/p") (some twoCores) fullEnv) sampleController
      afterLaunch.recents := by
    apply canAsk_of_head
    intro screen
    cases screen <;> decide +kernel
  exact recent_game_starts_same (lit "/p") (some twoCores) beforeLaunch afterLaunch _ fullEnv
    sampleController rfl hrun hask

/-- After the launch another core is set for the game: the Gallery starts that one, `boot` the
recorded one. -/
theorem changed_core_starts_two_ways :
    ∃ es t, Run (fun s e t => t = History.step (lit "/p") (some twoCores) s e) beforeLaunch es t ∧
      CanAsk (t.card (lit "/p") (some twoCores) fullEnv) sampleController t.recents ∧
      ¬ SameStart (t.card (lit "/p") (some twoCores) fullEnv) sampleController t.recents := by
  refine ⟨_, _, (Run.nil.concat (e := sampleLaunch) rfl).concat
    (e := .overridden ⟨[], [otherCore]⟩) rfl, ?_, ?_⟩
  · apply canAsk_of_head
    intro screen
    cases screen <;> decide +kernel
  · intro hsame
    have hprofiles := congrArg (Option.map LaunchPlan.launchProfile) hsame.gallery
    rw [Option.map_map, Option.map_map] at hprofiles
    revert hprofiles
    decide +kernel

end PlumosBubble.Frontend
