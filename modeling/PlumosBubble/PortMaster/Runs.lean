import PlumosBubble.PortMaster.Installs
import PlumosBubble.Transition.Run

/-! Any sequence of PortMaster installs, each of which may stop after any of its calls. The
next install finds what the last one left, and decides by the version records whether there
is something to do. -/

namespace PlumosBubble.PortMaster

open Scripts Transition
open Update (Text)

variable {lib : Library} {baseUrl : Text} {c : Call} {release : Release} {s t : AppRoot}

/-- An install that stops anywhere. -/
def InterruptedInstall (lib : Library) (baseUrl : Text) (s : AppRoot) (c : Call) (t : AppRoot) :
    Prop :=
  (install lib baseUrl c).Leaves s t

/-- One that starts with a payload in `upstream`, or else does not get to its switch. -/
def SafeInstall (lib : Library) (baseUrl : Text) (s : AppRoot) (c : Call) (t : AppRoot) : Prop :=
  InterruptedInstall lib baseUrl s c t ∧
    (s.get upstream ≠ none ∨ c.switches lib baseUrl s = false)

/-- The step of the first invariant. -/
theorem InterruptedInstall.sound (h : InterruptedInstall lib baseUrl s c t) (hs : Sound s) :
    Sound t := by
  have hholds : Holds False s := ⟨hs, False.elim⟩
  exact (leaves_of_wp (wp_install hholds False.elim) hholds h).1

theorem SafeInstall.kept (h : SafeInstall lib baseUrl s c t) (hs : Holds True s) :
    Holds True t :=
  leaves_of_wp (wp_install hs fun _ => h.2) hs h.1

section Samples

/-- An archive with the required files only, of version 2. -/
def sampleMembers : List ZipEntry :=
  requiredFiles.map fun name =>
    ⟨name, 0, if name = "PortMaster/version".toList then "2".toList else []⟩

def sampleMd5 : Text := List.replicate 32 '2'

def sampleLibrary : Library where
  md5 _ := sampleMd5
  sha256 _ := []
  unzip _ := some sampleMembers

/-- The payload that is there at the start, of version 1. -/
def samplePayload : Payload where
  files := (∅ : Files).insert versionPath (.file "1".toList false)
  version := "1".toList
  md5 := List.replicate 32 '1'
  versioned := by decide +kernel

def sampleRoot : AppRoot where
  present := true
  entry := (∅ : AList fun _ : Text => Item).insert upstream (.dir samplePayload.files)
  validated := [samplePayload]

def sampleCall : Call where
  channel := "stable".toList
  force := false
  pid := 1
  tempSuffix := "a".toList
  runtimeStopped := true
  releaseInfo := some [("stable".toList, ⟨"2".toList, sampleMd5, []⟩)]
  delivered := some []

/-- `sampleCall` from `s`, as far as `n` of its calls go without failing. -/
def sampleRun (n : ℕ) (s : AppRoot) : Py Report × AppRoot :=
  Script.play (List.replicate n 0) (install sampleLibrary [] sampleCall) s

theorem sampleRun_leaves (n : ℕ) (s : AppRoot) :
    InterruptedInstall sampleLibrary [] s sampleCall (sampleRun n s).2 :=
  Script.leaves_play _ _ s

theorem sampleRun_returns {n : ℕ} {s : AppRoot} {r : Report}
    (h : (sampleRun n s).1.result = some r) :
    (install sampleLibrary [] sampleCall).Returns s r (sampleRun n s).2 :=
  Script.returns_play h

theorem sampleRoot_complete : Complete sampleRoot upstream :=
  ⟨samplePayload, by simp [sampleRoot], rfl⟩

end Samples

/-- A payload is kept over every run whose installs do not switch while `upstream` is
missing. -/
theorem safe_installs_keep_payload {start : AppRoot} {cs : List Call}
    (hstart : Complete start upstream) (hrun : Run (SafeInstall lib baseUrl) start cs t) :
    Kept t := by
  have hholds : Holds True t :=
    hrun.keeps (holds_of_upstream hstart) fun hs hstep => hstep.kept hs
  exact hholds.2 trivial

/-- `samplePayload` in `upstream`, and an install that stops early. -/
theorem safe_installs_keep_payload_sample : Kept (sampleRun 10 sampleRoot).2 :=
  safe_installs_keep_payload sampleRoot_complete
    (Run.single ⟨sampleRun_leaves 10 sampleRoot, Or.inl (by decide +kernel)⟩)

/-- The first install is cut after it has set the payload aside, the second one after it has
removed what the first one set aside. -/
theorem interrupted_installs_lose_payload :
    ¬ ∀ (lib : Library) (baseUrl : Text) (start t : AppRoot) (cs : List Call),
      Complete start upstream → Run (InterruptedInstall lib baseUrl) start cs t → Kept t := by
  intro hclaim
  have hfirst := sampleRun_leaves 47 sampleRoot
  have hsecond := sampleRun_leaves 64 (sampleRun 47 sampleRoot).2
  have hkept := hclaim _ _ _ _ _ sampleRoot_complete ((Run.single hfirst).concat hsecond)
  have hgone : (sampleRun 64 (sampleRun 47 sampleRoot).2).2.get upstream = none ∧
      (sampleRun 64 (sampleRun 47 sampleRoot).2).2.get upstreamPrevious = none := by
    simp only [← Option.isNone_iff_eq_none]
    decide +kernel
  rcases hkept with ⟨p, -, hp⟩ | ⟨p, -, hp⟩
  · rw [hgone.1] at hp
    cases hp
  · rw [hgone.2] at hp
    cases hp

section Healing

/-- `installed.json` is about the payload in `upstream`. -/
def Recorded (s : AppRoot) (p : Payload) : Prop :=
  p ∈ s.validated ∧ s.get upstream = some (.dir p.files) ∧
    ∃ value, s.get installedJson = some (.json value) ∧ value.version = p.version ∧
      value.officialMd5 = p.md5

/-- What is promised of a completed install of `version`, and of one that says that nothing
is to be done. -/
def Heals (version : Text) (r : Report) (t : AppRoot) : Prop :=
  (∃ p, Recorded t p ∧ p.files.versionText = some version) ∧
    (r = .current → t.get upstream ≠ none ∧
      ∃ value, t.get installedJson = some (.json value) ∧ value.version = version)

theorem Recorded.of_eq {p : Payload} (h : Recorded s p)
    (hupstream : t.get upstream = s.get upstream)
    (hjson : t.get installedJson = s.get installedJson) (hvalidated : t.validated = s.validated) :
    Recorded t p := by
  obtain ⟨hp, hget, hvalue⟩ := h
  exact ⟨hvalidated ▸ hp, hupstream.trans hget, hjson.symm ▸ hvalue⟩

theorem Recorded.installedVersion {p : Payload} (h : Recorded s p) :
    installedVersion s = p.version := by
  unfold PortMaster.installedVersion
  simp only [h.2.1, p.versioned, Option.getD_some]

theorem Recorded.heals {p : Payload} (h : Recorded t p) {version : Text} (r : Report)
    (hversion : p.version = version) : Heals version r t := by
  obtain ⟨hp, hget, value, hjson, hvalue, hmd5⟩ := h
  refine ⟨⟨p, ⟨hp, hget, value, hjson, hvalue, hmd5⟩, hversion ▸ p.versioned⟩, fun _ => ⟨?_, ?_⟩⟩
  · rw [hget]
    exact Option.some_ne_none _
  · exact ⟨value, hjson, hvalue.trans hversion⟩

end Healing

/-- A completed install heals what the interrupted ones left, unless the version records say
that nothing is to be done and `installed.json` is not about the payload in `upstream`. -/
theorem completed_install_heals_iff {start t' : AppRoot} {cs : List Call} {r : Report}
    (hstart : Sound start) (hrun : Run (InterruptedInstall lib baseUrl) start cs t)
    (hforce : c.force = false) (hrelease : releaseRecord baseUrl c = .ok release)
    (hreturn : (install lib baseUrl c).Returns t r t') :
    Heals release.version r t' ↔
      installedVersion t ≠ release.version ∨ ∃ p, Recorded t p := by
  have hsound : Sound t := hrun.keeps hstart fun hs hstep => hstep.sound hs
  have hholds : Holds False t := ⟨hsound, False.elim⟩
  have hdone : Done lib baseUrl c t r t' :=
    (returns_of_wp (wp_install hholds False.elim) hholds hreturn).2
  cases r with
  | current =>
    obtain ⟨hagrees, hvalidated, release', hrelease', hcurrent, -⟩ := hdone
    rw [hrelease] at hrelease'
    cases hrelease'
    have hupstream := hagrees.1 _ (upstream_not_scratch c)
    have hjson := hagrees.1 _ (installed_not_scratch c)
    constructor
    · rintro ⟨⟨p, hp, -⟩, -⟩
      exact Or.inr ⟨p, hp.of_eq hupstream.symm hjson.symm hvalidated.symm⟩
    · rintro (hother | ⟨p, hp⟩)
      · exact absurd hcurrent hother
      · exact (hp.of_eq hupstream hjson hvalidated).heals _ (hp.installedVersion ▸ hcurrent)
  | installed =>
    obtain ⟨release', files, value, hrelease', hskip, -, ⟨htext, hp⟩, hget, hjson, hvalue, hmd5⟩ :=
      hdone
    rw [hrelease] at hrelease'
    cases hrelease'
    have hrecorded : Recorded t' ⟨files, release.version, release.md5, htext⟩ :=
      ⟨hp, hget, value, hjson, hvalue, hmd5⟩
    exact ⟨fun _ => Or.inl fun hsame => hskip ⟨hsame, hforce⟩, fun _ => hrecorded.heals _ rfl⟩

/-- The first install is cut before it writes `installed.json`; the second one says that
nothing is to be done. -/
theorem completed_install_heals_iff_sample :
    Heals "2".toList .current (sampleRun 30 (sampleRun 49 sampleRoot).2).2 ↔
      installedVersion (sampleRun 49 sampleRoot).2 ≠ "2".toList ∨
        ∃ p, Recorded (sampleRun 49 sampleRoot).2 p :=
  completed_install_heals_iff (Or.inr sampleRoot_complete)
    (Run.single (sampleRun_leaves 49 sampleRoot)) rfl
    (by rfl : releaseRecord [] sampleCall = .ok ⟨"2".toList, sampleMd5, "/2/PortMaster.zip".toList⟩)
    (sampleRun_returns (by decide +kernel))

theorem completed_install_leaves_stale_record :
    ¬ ∀ (lib : Library) (baseUrl : Text) (c : Call) (release : Release) (start t t' : AppRoot)
      (cs : List Call) (r : Report), Sound start →
      Run (InterruptedInstall lib baseUrl) start cs t → c.force = false →
      releaseRecord baseUrl c = .ok release → (install lib baseUrl c).Returns t r t' →
      Heals release.version r t' := by
  intro hclaim
  have hcut := Run.single (sampleRun_leaves 49 sampleRoot)
  have hreturn : (install sampleLibrary [] sampleCall).Returns (sampleRun 49 sampleRoot).2 .current
      (sampleRun 30 (sampleRun 49 sampleRoot).2).2 := sampleRun_returns (by decide +kernel)
  obtain ⟨⟨p, hp, -⟩, -⟩ := hclaim sampleLibrary [] sampleCall
    ⟨"2".toList, sampleMd5, "/2/PortMaster.zip".toList⟩ _ _ _ _ _ (Or.inr sampleRoot_complete)
    hcut rfl (by rfl) hreturn
  have hmissing : (sampleRun 30 (sampleRun 49 sampleRoot).2).2.get installedJson = none := by
    rw [← Option.isNone_iff_eq_none]
    decide +kernel
  obtain ⟨-, -, value, hvalue, -⟩ := hp
  rw [hmissing] at hvalue
  cases hvalue

end PlumosBubble.PortMaster
