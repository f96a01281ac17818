import PlumosBubble.PortMaster.Payload

/-! One PortMaster install from any state: at each of its steps the payload in `upstream`, if
there is one, has passed the checks, and an install that starts with one there always leaves
it or its successor in `upstream` or in `upstream.previous`. -/

namespace PlumosBubble.PortMaster

open Scripts
open Update (Text strip)

variable {lib : Library} {baseUrl : Text} {c : Call} {release : Release} {s t u : AppRoot}

section Invariant

/-- There is a payload that has passed the checks under the name. -/
def Complete (s : AppRoot) (name : Text) : Prop :=
  ∃ p ∈ s.validated, s.get name = some (.dir p.files)

/-- Nothing but a complete payload is in `upstream`. -/
def Sound (s : AppRoot) : Prop := s.get upstream = none ∨ Complete s upstream

/-- A complete payload is left. -/
def Kept (s : AppRoot) : Prop := Complete s upstream ∨ Complete s upstreamPrevious

/-- The invariant of an install, with `kept` for the installs that lose no payload. -/
def Holds (kept : Prop) (s : AppRoot) : Prop := Sound s ∧ (kept → Kept s)

theorem Complete.of_eq {name name' : Text} (h : Complete s name)
    (hname : t.get name' = s.get name) (hvalidated : s.validated ⊆ t.validated) :
    Complete t name' := by
  obtain ⟨p, hp, hget⟩ := h
  exact ⟨p, hvalidated hp, hname.trans hget⟩

theorem Holds.of_agrees {scratch : Text → Prop} {kept : Prop} (h : Holds kept s)
    (hagrees : Agrees scratch s t) (hupstream : ¬ scratch upstream)
    (hprevious : ¬ scratch upstreamPrevious) : Holds kept t := by
  constructor
  · rcases h.1 with hnone | hcomplete
    · exact Or.inl ((hagrees.1 _ hupstream).trans hnone)
    · exact Or.inr (hcomplete.of_eq (hagrees.1 _ hupstream) hagrees.2)
  · intro hk
    rcases h.2 hk with hcomplete | hcomplete
    · exact Or.inl (hcomplete.of_eq (hagrees.1 _ hupstream) hagrees.2)
    · exact Or.inr (hcomplete.of_eq (hagrees.1 _ hprevious) hagrees.2)

theorem holds_of_upstream {kept : Prop} (h : Complete s upstream) : Holds kept s :=
  ⟨Or.inr h, fun _ => Or.inl h⟩

theorem upstream_not_scratch (c : Call) : ¬ c.Scratch upstream :=
  not_scratch c (by simp)

theorem previous_not_scratch (c : Call) : ¬ c.Scratch upstreamPrevious :=
  not_scratch c (by simp)

theorem installed_not_scratch (c : Call) : ¬ c.Scratch installedJson :=
  not_scratch c (by simp)

theorem wp_of_keeps {scratch : Text → Prop} {α : Type} {m : Py α} {I : AppRoot → Prop}
    {Q : α → AppRoot → Prop} {E : Stop → AppRoot → Prop} (hm : Keeps (Agrees scratch t) m)
    (hu : Agrees scratch t u) (hI : ∀ v, Agrees scratch t v → I v)
    (hQ : ∀ a v, Agrees scratch t v → Q a v) (hE : ∀ e v, Agrees scratch t v → E e v) :
    wp I Q E m u :=
  wp_mono (hm.stays u hu) hI hQ hE

end Invariant

section Switch

variable {kept : Prop} {p : Payload}

theorem wp_dropPrevious (hs : Holds kept t) (hpresent : kept → t.get upstream ≠ none) :
    wp (Holds kept) (fun _ => Agrees (· = upstreamPrevious) t) (fun _ => Holds kept)
      (ifExists upstreamPrevious do
        rmtree upstreamPrevious
        syncDirectory) t := by
  have hne : ¬ upstream = upstreamPrevious := by decide
  have hholds : ∀ v, Agrees (· = upstreamPrevious) t v → Holds kept v := by
    intro v hv
    by_cases hnone : t.get upstream = none
    · exact ⟨Or.inl ((hv.1 _ hne).trans hnone), fun hk => absurd hnone (hpresent hk)⟩
    · exact holds_of_upstream ((hs.1.resolve_left hnone).of_eq (hv.1 _ hne) hv.2)
  have hkeeps : Keeps (Agrees (· = upstreamPrevious) t) (ifExists upstreamPrevious do
      rmtree upstreamPrevious
      syncDirectory) :=
    keeps_ifExists (Keeps.bind (keeps_rmtree (@ignores_agrees (· = upstreamPrevious) _ rfl t)) fun _ =>
      keeps_syncDirectory _)
  exact wp_of_keeps hkeeps (Agrees.refl _ t) hholds (fun _ _ hv => hv) fun _ => hholds

/-- The second part: the payload in `upstream` becomes the previous one. -/
theorem wp_setAside (hs : Holds kept t) {stage : Text} (hstage : stage ≠ upstream)
    (hstage' : stage ≠ upstreamPrevious) :
    wp (Holds kept)
      (fun _ u => Holds kept u ∧ u.get upstream = none ∧ u.get stage = t.get stage ∧
        t.validated ⊆ u.validated)
      (fun _ => Holds kept) (ifExists upstream do
        change (·.rename upstream upstreamPrevious)
        syncDirectory) t := by
  unfold ifExists
  rw [wp_bind]
  apply wp_look hs hs
  intro there hthere
  cases hthere
  cases hup : t.get upstream with
  | none => exact ⟨hs, hup, rfl, List.Subset.refl _⟩
  | some item =>
    rw [Option.isSome_some, if_pos rfl, wp_bind]
    apply wp_change hs hs
    intro u hu
    obtain ⟨item', hitem, rfl⟩ := AppRoot.rename_eq hu
    have hne : upstream ≠ upstreamPrevious := by decide
    have hgone : ((t.erase upstream).set upstreamPrevious item').get upstream = none := by
      rw [AppRoot.get_set_ne _ _ hne, AppRoot.get_erase_self]
    have hholds : Holds kept ((t.erase upstream).set upstreamPrevious item') := by
      refine ⟨Or.inl hgone, fun _ => Or.inr ?_⟩
      have hcomplete : Complete t upstream := hs.1.resolve_left (by simp [hup])
      refine hcomplete.of_eq ?_ fun _ h => h
      rw [AppRoot.get_set_self, hitem]
    have hkeep : ((t.erase upstream).set upstreamPrevious item').get stage = t.get stage := by
      rw [AppRoot.get_set_ne _ _ hstage', AppRoot.get_erase_ne _ hstage]
    refine ⟨hholds, ?_⟩
    apply wp_change hholds hholds
    intro v hv
    cases hv
    exact ⟨hholds, hholds, hgone, hkeep, List.Subset.refl _⟩

/-- The last part: the staged payload becomes the one in `upstream`. -/
theorem wp_install_stage (hs : Holds kept t) {stage : Text} (hp : p ∈ t.validated)
    (hstage : t.get stage = some (.dir p.files)) :
    wp (Holds kept) (fun _ u => p ∈ u.validated ∧ u.get upstream = some (.dir p.files))
      (fun _ => Holds kept)
      (Script.handle
        (do
          change (·.rename stage upstream)
          syncDirectory)
        fun stop => if stop = .osError then
          fail "staged switch failed; current payload was preserved" else .raise stop) t := by
  have hstop : ∀ {Q : Unit → AppRoot → Prop} stop u, Holds kept u →
      wp (Holds kept) Q (fun _ => Holds kept) (if stop = Stop.osError then
        fail "staged switch failed; current payload was preserved" else .raise stop) u := by
    intro Q stop u hu
    split <;> exact hu
  rw [wp_handle, wp_bind]
  apply wp_change hs (hstop _ t hs)
  intro u hu
  obtain ⟨item, hitem, rfl⟩ := AppRoot.rename_eq hu
  rw [hstage] at hitem
  cases hitem
  have hupstream := AppRoot.get_set_self (t.erase stage) upstream (.dir p.files)
  have hholds : Holds kept ((t.erase stage).set upstream (.dir p.files)) :=
    holds_of_upstream ⟨p, hp, hupstream⟩
  refine ⟨hholds, ?_⟩
  apply wp_change hholds (hstop _ _ hholds)
  intro v hv
  cases hv
  exact ⟨hholds, hp, hupstream⟩

theorem wp_switchPayload (hs : Holds kept t) (hpresent : kept → t.get upstream ≠ none)
    (hp : p ∈ t.validated) (hstage : t.get c.stage = some (.dir p.files)) :
    wp (Holds kept) (fun _ u => p ∈ u.validated ∧ u.get upstream = some (.dir p.files))
      (fun _ => Holds kept) (switchPayload c) t := by
  have hne : c.stage ≠ upstream := fun heq => upstream_not_scratch c (heq ▸ scratch_stage c)
  have hne' : c.stage ≠ upstreamPrevious := fun heq =>
    previous_not_scratch c (heq ▸ scratch_stage c)
  have hsame : ¬ upstream = upstreamPrevious := by decide
  unfold switchPayload
  rw [wp_bind]
  apply wp_mono (wp_dropPrevious hs hpresent) (fun _ h => h) _ (fun _ _ h => h)
  intro _ u hu
  have hholds : Holds kept u := by
    by_cases hnone : t.get upstream = none
    · exact ⟨Or.inl ((hu.1 _ hsame).trans hnone), fun hk => absurd hnone (hpresent hk)⟩
    · exact holds_of_upstream ((hs.1.resolve_left hnone).of_eq (hu.1 _ hsame) hu.2)
  rw [wp_bind]
  apply wp_mono (wp_setAside hholds hne hne') (fun _ h => h) _ (fun _ _ h => h)
  rintro _ v ⟨hv, -, hkeep, hsub⟩
  exact wp_install_stage hv (hsub (hu.2 hp)) (by rw [hkeep, hu.1 _ hne', hstage])

/-- The names that writing `installed.json` touches. -/
def Call.Record (c : Call) (name : Text) : Prop := name = c.metadataTemp ∨ name = installedJson

theorem wp_writeJsonDurable {value : Metadata} :
    wp (Agrees c.Record t)
      (fun _ u => Agrees c.Record t u ∧ u.get installedJson = some (.json value))
      (fun _ => Agrees c.Record t) (writeJsonDurable c value) t := by
  have htemp : c.Record c.metadataTemp := Or.inl rfl
  have hstop : ∀ {Q : Unit → AppRoot → Prop} (stop : Stop) u, Agrees c.Record t u →
      wp (Agrees c.Record t) Q (fun _ => Agrees c.Record t) (do
        unlinkMissingOk c.metadataTemp
        Script.raise stop) u := by
    intro Q stop u hu
    rw [wp_bind]
    apply wp_change hu hu
    intro v hv
    have hagrees : Agrees c.Record t v := by
      cases hget : u.get c.metadataTemp with
      | none =>
        rw [hget] at hv
        cases hv
        exact hu
      | some item =>
        rw [hget] at hv
        rw [AppRoot.unlink_eq hv]
        exact hu.erase htemp
    exact ⟨hagrees, hagrees⟩
  have hstart := Agrees.refl c.Record t
  unfold writeJsonDurable
  rw [wp_handle, wp_bind]
  apply wp_change hstart (hstop _ _ hstart)
  intro u hu
  rw [AppRoot.writeFile_eq hu]
  have hmade := hstart.set htemp (.file [])
  refine ⟨hmade, ?_⟩
  rw [wp_bind]
  apply wp_change hmade (hstop _ _ hmade)
  intro v hv
  rw [AppRoot.writeFile_eq hv]
  have hwritten := hmade.set htemp (.json value)
  refine ⟨hwritten, ?_⟩
  rw [wp_bind]
  apply wp_change hwritten (hstop _ _ hwritten)
  intro w hw
  cases hw
  refine ⟨hwritten, ?_⟩
  rw [wp_bind]
  apply wp_change hwritten (hstop _ _ hwritten)
  intro x hx
  obtain ⟨item, hitem, rfl⟩ := AppRoot.rename_eq hx
  rw [AppRoot.get_set_self] at hitem
  cases hitem
  have hreplaced := (hwritten.erase htemp).set (Or.inr rfl) (.json value)
  refine ⟨hreplaced, ?_⟩
  apply wp_change hreplaced (hstop _ _ hreplaced)
  intro y hy
  cases hy
  exact ⟨hreplaced, hreplaced, AppRoot.get_set_self _ _ _⟩

end Switch

section Install

variable {kept : Prop}

/-- What a completed install has done. -/
def Done (lib : Library) (baseUrl : Text) (c : Call) (s : AppRoot) : Report → AppRoot → Prop
  | .current, t => Agrees c.Scratch s t ∧ t.validated = s.validated ∧
      ∃ release, releaseRecord baseUrl c = .ok release ∧
        installedVersion s = release.version ∧ c.force = false
  | .installed, t => ∃ release files value, releaseRecord baseUrl c = .ok release ∧
      ¬ (installedVersion s = release.version ∧ c.force = false) ∧
      c.payload lib release = some files ∧ t.HasRecord release files ∧
      t.get upstream = some (.dir files) ∧ t.get installedJson = some (.json value) ∧
      value.version = release.version ∧ value.officialMd5 = release.md5

theorem wp_installRelease (hs : Holds kept s) (ht : Agrees c.Scratch s t)
    (hpresent : (c.payload lib release).isSome → kept → s.get upstream ≠ none) :
    wp (Holds kept)
      (fun _ u => Holds kept u ∧ ∃ files value, c.payload lib release = some files ∧
        u.HasRecord release files ∧ u.get upstream = some (.dir files) ∧
        u.get installedJson = some (.json value) ∧
        value.version = release.version ∧ value.officialMd5 = release.md5)
      (fun _ => Holds kept) (installRelease lib c release) t := by
  have hholds : ∀ u, Agrees c.Scratch s u → Holds kept u := fun u hu =>
    hs.of_agrees hu (upstream_not_scratch c) (previous_not_scratch c)
  have hrecord : ∀ name ∈ [upstream, upstreamPrevious], ¬ c.Record name := by
    rintro name hname (h | h)
    · exact not_scratch c (List.mem_append_left [installedJson] hname) (Or.inr h)
    · revert hname
      rw [h]
      decide
  unfold installRelease
  rw [wp_bind]
  apply wp_mono (wp_stageRelease ht) hholds _ fun _ => hholds
  rintro ⟨actualMd5, actualSha256⟩ u ⟨hu, hmd5, files, hfiles, hstage, hversion, hvalid⟩
  rw [wp_bind]
  have hpresent' : kept → u.get upstream ≠ none := by
    intro hk
    rw [hu.1 _ (upstream_not_scratch c)]
    exact hpresent (by rw [hfiles]; rfl) hk
  apply wp_mono (wp_switchPayload (hholds u hu) hpresent' hvalid hstage) (fun _ h => h) _
    (fun _ _ h => h)
  rintro _ v ⟨hvalid', hupstream⟩
  have hafter : ∀ w, Agrees c.Record v w → Holds kept w := by
    intro w hw
    exact holds_of_upstream ⟨_, hw.2 hvalid', (hw.1 _ (hrecord _ (by simp))).trans hupstream⟩
  apply wp_mono wp_writeJsonDurable hafter _ fun _ => hafter
  rintro _ w ⟨hw, hjson⟩
  exact ⟨hafter w hw, files, _, hfiles, ⟨hversion, hw.2 hvalid'⟩,
    (hw.1 _ (hrecord _ (by simp))).trans hupstream, hjson, rfl, hmd5⟩

theorem wp_install (hs : Holds kept s)
    (hsafe : kept → s.get upstream ≠ none ∨ c.switches lib baseUrl s = false) :
    wp (Holds kept) (fun r t => Holds kept t ∧ Done lib baseUrl c s r t) (fun _ => Holds kept)
      (install lib baseUrl c) s := by
  have hholds : ∀ u, Agrees c.Scratch s u → Holds kept u := fun u hu =>
    hs.of_agrees hu (upstream_not_scratch c) (previous_not_scratch c)
  unfold install
  by_cases hrunning : c.runtimeStopped = true
  · rw [if_pos hrunning, wp_bind]
    apply wp_mono ((keeps_cleanup_agrees s).stays s ⟨Agrees.refl c.Scratch s, rfl⟩)
      (fun t ht => hholds t ht.1) _ fun _ t ht => hholds t ht.1
    rintro _ t ⟨ht, hvalidated⟩
    cases hrelease : releaseRecord baseUrl c with
    | error stop => exact hholds t ht
    | ok release =>
      dsimp only
      rw [wp_bind]
      apply wp_look (hholds t ht) (hholds t ht)
      intro current hcurrent
      cases hcurrent
      have hversion : installedVersion t = installedVersion s := by
        unfold installedVersion
        rw [ht.1 _ (upstream_not_scratch c), ht.1 _ (installed_not_scratch c)]
      rw [hversion]
      by_cases hdone : installedVersion s = release.version ∧ c.force = false
      · rw [if_pos hdone, wp_pure]
        exact ⟨hholds t ht, ht, hvalidated, release, hrelease, hdone⟩
      · rw [if_neg hdone, wp_bind]
        apply wp_change (hholds t ht) (hholds t ht)
        rintro u hu
        have hpresent : Agrees c.Scratch s u := by
          cases hu
          exact ht
        refine ⟨hholds u hpresent, ?_⟩
        rw [wp_bind]
        apply wp_change (hholds u hpresent) (hholds u hpresent)
        intro v hv
        rw [AppRoot.mkdir_eq hv]
        have hmade := hpresent.set (scratch_temp c) (.dir ∅)
        refine ⟨hholds _ hmade, ?_⟩
        have hreach : (c.payload lib release).isSome → kept → s.get upstream ≠ none := by
          intro hpayload hk
          rcases hsafe hk with hup | hno
          · exact hup
          · simp only [Call.switches, hrelease, hrunning, hpayload, Bool.true_and,
              Bool.and_true] at hno
            simp at hno
            exact absurd hno hdone
        have htemp : ∀ w, Holds kept w → wp (Holds kept)
            (fun _ => Agrees c.Scratch w) (fun _ => Agrees c.Scratch w) (rmtree c.temp) w := by
          intro w hw
          have hback : ∀ x, Agrees c.Scratch w x → Holds kept x := fun x hx =>
            hw.of_agrees hx (upstream_not_scratch c) (previous_not_scratch c)
          exact wp_of_keeps (keeps_rmtree (ignores_agrees (scratch_temp c) w)) (Agrees.refl _ w) hback
            (fun _ _ hx => hx) fun _ _ hx => hx
        have hback : ∀ w x, Holds kept w → Agrees c.Scratch w x → Holds kept x :=
          fun w x hw hx => hw.of_agrees hx (upstream_not_scratch c) (previous_not_scratch c)
        unfold Script.andThen
        rw [wp_bind, wp_bind, wp_handle]
        apply wp_mono (wp_installRelease hs hmade hreach) (fun _ h => h)
        · rintro _ w ⟨hw, files, value, hfiles, ⟨htext, hvalid⟩, hup, hjson, hvalue, hmd5⟩
          rw [wp_bind]
          apply wp_mono (htemp w hw) (fun _ h => h)
          · intro _ x hx
            refine ⟨hback w x hw hx, release, files, value, hrelease, hdone, hfiles,
              ⟨htext, hx.2 hvalid⟩, ?_, ?_, hvalue, hmd5⟩
            · rw [hx.1 _ (upstream_not_scratch c), hup]
            · rw [hx.1 _ (installed_not_scratch c), hjson]
          · exact fun _ x hx => hback w x hw hx
        · intro stop w hw
          rw [wp_bind]
          apply wp_mono (htemp w hw) (fun _ h => h)
          · exact fun _ x hx => hback w x hw hx
          · exact fun _ x hx => hback w x hw hx
  · rw [if_neg hrunning]
    exact hs

end Install

end PlumosBubble.PortMaster
