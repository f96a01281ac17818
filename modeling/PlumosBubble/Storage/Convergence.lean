import PlumosBubble.Storage.Safety

/-! Where interrupted boots lead to. With tools that do what they are documented to do, the
first boot of a seed card that is not interrupted finishes it, if what is left on the sectors
of p4 is not taken for another filesystem. -/

namespace PlumosBubble.Storage

open Scripts Transition
open Update (Text)

variable {Bytes : Type} {tools : Tools Bytes} {m t : Machine Bytes} {old : Bytes}

section Progress

/-- What the tools are documented to do, with each of them successful. -/
structure Tools.Documented (tools : Tools Bytes) : Prop where
  reliable : tools.mayFail = false
  mkfs_type : ∀ b, tools.blkidType (tools.mkfsFat b) = vfat
  mkfs_label : ∀ b, tools.blkidLabel (tools.mkfsFat b) = plumos
  fsck_type : ∀ b, tools.blkidType b = vfat → tools.blkidType (tools.fsckFat b) = vfat
  fsck_label : ∀ b, tools.blkidType b = vfat → tools.blkidLabel b = plumos →
    tools.blkidLabel (tools.fsckFat b) = plumos
  grain_pos : 0 < tools.grain
  grain_le : tools.grain ≤ 2 ^ 16

/-- A vfat volume with the label PLUMOS. -/
def IsUserdata (tools : Tools Bytes) (area : Bytes) : Prop :=
  tools.blkidType area = vfat ∧ tools.blkidLabel area = plumos

/-- What no boot changes. -/
structure Contract (c : Card Bytes) : Prop where
  sectors : minimumDiskSectors ≤ c.sectors
  p1 : c.p1 = ⟨bootStart, bootSectors⟩
  p2 : c.p2 = ⟨matchingStart, matchingSectors⟩
  p3_start : c.p3.start = runtimeStart
  p1Label : c.p1Label = plumboot
  p1Authorized : c.p1Authorized = true
  p3Label : c.p3Label = plumosSys
  manifest : ∃ lines, c.files.manifest = some lines ∧ authorizedYes ∈ lines

/-- The seed layout. -/
structure Seed (c : Card Bytes) : Prop where
  contract : Contract c
  p3_size : c.p3.size = runtimeSeedSectors
  p4 : c.p4 = none
  complete : c.files.complete = false

/-- How far a card is, with `old` for what was on the sectors of p4. -/
structure Progress (tools : Tools Bytes) (old : Bytes) (c : Card Bytes) : Prop where
  contract : Contract c
  p3_size : c.p3.size = runtimeSeedSectors ∧ c.p4 = none ∨ c.p3.size = runtimeTargetSectors
  p4 : ∀ p, c.p4 = some p → p = ⟨userdataStart, tools.p4Size c.sectors⟩ ∧ c.files.hasIntent = true
  complete : c.files.complete = true → c.p4 ≠ none ∧ IsUserdata tools c.area
  area : c.area = old ∨ IsUserdata tools c.area

theorem Seed.progress {c : Card Bytes} (h : Seed c) : Progress tools c.area c where
  contract := h.contract
  p3_size := Or.inl ⟨h.p3_size, h.p4⟩
  p4 p hp := by rw [h.p4] at hp; cases hp
  complete hc := by rw [h.complete] at hc; cases hc
  area := Or.inl rfl

theorem Contract.with_files {c : Card Bytes} (h : Contract c) {files : Files}
    (hmanifest : files.manifest = c.files.manifest) : Contract { c with files := files } :=
  ⟨h.sectors, h.p1, h.p2, h.p3_start, h.p1Label, h.p1Authorized, h.p3Label,
    by simpa [hmanifest] using h.manifest⟩

/-- The state between two commands of the helper: nothing is mounted. -/
structure Idle (tools : Tools Bytes) (old : Bytes) (m : Machine Bytes) : Prop where
  unmounted : m.mounted = none
  card : Progress tools old m.card

/-- The state anywhere: what is not written yet is as good as what is on the card. -/
structure Underway (tools : Tools Bytes) (old : Bytes) (m : Machine Bytes) : Prop where
  card : Progress tools old m.card
  pending : ∀ files, m.mounted = some files → Progress tools old { m.card with files := files }

theorem Idle.underway (h : Idle tools old m) : Underway tools old m :=
  ⟨h.card, fun files hfiles => by rw [h.unmounted] at hfiles; cases hfiles⟩

theorem Underway.powerOff (h : Underway tools old m) : Idle tools old m.powerOff := ⟨rfl, h.card⟩

theorem Idle.mount (h : Idle tools old m) : Underway tools old (mountFiles m) :=
  ⟨h.card, fun files hfiles => by cases hfiles; exact h.card⟩

theorem Underway.sync (h : Underway tools old m) : Underway tools old m.sync := by
  refine ⟨?_, h.pending⟩
  unfold Machine.sync
  cases hm : m.mounted with
  | none => exact h.card
  | some files => exact h.pending files hm

theorem Underway.unmount (h : Underway tools old m) : Idle tools old (unmountFiles m) :=
  ⟨rfl, h.sync.card⟩

theorem Underway.edit (h : Underway tools old m) {f : Files → Files}
    (hf : ∀ files, Progress tools old { m.card with files := files } →
      Progress tools old { m.card with files := f files }) : Underway tools old (m.edit f) := by
  refine ⟨h.card, fun files hfiles => ?_⟩
  obtain ⟨before, hbefore, rfl⟩ := Option.map_eq_some_iff.mp hfiles
  exact hf before (h.pending before hbefore)

theorem Underway.writeBack (h : Underway tools old m) {f : Files → Files}
    (hf : ∀ files, Progress tools old { m.card with files := files } →
      Progress tools old { m.card with files := f files }) :
    Underway tools old (m.writeBack f) :=
  ⟨hf m.card.files h.card, h.pending⟩

theorem Progress.with_intent {c : Card Bytes} (h : Progress tools old c) :
    Progress tools old { c with files := { c.files with intent := some [intentLine] } } where
  contract := h.contract.with_files rfl
  p3_size := h.p3_size
  p4 p hp := ⟨(h.p4 p hp).1, by simp [Files.hasIntent]⟩
  complete := h.complete
  area := h.area

theorem Progress.with_complete {c : Card Bytes} (h : Progress tools old c) (hp4 : c.p4 ≠ none)
    (harea : IsUserdata tools c.area) :
    Progress tools old { c with files := { c.files with complete := true } } where
  contract := h.contract.with_files rfl
  p3_size := h.p3_size
  p4 p hp := ⟨(h.p4 p hp).1, (h.p4 p hp).2⟩
  complete _ := ⟨hp4, harea⟩
  area := h.area

theorem p4Size_ge (ht : tools.Documented) {sectors : ℕ} (h : minimumDiskSectors ≤ sectors) :
    p4MinimumSectors ≤ tools.p4Size sectors := by
  have hmod : sectors / tools.grain * tools.grain + sectors % tools.grain = sectors :=
    Nat.div_add_mod' sectors tools.grain
  have hlt : sectors % tools.grain < tools.grain := Nat.mod_lt _ ht.grain_pos
  have hle := ht.grain_le
  unfold Tools.p4Size
  simp only [minimumDiskSectors, p4MinimumSectors, userdataStart, runtimeTargetEnd, runtimeStart,
    runtimeTargetSectors] at h ⊢
  omega

end Progress

section Boot

variable {Q : Unit → Machine Bytes → Prop} {E : Failure → Machine Bytes → Prop}
  {stage detail : String}

theorem wp_use_idle (ht : tools.Documented) {tool : Tool} (hm : Idle tools old m)
    (hcard : Progress tools old (tool.effect tools m.card)) (hQ : Q () (m.apply tools tool)) :
    wp (Underway tools old) Q E (use tools tool stage detail) m := by
  have hidle : Idle tools old (m.apply tools tool) := ⟨hm.unmounted, hcard⟩
  refine wp_use hidle.underway hQ fun hmay => ?_
  rw [ht.reliable] at hmay
  cases hmay

theorem wp_attempt_reliable (ht : tools.Documented) {I : Machine Bytes → Prop}
    {f : Machine Bytes → Machine Bytes} (hf : I (f m)) (hQ : Q () (f m)) :
    wp I Q E (attempt tools f stage detail) m := by
  refine wp_attempt hf hQ fun hmay => ?_
  rw [ht.reliable] at hmay
  cases hmay

theorem wp_checkGeometry_pass (hm : Idle tools old m) (hQ : Q () m) :
    wp (Underway tools old) Q E checkGeometry m := by
  have hu := hm.underway
  have hc := hm.card.contract
  unfold checkGeometry
  rw [wp_bind]
  refine wp_require_pass hu (by simp [hc.p1Label]) ?_
  rw [wp_bind]
  refine wp_require_pass hu (by simp [hc.p3Label]) ?_
  rw [wp_bind]
  refine wp_require_pass hu (by simp [hc.p1, hasGeometry]) ?_
  rw [wp_bind]
  refine wp_require_pass hu (by simp [hc.p2, hasGeometry]) ?_
  rw [wp_bind]
  refine wp_require_pass hu (by simp [hc.p3_start]) ?_
  refine wp_require_pass hu ?_ hQ
  rcases hm.card.p3_size with ⟨hsize, -⟩ | hsize
  · simp [hsize]
  · simp [hsize]

theorem wp_checkAuthorization_pass (hm : Idle tools old m) (hQ : Q () m) :
    wp (Underway tools old) Q E checkAuthorization m := by
  have hu := hm.underway
  obtain ⟨lines, hlines, hmem⟩ := hm.card.contract.manifest
  unfold checkAuthorization
  rw [wp_bind]
  refine wp_require_pass hu (by simp [hm.card.contract.p1Authorized]) ?_
  rw [wp_bind]
  refine wp_require_pass hu (by simp [hlines]) ?_
  exact wp_require_pass hu (by simp [hlines, hmem]) hQ

theorem wp_authorizeLayout_pass (hm : Idle tools old m) (hQ : Q () m) :
    wp (Underway tools old) Q E authorizeLayout m := by
  have hu := hm.underway
  have hc := hm.card.contract
  unfold authorizeLayout
  rw [wp_bind]
  refine wp_require_pass hu (by simp [hc.sectors]) ?_
  rw [wp_bind]
  refine wp_require_pass hu (by simp [hc.p1, hasGeometry]) ?_
  rw [wp_bind]
  refine wp_require_pass hu (by simp [hc.p2, hasGeometry]) ?_
  rw [wp_bind]
  refine wp_require_pass hu (by simp [hc.p3_start]) ?_
  rw [wp_bind]
  refine wp_require_pass hu (by simp [hc.p3Label]) ?_
  rw [wp_bind]
  have hne : runtimeSeedSectors ≠ runtimeTargetSectors := by decide
  rcases hm.card.p3_size with ⟨hsize, hnone⟩ | hsize
  · refine wp_require_pass hu (by simp [hsize]) ?_
    exact wp_require_pass hu (by simp [hnone]) hQ
  · refine wp_require_pass hu (by simp [hsize]) ?_
    exact wp_require_pass hu (by simp [hsize, hne.symm]) hQ

theorem wp_checkP4Place_pass (ht : tools.Documented) (hm : Idle tools old m)
    (hp4 : m.card.p4 ≠ none) (hQ : Q () m) : wp (Underway tools old) Q E checkP4Place m := by
  obtain ⟨p, hp⟩ := Option.ne_none_iff_exists'.mp hp4
  have hplace := (hm.card.p4 p hp).1
  subst hplace
  unfold checkP4Place
  rw [wp_bind]
  have hstart : m.card.p4.map Partition.start = some userdataStart := by rw [hp, Option.map_some]
  have hsize : p4MinimumSectors ≤ (m.card.p4.map Partition.size).getD 0 := by
    rw [hp, Option.map_some, Option.getD_some]
    exact p4Size_ge ht hm.card.contract.sectors
  refine wp_require_pass hm.underway (decide_eq_true hstart) ?_
  exact wp_require_pass hm.underway (decide_eq_true hsize) hQ

theorem wp_checkP4Type_pass (hm : Idle tools old m) (harea : IsUserdata tools m.card.area)
    (hQ : Q () m) : wp (Underway tools old) Q E (checkP4Type tools) m := by
  unfold checkP4Type
  rw [wp_bind]
  refine wp_require_pass hm.underway (by simp [blkidType, harea.1]) ?_
  exact wp_require_pass hm.underway (by simp [blkidLabel, harea.2]) hQ

/-- A finished card: p4 is there, and it is the volume that it should be. -/
structure Ready (tools : Tools Bytes) (c : Card Bytes) : Prop where
  p3_size : c.p3.size = runtimeTargetSectors
  p4 : ∃ p, c.p4 = some p ∧ p.start = userdataStart
  area : IsUserdata tools c.area

theorem Progress.ready {c : Card Bytes} (h : Progress tools old c) (hp4 : c.p4 ≠ none)
    (harea : IsUserdata tools c.area) : Ready tools c := by
  obtain ⟨p, hp⟩ := Option.ne_none_iff_exists'.mp hp4
  refine ⟨h.p3_size.resolve_left fun hseed => hp4 hseed.2, ⟨p, hp, ?_⟩, harea⟩
  rw [(h.p4 p hp).1]

theorem wp_completedBoot (ht : tools.Documented) (hm : Idle tools old m)
    (hcomplete : m.card.files.complete = true) :
    wp (Underway tools old) (fun _ u => Idle tools old u ∧ u.card.p4 ≠ none ∧
      IsUserdata tools u.card.area) E (completedBoot tools) m := by
  obtain ⟨hp4, harea⟩ := hm.card.complete hcomplete
  have hready := hm.card.ready hp4 harea
  unfold completedBoot
  rw [wp_bind]
  refine wp_require_pass hm.underway (by simp [hready.p3_size]) ?_
  rw [wp_bind]
  refine wp_require_pass hm.underway (by simpa using Option.isSome_iff_ne_none.mpr hp4) ?_
  rw [wp_bind]
  refine wp_checkP4Place_pass ht hm hp4 ?_
  exact wp_checkP4Type_pass hm harea ⟨hm, hp4, harea⟩

theorem wp_expandP3_pass (ht : tools.Documented) (hm : Idle tools old m) :
    wp (Underway tools old) (fun _ u => Idle tools old u ∧ u.card.p3.size = runtimeTargetSectors)
      E (expandP3 tools m.card.p3.size) m := by
  unfold expandP3
  split
  · rename_i hseed
    have hp4 : m.card.p4 = none := by
      rcases hm.card.p3_size with ⟨-, hnone⟩ | hsize
      · exact hnone
      · rw [hseed] at hsize
        exact absurd hsize (by decide)
    have hsize : (Tool.resizePart3.effect tools m.card).p3.size = runtimeTargetSectors := by
      change runtimeTargetEnd + 1 - m.card.p3.start = _
      rw [hm.card.contract.p3_start]
      decide
    have hcard : Progress tools old (Tool.resizePart3.effect tools m.card) := by
      have hc := hm.card.contract
      refine ⟨⟨hc.sectors, hc.p1, hc.p2, hc.p3_start, hc.p1Label, hc.p1Authorized, hc.p3Label,
        hc.manifest⟩, Or.inr hsize, hm.card.p4, hm.card.complete, hm.card.area⟩
    have hidle : Idle tools old (m.apply tools .resizePart3) := ⟨hm.unmounted, hcard⟩
    rw [wp_bind]
    refine wp_use_idle ht hm hcard ?_
    exact wp_require_pass hidle.underway (by simp [Machine.apply, hsize]) ⟨hidle, hsize⟩
  · rename_i hseed
    exact ⟨hm, hm.card.p3_size.resolve_left fun h => hseed h.1⟩

theorem wp_use_p3 (ht : tools.Documented) {tool : Tool} (htool : tool = .e2fsck ∨ tool = .resize2fs)
    (hm : Idle tools old m ∧ m.card.p3.size = runtimeTargetSectors) :
    wp (Underway tools old) (fun _ u => Idle tools old u ∧ u.card.p3.size = runtimeTargetSectors)
      E (use tools tool stage detail) m := by
  obtain ⟨hidle, hsize⟩ := hm
  have hc := hidle.card.contract
  have hcontract : Contract (tool.effect tools m.card) := by
    rcases htool with rfl | rfl
    · exact hc
    · exact ⟨hc.sectors, hc.p1, hc.p2, hc.p3_start, hc.p1Label, hc.p1Authorized, hc.p3Label,
        hc.manifest⟩
  have hcard : Progress tools old (tool.effect tools m.card) := by
    have hp := hidle.card
    rcases htool with rfl | rfl
    · exact hp
    · exact ⟨hcontract, hp.p3_size, hp.p4, hp.complete, hp.area⟩
  refine wp_use_idle ht hidle hcard ⟨⟨hidle.unmounted, hcard⟩, ?_⟩
  rcases htool with rfl | rfl
  · exact hsize
  · exact hsize

theorem wp_writeP4Intent_pass (ht : tools.Documented) (hm : Idle tools old m)
    (hp4 : m.card.p4 = none) :
    wp (Underway tools old) (fun _ u => Idle tools old u ∧ u.card.p4 = none ∧
      u.card.p3.size = m.card.p3.size ∧ u.card.files.hasIntent = true)
      E (writeP4Intent tools) m := by
  have hf : ∀ (c : Card Bytes) (files : Files), Progress tools old { c with files := files } →
      Progress tools old { c with files := { files with intent := some [intentLine] } } :=
    fun _ _ hprogress => hprogress.with_intent
  have hedit := hm.mount.edit fun files => hf _ files
  have hrest : ∀ u : Machine Bytes, Underway tools old u → u.card.p4 = none →
      u.card.p3.size = m.card.p3.size →
      (∃ files, u.mounted = some files ∧ files.hasIntent = true) →
      wp (Underway tools old) (fun _ v => Idle tools old v ∧ v.card.p4 = none ∧
        v.card.p3.size = m.card.p3.size ∧ v.card.files.hasIntent = true) E (do
          sync
          unmountState tools) u := by
    rintro u hu hnone hsize ⟨files, hmounted, hintent⟩
    rw [wp_bind]
    apply wp_sync
    refine ⟨hu.sync, ?_⟩
    unfold unmountState
    rw [wp_bind]
    apply wp_sync
    refine ⟨hu.sync.sync, ?_⟩
    refine wp_attempt_reliable ht hu.sync.sync.unmount.underway
      ⟨hu.sync.sync.unmount, hnone, hsize, ?_⟩
    simp [unmountFiles, Machine.sync, hmounted, hintent]
  have hmarked : ∀ files : Files,
      ({ files with intent := some [intentLine] } : Files).hasIntent = true := by
    intro files
    simp [Files.hasIntent]
  unfold writeP4Intent mountState
  rw [wp_bind]
  refine wp_attempt_reliable ht hm.mount ?_
  rw [wp_bind]
  apply wp_write
  · exact ⟨hedit, hrest _ hedit hp4 rfl ⟨_, rfl, hmarked _⟩⟩
  · have hback := hedit.writeBack fun files => hf _ files
    exact ⟨hback, hrest _ hback hp4 rfl ⟨_, rfl, hmarked _⟩⟩

theorem wp_createP4_pass (ht : tools.Documented)
    (hm : Idle tools old m ∧ m.card.p3.size = runtimeTargetSectors) :
    wp (Underway tools old) (fun _ u => Idle tools old u ∧ u.card.p4 ≠ none) E
      (createP4 tools) m := by
  obtain ⟨hidle, htarget⟩ := hm
  unfold createP4
  rw [wp_bind, wp_read]
  refine ⟨hidle.underway, ?_⟩
  cases hp4 : m.card.p4 with
  | some p => exact ⟨hidle, by simp [hp4]⟩
  | none =>
    rw [Option.isSome_none, if_neg (by simp), wp_bind]
    apply wp_mono (wp_writeP4Intent_pass ht hidle hp4) (fun _ h => h) _ (fun _ _ h => h)
    rintro _ u ⟨hu, hnone, hsize, hintent⟩
    have hcard : Progress tools old (Tool.mkPart4.effect tools u.card) := by
      simp only [Tool.effect, hnone]
      have hc := hu.card.contract
      refine ⟨⟨hc.sectors, hc.p1, hc.p2, hc.p3_start, hc.p1Label, hc.p1Authorized, hc.p3Label,
        hc.manifest⟩, Or.inr (hsize.trans htarget), ?_, ?_, hu.card.area⟩
      · intro p hp
        cases hp
        exact ⟨rfl, hintent⟩
      · intro hcomplete
        exact absurd hnone (hu.card.complete hcomplete).1
    have hmade : (u.apply tools .mkPart4).card.p4 ≠ none := by
      simp [Machine.apply, Tool.effect, hnone]
    have hidle' : Idle tools old (u.apply tools .mkPart4) := ⟨hu.unmounted, hcard⟩
    rw [wp_bind]
    refine wp_use_idle ht hu hcard ?_
    rw [wp_bind]
    exact wp_require_pass hidle'.underway (Option.isSome_iff_ne_none.mpr hmade) ⟨hidle', hmade⟩

theorem wp_authorizeFormat_pass (ht : tools.Documented) (hm : Idle tools old m)
    (hp4 : m.card.p4 ≠ none) (formatP4 : Bool) :
    wp (Underway tools old) (fun _ u => Idle tools old u ∧ u.card.p4 ≠ none) E
      (authorizeFormat tools formatP4) m := by
  unfold authorizeFormat
  cases formatP4 with
  | true => exact ⟨hm, hp4⟩
  | false =>
    obtain ⟨p, hp⟩ := Option.ne_none_iff_exists'.mp hp4
    have hintent : m.card.files.hasIntent = true := (hm.card.p4 p hp).2
    rw [if_neg (by simp), wp_bind]
    unfold hasP4Intent mountState unmountState
    rw [wp_bind]
    refine wp_attempt_reliable ht hm.mount ?_
    rw [wp_bind, wp_read]
    refine ⟨hm.mount, ?_⟩
    rw [wp_bind, wp_bind]
    apply wp_sync
    refine ⟨hm.mount.sync, ?_⟩
    refine wp_attempt_reliable ht hm.mount.sync.unmount.underway ?_
    have hread : ((mountFiles m).mounted.map Files.hasIntent).getD false = true := hintent
    rw [wp_pure, hread, if_pos rfl, wp_pure]
    exact ⟨hm.mount.sync.unmount, hp4⟩

/-- What the old bytes have to be: nothing that is found, or the volume itself. -/
def Acceptable (tools : Tools Bytes) (old : Bytes) : Prop :=
  tools.blkidType old = [] ∨ IsUserdata tools old

theorem wp_formatBlankP4_pass (ht : tools.Documented) (hold : Acceptable tools old)
    (hm : Idle tools old m) (hp4 : m.card.p4 ≠ none) (formatP4 : Bool) :
    wp (Underway tools old) (fun _ u => Idle tools old u ∧ u.card.p4 ≠ none ∧
      IsUserdata tools u.card.area) E (formatBlankP4 tools formatP4) m := by
  unfold formatBlankP4
  rw [wp_bind, wp_read]
  refine ⟨hm.underway, ?_⟩
  split
  · rw [wp_bind]
    apply wp_mono (wp_authorizeFormat_pass ht hm hp4 formatP4) (fun _ h => h) _ (fun _ _ h => h)
    rintro _ u ⟨hu, hp4'⟩
    have harea : IsUserdata tools (Tool.mkfsFat.effect tools u.card).area :=
      ⟨ht.mkfs_type _, ht.mkfs_label _⟩
    have hcard : Progress tools old (Tool.mkfsFat.effect tools u.card) := by
      have hc := hu.card.contract
      exact ⟨⟨hc.sectors, hc.p1, hc.p2, hc.p3_start, hc.p1Label, hc.p1Authorized, hc.p3Label,
        hc.manifest⟩, hu.card.p3_size, hu.card.p4,
        fun hcomplete => ⟨(hu.card.complete hcomplete).1, harea⟩, Or.inr harea⟩
    exact wp_use_idle ht hu hcard ⟨⟨hu.unmounted, hcard⟩, hp4', harea⟩
  · rename_i hfound
    refine ⟨hm, hp4, ?_⟩
    rcases hm.card.area with hsame | harea
    · have hfound' : tools.blkidType old ≠ [] := by
        rw [← hsame]
        exact hfound
      rw [hsame]
      exact hold.resolve_left hfound'
    · exact harea

theorem wp_fsckFat_pass (ht : tools.Documented) (hm : Idle tools old m) (hp4 : m.card.p4 ≠ none)
    (harea : IsUserdata tools m.card.area) :
    wp (Underway tools old) (fun _ u => Idle tools old u ∧ u.card.p4 ≠ none ∧
      IsUserdata tools u.card.area) E (fsckFat tools) m := by
  have harea' : IsUserdata tools (Tool.fsckFat.effect tools m.card).area :=
    ⟨ht.fsck_type _ harea.1, ht.fsck_label _ harea.1 harea.2⟩
  have hcard : Progress tools old (Tool.fsckFat.effect tools m.card) := by
    have hc := hm.card.contract
    exact ⟨⟨hc.sectors, hc.p1, hc.p2, hc.p3_start, hc.p1Label, hc.p1Authorized, hc.p3Label,
      hc.manifest⟩, hm.card.p3_size, hm.card.p4,
      fun hcomplete => ⟨(hm.card.complete hcomplete).1, harea'⟩, Or.inr harea'⟩
  exact wp_use_idle ht hm hcard ⟨⟨hm.unmounted, hcard⟩, hp4, harea'⟩

theorem wp_provisionSteps_pass (ht : tools.Documented) (hold : Acceptable tools old)
    (hm : Idle tools old m) :
    wp (Underway tools old) (fun _ u => Idle tools old u ∧ u.card.p4 ≠ none ∧
      IsUserdata tools u.card.area) E (provisionSteps tools) m := by
  unfold provisionSteps
  rw [wp_bind, wp_read]
  refine ⟨hm.underway, ?_⟩
  rw [wp_bind]
  apply wp_mono (wp_expandP3_pass ht hm) (fun _ h => h) _ (fun _ _ h => h)
  intro _ s hs
  rw [wp_bind]
  apply wp_mono (wp_use_p3 ht (by simp) hs) (fun _ h => h) _ (fun _ _ h => h)
  intro _ u hu
  rw [wp_bind]
  apply wp_mono (wp_use_p3 ht (by simp) hu) (fun _ h => h) _ (fun _ _ h => h)
  intro _ v hv
  rw [wp_bind]
  apply wp_mono (wp_use_p3 ht (by simp) hv) (fun _ h => h) _ (fun _ _ h => h)
  intro _ w hw
  rw [wp_bind]
  apply wp_mono (wp_createP4_pass ht hw) (fun _ h => h) _ (fun _ _ h => h)
  rintro formatP4 x ⟨hx, hp4⟩
  rw [wp_bind]
  refine wp_checkP4Place_pass ht hx hp4 ?_
  rw [wp_bind]
  apply wp_mono (wp_formatBlankP4_pass ht hold hx hp4 formatP4) (fun _ h => h) _ (fun _ _ h => h)
  rintro _ y ⟨hy, hp4', harea⟩
  rw [wp_bind]
  exact wp_checkP4Type_pass hy harea (wp_fsckFat_pass ht hy hp4' harea)

theorem wp_finishBoot_pass (ht : tools.Documented) (hm : Idle tools old m)
    (hp4 : m.card.p4 ≠ none) (harea : IsUserdata tools m.card.area) :
    wp (Underway tools old) (fun _ u => Ready tools u.card) E (finishBoot tools) m := by
  have hready : Ready tools m.card := hm.card.ready hp4 harea
  have hf : ∀ (c : Card Bytes), c.p4 ≠ none → IsUserdata tools c.area → ∀ files : Files,
      Progress tools old { c with files := files } →
      Progress tools old { c with files := { files with complete := true } } :=
    fun _ hp4 harea _ hprogress => hprogress.with_complete hp4 harea
  have hedit := hm.mount.sync.edit fun files => hf _ hp4 harea files
  have hback := hedit.writeBack fun files => hf _ hp4 harea files
  have hend : Ready tools m.card := hready
  unfold finishBoot
  rw [wp_bind]
  refine wp_attempt_reliable ht hm.underway ?_
  rw [wp_bind]
  refine wp_attempt_reliable ht hm.mount ?_
  rw [wp_bind]
  refine wp_attempt_reliable ht hm.mount ?_
  rw [wp_bind]
  apply wp_sync
  refine ⟨hm.mount.sync, ?_⟩
  rw [wp_bind]
  apply wp_write
  · exact ⟨hedit, wp_sync ⟨hedit.sync, hend.p3_size, hend.p4, hend.area⟩⟩
  · exact ⟨hback, wp_sync ⟨hback.sync, hend.p3_size, hend.p4, hend.area⟩⟩

theorem wp_init_pass (ht : tools.Documented) (hold : Acceptable tools old)
    (hm : Idle tools old m) :
    wp (Underway tools old) (fun _ u => Ready tools u.card) (fun _ _ => False) (init tools) m := by
  unfold init
  rw [wp_bind]
  refine wp_checkGeometry_pass hm ?_
  rw [wp_bind]
  refine wp_attempt_reliable ht hm.underway ?_
  rw [wp_bind]
  refine wp_attempt_reliable ht hm.underway ?_
  rw [wp_bind]
  refine wp_checkAuthorization_pass hm ?_
  rw [wp_bind, wp_read]
  refine ⟨hm.underway, ?_⟩
  rw [wp_bind]
  refine wp_attempt_reliable ht hm.underway ?_
  rw [wp_bind]
  refine wp_attempt_reliable ht hm.underway ?_
  rw [wp_bind, wp_handle]
  have hprovision : wp (Underway tools old) (fun _ u => Idle tools old u ∧ u.card.p4 ≠ none ∧
      IsUserdata tools u.card.area) (fun _ _ => False)
      (provisionStorage tools m.card.files.complete) m := by
    unfold provisionStorage
    rw [wp_bind]
    refine wp_authorizeLayout_pass hm ?_
    cases hcomplete : m.card.files.complete with
    | true => exact wp_completedBoot ht hm hcomplete
    | false => exact wp_provisionSteps_pass ht hold hm
  apply wp_mono hprovision (fun _ h => h) _ (fun _ _ h => h.elim)
  rintro _ u ⟨hu, hp4, harea⟩
  exact wp_finishBoot_pass ht hu hp4 harea

end Boot

section Refusal

/-- The bytes that are left on the sectors of p4 are still there. -/
structure Untouched (old : Bytes) (m : Machine Bytes) : Prop where
  area : m.card.area = old
  durable : m.card.files.complete = false
  pending : ∀ files, m.mounted = some files → files.complete = false

theorem keeps_use_untouched {tool : Tool} (hne : tool ≠ .mkfsFat) (hne' : tool ≠ .fsckFat)
    (stage detail : String) : Keeps (Untouched old) (use tools tool stage detail) := by
  apply keeps_use
  · intro s hs
    have hsame : (tool.effect tools s.card).area = s.card.area ∧
        (tool.effect tools s.card).files = s.card.files := by
      cases tool with
      | mkfsFat => exact absurd rfl hne
      | fsckFat => exact absurd rfl hne'
      | mkPart4 =>
        simp only [Tool.effect]
        split <;> exact ⟨rfl, rfl⟩
      | _ => exact ⟨rfl, rfl⟩
    exact ⟨hsame.1.trans hs.area, (congrArg Files.complete hsame.2).trans hs.durable, hs.pending⟩
  · exact fun s hs => ⟨hs.area, hs.durable, hs.pending⟩

theorem Untouched.mount (h : Untouched old m) : Untouched old (mountFiles m) :=
  ⟨h.area, h.durable, fun _ hfiles => by cases hfiles; exact h.durable⟩

theorem Untouched.sync (h : Untouched old m) : Untouched old m.sync := by
  refine ⟨h.area, ?_, h.pending⟩
  unfold Machine.sync
  cases hm : m.mounted with
  | none => exact h.durable
  | some files => exact h.pending files hm

theorem Untouched.unmount (h : Untouched old m) : Untouched old (unmountFiles m) :=
  ⟨h.area, h.sync.durable, fun _ hfiles => by cases hfiles⟩

theorem keeps_sync_untouched : Keeps (Untouched old) sync :=
  ⟨fun _ hs => wp_sync ⟨hs.sync, hs.sync⟩⟩

theorem keeps_writeP4Intent_untouched : Keeps (Untouched old) (writeP4Intent tools) := by
  apply Keeps.bind (keeps_attempt fun _ hs => hs.mount)
  intro _
  apply Keeps.bind
  · constructor
    intro s hs
    have hedit : Untouched old (s.edit fun files => { files with intent := some [intentLine] }) := by
      refine ⟨hs.area, hs.durable, fun files hfiles => ?_⟩
      obtain ⟨before, hbefore, rfl⟩ := Option.map_eq_some_iff.mp hfiles
      exact hs.pending before hbefore
    exact wp_write ⟨hedit, hedit⟩ ⟨⟨hs.area, hs.durable, hedit.pending⟩,
      ⟨hs.area, hs.durable, hedit.pending⟩⟩
  · intro _
    exact Keeps.bind keeps_sync_untouched fun _ => Keeps.bind keeps_sync_untouched fun _ =>
      keeps_attempt fun _ hs => hs.unmount

theorem keeps_createP4_untouched : Keeps (Untouched old) (createP4 tools) := by
  apply Keeps.bind (Keeps.read _)
  intro present
  refine Keeps.ite (Keeps.pure _) ?_
  exact Keeps.bind keeps_writeP4Intent_untouched fun _ =>
    Keeps.bind (keeps_use_untouched (by simp) (by simp) _ _) fun _ =>
      Keeps.bind (keeps_require _ _) fun _ => Keeps.pure _

theorem keeps_expandP3_untouched (p3Sectors : ℕ) :
    Keeps (Untouched old) (expandP3 tools p3Sectors) :=
  Keeps.ite (Keeps.bind (keeps_use_untouched (by simp) (by simp) _ _) fun _ =>
    keeps_require _ _) (Keeps.pure _)

theorem wp_provisionSteps_refused (hfound : tools.blkidType old ≠ [])
    (hother : ¬ IsUserdata tools old) (hm : Untouched old m) :
    wp (Untouched old) (fun _ _ => False) (fun _ _ => True) (provisionSteps tools) m := by
  unfold provisionSteps
  refine wp_then (Keeps.read _) hm fun p3Sectors s hs => ?_
  refine wp_then (keeps_expandP3_untouched p3Sectors) hs fun _ s hs => ?_
  refine wp_then (keeps_use_untouched (by simp) (by simp) _ _) hs fun _ s hs => ?_
  refine wp_then (keeps_use_untouched (by simp) (by simp) _ _) hs fun _ s hs => ?_
  refine wp_then (keeps_use_untouched (by simp) (by simp) _ _) hs fun _ s hs => ?_
  refine wp_then keeps_createP4_untouched hs fun formatP4 s hs => ?_
  refine wp_then keeps_checkP4Place hs fun _ s hs => ?_
  -- the bytes are not blank, so nothing is formatted
  rw [wp_bind]
  unfold formatBlankP4
  rw [wp_bind, wp_read]
  refine ⟨hs, ?_⟩
  have hfound' : blkidType tools s.card ≠ [] := by
    unfold blkidType
    rw [hs.area]
    exact hfound
  rw [if_neg hfound', wp_pure, wp_bind]
  unfold checkP4Type
  rw [wp_bind]
  refine wp_require hs (fun _ => trivial) fun htype => ?_
  refine wp_require hs (fun _ => trivial) fun hlabel => ?_
  refine absurd ?_ hother
  rw [← hs.area]
  exact ⟨of_decide_eq_true htype, of_decide_eq_true hlabel⟩

theorem wp_init_refused (hfound : tools.blkidType old ≠ []) (hother : ¬ IsUserdata tools old)
    (hm : Untouched old m) :
    wp (Untouched old) (fun _ _ => False) (fun _ _ => True) (init tools) m := by
  have hid : ∀ stage detail, Keeps (Untouched old) (attempt tools id stage detail) :=
    fun _ _ => keeps_attempt fun _ hs => hs
  unfold init
  refine wp_then keeps_checkGeometry hm fun _ s hs => ?_
  refine wp_then (hid _ _) hs fun _ s hs => ?_
  refine wp_then (hid _ _) hs fun _ s hs => ?_
  refine wp_then keeps_checkAuthorization hs fun _ s hs => ?_
  rw [wp_bind, wp_read]
  refine ⟨hs, ?_⟩
  rw [hs.durable]
  refine wp_then (hid _ _) hs fun _ s hs => ?_
  refine wp_then (hid _ _) hs fun _ s hs => ?_
  rw [wp_bind, wp_handle]
  unfold provisionStorage
  rw [wp_bind]
  have hlayout := @wp_authorizeLayout _ _ (Untouched old) (fun _ _ => True) hs fun _ => trivial
  apply wp_mono hlayout (fun _ h => h)
  · rintro _ u ⟨rfl, -⟩
    exact wp_mono (wp_provisionSteps_refused hfound hother hs) (fun _ h => h)
      (fun _ _ h => h.elim) fun _ _ _ => trivial
  · exact fun _ _ _ => trivial

end Refusal

section Boots

/-- A boot from here that nothing interrupts comes to its end, and leaves a finished card. -/
def Converges (tools : Tools Bytes) (m : Machine Bytes) : Prop :=
  (∃ rest u, Script.Leads (init tools) m rest u ∧ rest.Ended) ∧
    ∀ rest u, Script.Leads (init tools) m rest u → rest.Ended →
      rest.result = some () ∧ Ready tools u.card

theorem InterruptedBoot.idle (ht : tools.Documented) (hold : Acceptable tools old) {e : Unit}
    (h : InterruptedBoot tools m e t) (hm : Idle tools old m) : Idle tools old t := by
  obtain ⟨u, hleave, rfl⟩ := h
  exact (leaves_of_wp (wp_init_pass ht hold hm) hm.underway hleave).powerOff

section Samples

theorem sampleTools_documented : sampleTools.Documented where
  reliable := rfl
  mkfs_type _ := rfl
  mkfs_label _ := rfl
  fsck_type _ h := h
  fsck_label _ _ h := h
  grain_pos := by decide
  grain_le := by decide

/-- A seed card with some old bytes. -/
def seedCard (old : Text × Text) : Card (Text × Text) where
  sectors := minimumDiskSectors
  p1 := ⟨bootStart, bootSectors⟩
  p2 := ⟨matchingStart, matchingSectors⟩
  p3 := ⟨runtimeStart, runtimeSeedSectors⟩
  p4 := none
  p1Label := plumboot
  p1Authorized := true
  p3Label := plumosSys
  p3FilesystemSectors := runtimeSeedSectors
  files := ⟨some [authorizedYes], none, false⟩
  area := old
  p4AfterIntent := false

theorem seedCard_seed (old : Text × Text) : Seed (seedCard old) where
  contract := ⟨le_rfl, rfl, rfl, rfl, rfl, rfl, rfl, [authorizedYes], rfl, by simp⟩
  p3_size := rfl
  p4 := rfl
  complete := rfl

end Samples

end Boots

end PlumosBubble.Storage
