import PlumosBubble.FileSystem.Growth
import PlumosBubble.Update.Rollback
import PlumosBubble.Update.Extraction

/-! The loop of `apply_runtime` on a run that meets no exception. An operation on a path
below one that was installed before it finds its staged file gone with the other, and
fails; every other operation moves one node, or one staged subtree, and leaves everything
else alone. -/

namespace PlumosBubble.Update

open Crash FileSystem

/-- Some of the operations is on a proper ancestor of `r`. -/
def Under (operations : List Operation) (r : Text) : Prop := ∃ o ∈ operations, Nested o.path r

/-- What the loop starts from. -/
structure Ready (site : Site) (staging : Path) (operations : List Operation) (s : UpdateTree) :
    Prop where
  planned : Planned site s operations
  ordered : operations.Pairwise fun a b => ¬ Nested b.path a.path
  distinct : operations.Pairwise fun a b =>
    a.path = b.path → a.installRequested = false ∧ b.installRequested = false
  staged : ∃ version, Comparable version ∧ staging = site.staging version
  dir : s.node staging = some .dir
  stay : LinksStay staging s
  backupRoot : s.node site.backupRoot = some .dir
  noBackups : ∀ q, site.backupRoot <+: q → q ≠ site.backupRoot → s.node q = none

/-- The operations `moved` have given up their old nodes and those of `put` have their new
ones. -/
structure Installing (site : Site) (staging : Path) (operations : List Operation) (s : UpdateTree)
    (moved put : List Operation) (c : UpdateTree) : Prop where
  mem : ∀ o ∈ moved, o ∈ operations
  put_mem : ∀ o ∈ put, o ∈ moved ∧ o.installRequested = true
  frame : ∀ q, ¬ staging <+: q → ¬ site.backupRoot <+: q →
    (∀ o ∈ put, ¬ site.target o.path <+: q) → (∀ o ∈ moved, site.target o.path ≠ q) →
    c.node q = s.node q ∨
      s.node q = none ∧ c.node q = some .dir ∧ ∃ o ∈ put, q <+: site.target o.path
  here : ∀ o ∈ put, c.node (site.target o.path) ≠ none ∧
    c.node (site.target o.path) = s.lstat (joinPath staging o.path)
  gone : ∀ o ∈ moved, o ∉ put → ¬ Under put o.path →
    c.node (site.target o.path) = none ∨ c.node (site.target o.path) = some .dir
  top : ∀ o ∈ put, ¬ Under put o.path
  taken : ∀ o ∈ put, c.lstat (joinPath staging o.path) = none
  dir : c.node staging = some .dir
  fewer : Fewer staging s c
  backupRoot : c.node site.backupRoot = some .dir
  backups : ∀ q, site.backupRoot <+: q → c.node q = none ∨ c.node q = some .dir ∨
    ∃ o ∈ moved, o.existed = true ∧ q = site.backup o.path
  saved : ∀ o ∈ moved, o.existed = true →
    c.node (site.backup o.path) ≠ none ∧ c.node (site.backup o.path) ≠ some .dir
  quiet : Quiet site s c

section Installation

variable {env : Env} {site : Site} {staging : Path} {operations moved put : List Operation}
  {op : Operation} {s c d e : UpdateTree}

theorem nested_iff {r t : Text} (hr : Safe r) (ht : Safe t) :
    Nested r t ↔ site.target r <+: site.target t ∧ site.target r ≠ site.target t := by
  rw [Nested, Site.target_eq hr, Site.target_eq ht, List.prefix_append_right_inj, ne_eq, ne_eq,
    List.append_right_inj]

namespace Ready

variable (R : Ready site staging operations s)

include R

theorem own_of_staging {q : Path} (hq : staging <+: q) : site.Own q := by
  obtain ⟨version, hv, rfl⟩ := R.staged
  exact ⟨_, by decide, (updates_prefix_staging hv).trans hq⟩

omit R in
theorem own_of_backups {q : Path} (hq : site.backupRoot <+: q) : site.Own q :=
  ⟨_, by decide, (List.prefix_append site.backups _).trans hq⟩

theorem not_backups_of_staging {q : Path} (hq : staging <+: q) : ¬ site.backupRoot <+: q := by
  obtain ⟨version, hv, rfl⟩ := R.staged
  intro hp
  rw [staging_eq hv] at hq
  cases List.prefix_or_prefix_of_prefix hp hq with
  | inl h => simp [Site.backupRoot, Site.backups, Site.stagingRoot, Site.updates] at h
  | inr h => simp [Site.backupRoot, Site.backups, Site.stagingRoot, Site.updates] at h

theorem not_private_of_staging {q : Path} (hq : staging <+: q) : ¬ site.Private q := by
  obtain ⟨version, hv, rfl⟩ := R.staged
  exact not_staging_private hv hq

theorem outside (hop : op ∈ operations) {q : Path} (hq : q <+: site.target op.path) :
    ¬ staging <+: q ∧ ¬ site.backupRoot <+: q := by
  have hown := Site.not_own_of_target (R.planned.admitted op hop) List.prefix_rfl hq
  exact ⟨fun h => hown (R.own_of_staging h), fun h => hown (own_of_backups h)⟩

theorem clean_staged (hop : op ∈ operations) : Clean (staging ++ components op.path) := by
  obtain ⟨version, hv, rfl⟩ := R.staged
  exact (clean_staging site hv).append (R.planned.admitted op hop).safe.clean

theorem existed_not_under (hop : op ∈ operations) (hex : op.existed = true)
    (hmem : ∀ o ∈ moved, o ∈ operations) : ¬ Under moved op.path := by
  rintro ⟨o, ho, hn⟩
  have hoo := hmem o ho
  have hnode := (R.planned.existed op hop).mp hex
  obtain ⟨hp, hne⟩ := (@nested_iff site _ _ (R.planned.admitted o hoo).safe
    (R.planned.admitted op hop).safe).mp hn
  exact R.planned.replaceable o hoo (s.dir_of_ancestor hp hne hnode)

theorem start : Installing site staging operations s [] [] s := by
  refine ⟨by simp, by simp, fun _ _ _ _ _ => Or.inl rfl, by simp, by simp, by simp, by simp,
    R.dir, fun _ _ => Or.inr rfl, R.backupRoot, fun q hq => ?_, by simp, .refl _ _⟩
  by_cases he : q = site.backupRoot
  · exact Or.inr (Or.inl (he ▸ R.backupRoot))
  · exact Or.inl (R.noBackups q hq he)

end Ready

namespace Installing

theorem put_operations (h : Installing site staging operations s moved put c) :
    ∀ o ∈ put, o ∈ operations := fun o ho => h.mem o (h.put_mem o ho).1

theorem linksStay (R : Ready site staging operations s)
    (h : Installing site staging operations s moved put c) : LinksStay staging c := by
  intro q target hq hl
  cases h.fewer q hq with
  | inl hcq => rw [hcq] at hl; cases hl
  | inr hcq => exact R.stay q target hq (hcq ▸ hl)

theorem taken_of_fewer (R : Ready site staging operations s)
    (h : Installing site staging operations s moved put c) (hd : Fewer staging c d)
    (hdir : d.node staging = some .dir) :
    ∀ o ∈ put, d.lstat (joinPath staging o.path) = none := by
  intro o ho
  have hoo := h.put_operations o ho
  have htaken := h.taken o ho
  rw [joinPath_relative (R.planned.admitted o hoo).safe.relative] at htaken ⊢
  exact FileSystem.Tree.lstat_of_fewer hd (h.linksStay R) h.dir hdir (R.clean_staged hoo) htaken

theorem untouched (R : Ready site staging operations s)
    (h : Installing site staging operations s moved put c) (hop : op ∈ operations)
    (hu : ¬ Under put op.path) (hnew : ∀ o ∈ moved, o.path ≠ op.path) :
    c.node (site.target op.path) = s.node (site.target op.path) ∨
      s.node (site.target op.path) = none ∧ c.node (site.target op.path) = some .dir := by
  have ha := R.planned.admitted op hop
  have hout := R.outside hop List.prefix_rfl
  refine (h.frame _ hout.1 hout.2 (fun o ho hp => ?_) fun o ho he => ?_).imp id fun hf =>
    ⟨hf.1, hf.2.1⟩
  · have hao := R.planned.admitted o (h.put_operations o ho)
    by_cases he : site.target o.path = site.target op.path
    · exact hnew o (h.put_mem o ho).1 (Site.target_inj hao.safe ha.safe he)
    · exact hu ⟨o, ho, (nested_iff hao.safe ha.safe).mpr ⟨hp, he⟩⟩
  · exact hnew o ho (Site.target_inj (R.planned.admitted o (h.mem o ho)).safe ha.safe he)

theorem noLinkAbove_of_files (R : Ready site staging operations s)
    (h : Installing site staging operations s moved put c) (hop : op ∈ operations)
    (hfiles : ∀ o ∈ put, Nested o.path op.path → c.node (site.target o.path) ≠ some .dir ∧
      ∀ target, c.node (site.target o.path) ≠ some (.symlink target)) :
    NoLinkAbove c (site.target op.path) := by
  intro q hq hne target hl
  have ha := R.planned.admitted op hop
  have hnested : ∀ o ∈ operations, site.target o.path <+: q → Nested o.path op.path := by
    intro o ho hp
    have hao := R.planned.admitted o ho
    refine (nested_iff hao.safe ha.safe).mpr ⟨hp.trans hq, fun he => hne ?_⟩
    exact hq.eq_of_length_le (he ▸ hp.length_le)
  have hput : ∀ o ∈ put, ¬ site.target o.path <+: q := by
    intro o ho hp
    obtain ⟨hdir, hlink⟩ := hfiles o ho (hnested o (h.put_operations o ho) hp)
    by_cases he : site.target o.path = q
    · exact hlink target (he ▸ hl)
    · rw [c.eq_none_of_ancestor hp he hdir] at hl
      cases hl
  by_cases hm : ∃ o ∈ moved, site.target o.path = q
  · obtain ⟨o, ho, rfl⟩ := hm
    have hao := R.planned.admitted o (h.mem o ho)
    have hgone := h.gone o ho (fun hop => hput o hop List.prefix_rfl) fun ⟨a, ham, hn⟩ =>
      hput a ham ((nested_iff (R.planned.admitted a (h.put_operations a ham)).safe hao.safe).mp hn).1
    cases hgone with
    | inl hg => rw [hg] at hl; cases hl
    | inr hg => rw [hg] at hl; cases hl
  · have hout := R.outside hop hq
    cases h.frame q hout.1 hout.2 hput fun o ho he => hm ⟨o, ho, he⟩ with
    | inl hf => exact R.planned.linkFree op hop q hq hne target (hf ▸ hl)
    | inr hf => rw [hf.2.1] at hl; cases hl

theorem noLinkAbove (R : Ready site staging operations s)
    (h : Installing site staging operations s moved put c) (hop : op ∈ operations)
    (hu : ¬ Under put op.path) : NoLinkAbove c (site.target op.path) :=
  h.noLinkAbove_of_files R hop fun o ho hn => absurd ⟨o, ho, hn⟩ hu

/-! ### Giving up the old node -/

theorem openWay (R : Ready site staging operations s)
    (h : Installing site staging operations s moved put c) (hop : op ∈ operations)
    (hex : op.existed = true) : OpenWay c (site.backup op.path).dropLast := by
  intro q hq
  have ha := R.planned.admitted op hop
  have hq' := hq.trans (List.dropLast_prefix _)
  cases List.prefix_or_prefix_of_prefix hq' (Site.backupRoot_prefix_backup ha.safe) with
  | inl hp => exact OpenWay.of_dir h.backupRoot q hp
  | inr hp =>
    rcases h.backups q hp with hn | hd | ⟨o, ho, hexo, rfl⟩
    · exact Or.inr hn
    · exact Or.inl hd
    · have L := R.planned.layout
      exact absurd hq (L.saved_not_on_way (slot_mem site (h.mem o ho)) (slot_mem site hop)
        ((R.planned.existed op hop).mp hex))

theorem madeBackupDirs (R : Ready site staging operations s)
    (h : Installing site staging operations s moved put c) (hop : op ∈ operations)
    (hd : MadeDirs (site.backup op.path).dropLast c d) :
    Installing site staging operations s moved put d := by
  have hbr : site.backupRoot <+: site.backup op.path :=
    Site.backupRoot_prefix_backup (R.planned.admitted op hop).safe
  have hsame : ∀ q, ¬ site.backupRoot <+: q → d.node q = c.node q := by
    intro q hq
    cases hd q with
    | inl hdq => exact hdq
    | inr hdq =>
      have hq' := hdq.1.trans (List.dropLast_prefix _)
      have hup := (List.prefix_or_prefix_of_prefix hq' hbr).resolve_right hq
      rw [OpenWay.of_dir h.backupRoot q hup |>.resolve_right (fun hn => ?_)] at hdq
      · cases hdq.2.1
      · by_cases he : q = site.backupRoot
        · rw [he, h.backupRoot] at hn
          cases hn
        · rw [c.dir_of_ancestor hup he (by simp [h.backupRoot])] at hn
          cases hn
  have hlive : ∀ o ∈ operations, d.node (site.target o.path) = c.node (site.target o.path) :=
    fun o ho => hsame _ (R.outside ho List.prefix_rfl).2
  have hstaging : ∀ q, staging <+: q → d.node q = c.node q := fun q hq =>
    hsame q (R.not_backups_of_staging hq)
  refine ⟨h.mem, h.put_mem, fun q h1 h2 h3 h4 => ?_, fun o ho => ?_, fun o ho h1 h2 => ?_, h.top,
    fun o ho => ?_, (hstaging _ List.prefix_rfl).trans h.dir, fun q hq => ?_, hd.dir h.backupRoot,
    fun q hq => ?_, fun o ho hex => ?_, fun q hq => ?_⟩
  · rw [hsame q h2]
    exact h.frame q h1 h2 h3 h4
  · rw [hlive o (h.put_operations o ho)]
    exact h.here o ho
  · rw [hlive o (h.mem o ho)]
    exact h.gone o ho h1 h2
  · exact h.taken_of_fewer R (fun q hq => Or.inr (hstaging q hq))
      ((hstaging _ List.prefix_rfl).trans h.dir) o ho
  · rw [hstaging q hq]
    exact h.fewer q hq
  · cases hd q with
    | inl hdq => rw [hdq]; exact h.backups q hq
    | inr hdq => exact Or.inr (Or.inl hdq.2.2)
  · rw [hd.of_ne_none (h.saved o ho hex).1]
    exact h.saved o ho hex
  · rw [hsame q fun hp => Site.not_private_of_backupRoot hp hq]
    exact h.quiet q hq

theorem gaveUp (R : Ready site staging operations s)
    (h : Installing site staging operations s moved put c) (hop : op ∈ operations)
    (hex : op.existed = true)
    (hsame : ∀ o ∈ moved, o.path = op.path → o.installRequested = false)
    (hr : c.rename (site.target op.path) (site.backup op.path) = .ok d) :
    Installing site staging operations s (moved ++ [op]) put d := by
  have P := R.planned
  have L := P.layout
  have ha := P.admitted op hop
  have hnode := (P.existed op hop).mp hex
  have hu : ¬ Under put op.path := fun ⟨o, ho, hn⟩ =>
    R.existed_not_under hop hex h.mem ⟨o, (h.put_mem o ho).1, hn⟩
  have hlink := h.noLinkAbove R hop hu
  have hwayup : NoLinkAbove c (site.backup op.path) := OpenWay.noLinkAbove (h.openWay R hop hex)
  obtain ⟨hsrc, hcases⟩ := c.rename_cases (Site.clean_target ha.safe) (Site.clean_backup ha.safe)
    hlink hwayup hr
  obtain ⟨htype, hmoved⟩ := hcases.resolve_left fun hc => (Site.backup_ne_target ha ha) hc.1.symm
  -- no earlier operation was on this path: its backup would be replaced by a directory
  have hnew : ∀ o ∈ moved, o.path ≠ op.path := by
    intro o ho hpath
    have hexo : o.existed = true := (P.existed o (h.mem o ho)).mpr (by rwa [hpath])
    have hsaved := h.saved o ho hexo
    have hgone := h.gone o ho (fun hp => by
      have := (h.put_mem o hp).2
      rw [hsame o ho hpath] at this
      cases this) (by rwa [hpath])
    rw [hpath] at hsaved hgone
    cases hgone with
    | inl hg => exact hsrc hg
    | inr hg => exact hsaved.2 ((htype hsaved.1).mpr hg)
  have hlive : c.node (site.target op.path) = s.node (site.target op.path) :=
    (h.untouched R hop hu hnew).resolve_right fun hn => hnode hn.1
  have hnd : c.node (site.target op.path) ≠ some .dir := by
    rw [hlive]
    exact P.replaceable op hop
  have hbd : c.node (site.backup op.path) ≠ some .dir := fun hb =>
    hnd ((htype (by simp [hb])).mp hb)
  have hq : ∀ q, d.node q = if q = site.backup op.path then c.node (site.target op.path)
      else if q = site.target op.path then none else c.node q := fun q => by
    rw [hmoved, c.moved_of_ne_dir hnd q hbd]
  have hne : site.backup op.path ≠ site.target op.path := Site.backup_ne_target ha ha
  have hbr : site.backupRoot <+: site.backup op.path := Site.backupRoot_prefix_backup ha.safe
  have hkeep : ∀ q, ¬ site.backupRoot <+: q → q ≠ site.target op.path → d.node q = c.node q := by
    intro q h1 h2
    rw [hq, if_neg (by rintro rfl; exact h1 hbr), if_neg h2]
  have hstaging : ∀ q, staging <+: q → d.node q = c.node q := fun q h1 =>
    hkeep q (R.not_backups_of_staging h1)
      fun he => (R.outside hop (he ▸ List.prefix_rfl)).1 h1
  have hliveKeep : ∀ o ∈ operations, o.path ≠ op.path →
      d.node (site.target o.path) = c.node (site.target o.path) := fun o ho hp =>
    hkeep _ (R.outside ho List.prefix_rfl).2
      fun he => hp (Site.target_inj (P.admitted o ho).safe ha.safe he)
  have hput : ∀ o ∈ put, o.path ≠ op.path := fun o ho => hnew o (h.put_mem o ho).1
  refine ⟨?_, ?_, ?_, ?_, ?_, h.top, ?_, ?_, ?_, ?_, ?_, ?_, ?_⟩
  · intro o ho
    cases List.mem_append.mp ho with
    | inl ho => exact h.mem o ho
    | inr ho => exact List.mem_singleton.mp ho ▸ hop
  · exact fun o ho => ⟨List.mem_append_left _ (h.put_mem o ho).1, (h.put_mem o ho).2⟩
  · intro q h1 h2 h3 h4
    rw [hkeep q h2 (h4 op (by simp)).symm]
    exact h.frame q h1 h2 h3 fun o ho => h4 o (by simp [ho])
  · intro o ho
    rw [hliveKeep o (h.put_operations o ho) (hput o ho)]
    exact h.here o ho
  · intro o ho hop' hu'
    by_cases hp : o.path = op.path
    · rw [hp, hq, if_neg hne.symm, if_pos rfl]
      exact Or.inl rfl
    · have hom : o ∈ moved := by
        cases List.mem_append.mp ho with
        | inl ho => exact ho
        | inr ho => exact absurd (by rw [List.mem_singleton.mp ho]) hp
      rw [hliveKeep o (h.mem o hom) hp]
      exact h.gone o hom hop' hu'
  · exact h.taken_of_fewer R (fun q hq => Or.inr (hstaging q hq))
      ((hstaging _ List.prefix_rfl).trans h.dir)
  · exact (hstaging _ List.prefix_rfl).trans h.dir
  · intro q h1
    rw [hstaging q h1]
    exact h.fewer q h1
  · rw [hq, if_neg, if_neg]
    · exact h.backupRoot
    · intro he
      exact (R.outside hop (he ▸ List.prefix_rfl)).2 List.prefix_rfl
    · intro he
      have hlen := congrArg List.length he
      simp [Site.backup_eq ha.safe, Site.backupFiles] at hlen
  · intro q h1
    rw [hq]
    split_ifs with hb ht
    · exact Or.inr (Or.inr ⟨op, by simp, hex, hb⟩)
    · exact Or.inl rfl
    · rcases h.backups q h1 with hn | hd | ⟨o, ho, hexo, he⟩
      · exact Or.inl hn
      · exact Or.inr (Or.inl hd)
      · exact Or.inr (Or.inr ⟨o, by simp [ho], hexo, he⟩)
  · intro o ho hexo
    by_cases hp : o.path = op.path
    · rw [hp, hq, if_pos rfl, hlive]
      exact ⟨hnode, P.replaceable op hop⟩
    · have hom : o ∈ moved := by
        cases List.mem_append.mp ho with
        | inl ho => exact ho
        | inr ho => exact absurd (by rw [List.mem_singleton.mp ho]) hp
      have hao := P.admitted o (h.mem o hom)
      rw [hq, if_neg fun he => hp (Site.backup_inj hao.safe ha.safe he),
        if_neg (Site.backup_ne_target hao ha)]
      exact h.saved o hom hexo
  · intro q hp
    rw [hq, if_neg, if_neg]
    · exact h.quiet q hp
    · rintro rfl
      exact Site.not_target_prefix_private ha hp List.prefix_rfl
    · rintro rfl
      exact backup_not_private ha hp

theorem skipped (R : Ready site staging operations s)
    (h : Installing site staging operations s moved put c) (hop : op ∈ operations)
    (hex : op.existed = false)
    (hsame : ∀ o ∈ moved, o.path = op.path → o.installRequested = false) :
    Installing site staging operations s (moved ++ [op]) put c := by
  have hnode : s.node (site.target op.path) = none := by
    by_contra hn
    rw [(R.planned.existed op hop).mpr hn] at hex
    cases hex
  refine ⟨?_, ?_, fun q h1 h2 h3 h4 => h.frame q h1 h2 h3 fun o ho => h4 o (by simp [ho]), h.here,
    ?_, h.top, h.taken, h.dir, h.fewer, h.backupRoot, ?_, ?_, h.quiet⟩
  · intro o ho
    cases List.mem_append.mp ho with
    | inl ho => exact h.mem o ho
    | inr ho => exact List.mem_singleton.mp ho ▸ hop
  · exact fun o ho => ⟨List.mem_append_left _ (h.put_mem o ho).1, (h.put_mem o ho).2⟩
  · intro o ho hput hu
    cases List.mem_append.mp ho with
    | inl ho => exact h.gone o ho hput hu
    | inr ho =>
      obtain rfl := List.mem_singleton.mp ho
      by_cases hm : ∃ o' ∈ moved, o'.path = o.path
      · obtain ⟨o', ho', hp⟩ := hm
        rw [← hp]
        refine h.gone o' ho' (fun hp' => ?_) (by rwa [hp])
        have := (h.put_mem o' hp').2
        rw [hsame o' ho' hp] at this
        cases this
      · refine (h.untouched R hop hu fun o' ho' hp => hm ⟨o', ho', hp⟩).imp (fun he => ?_) (·.2)
        rw [he, hnode]
  · intro q hq
    rcases h.backups q hq with hn | hd | ⟨o, ho, hexo, he⟩
    · exact Or.inl hn
    · exact Or.inr (Or.inl hd)
    · exact Or.inr (Or.inr ⟨o, by simp [ho], hexo, he⟩)
  · intro o ho hexo
    cases List.mem_append.mp ho with
    | inl ho => exact h.saved o ho hexo
    | inr ho =>
      rw [List.mem_singleton.mp ho, hex] at hexo
      cases hexo

/-! ### Taking the new one -/

theorem wp_install_under (R : Ready env staging operations s)
    (h : Installing env staging operations s moved put c) (hop : op ∈ operations)
    (hu : Under put op.path) :
    wp (do
        os (mkdirParents (env.target op.path).dropLast)
        os (Prog.step (·.rename (joinPath staging op.path) (env.target op.path))))
      (fun _ _ => False) (fun _ _ => True) (fun _ => True) c := by
  obtain ⟨o, ho, hn⟩ := hu
  have ha := R.planned.admitted op hop
  have hoo := h.put_operations o ho
  have hao := R.planned.admitted o hoo
  obtain ⟨more, hmore⟩ := hn.1
  have hne : more ≠ [] := by
    rintro rfl
    exact hn.2 (by simpa using hmore)
  have htarget : (env.target op.path).dropLast = env.target o.path ++ more.dropLast := by
    rw [Site.target_eq ha.safe, Site.target_eq hao.safe, ← hmore, ← List.append_assoc,
      List.dropLast_append_of_ne_nil hne]
  have hstaged : joinPath staging op.path = staging ++ (components o.path ++ more) := by
    rw [joinPath_relative ha.safe.relative, hmore]
  have hclean : Clean (staging ++ (components o.path ++ more)) := by
    rw [hmore]
    exact R.clean_staged hop
  have hexist := c.mkdir_exists (@Site.clean_target env.toSite _ hao.safe) (h.here o ho).1
  rw [wp_bind, os, wp_mapError, htarget]
  refine wp_mono (wp_mkdirParents_grown hexist) ?_ (fun _ _ _ => trivial) (fun _ _ => trivial)
  intro _ d hd
  rw [os, wp_mapError, hstaged]
  refine wp_step (fun e he => ⟨trivial, ?_⟩) fun _ _ => trivial
  obtain ⟨q, hq, hnode⟩ := FileSystem.Tree.rename_source he
  have hfound := FileSystem.Tree.lstat_of_grown hd (h.linksStay R) h.dir hclean (by simp) hne hq hnode
  have htaken := h.taken o ho
  rw [joinPath_relative hao.safe.relative] at htaken
  exact hfound htaken

theorem installed (R : Ready site staging operations s)
    (h : Installing site staging operations s moved put c) (hop : op ∈ moved)
    (hinstall : op.installRequested = true) (hput : op ∉ put) (hu : ¬ Under put op.path)
    (hunique : ∀ o ∈ moved, o.path = op.path → o = op)
    (hordered : ∀ o ∈ moved, ¬ Nested op.path o.path)
    (hmade : MadeDirs (site.target op.path).dropLast c d)
    (hr : d.rename (joinPath staging op.path) (site.target op.path) = .ok e) :
    Installing site staging operations s moved (put ++ [op]) e := by
  have P := R.planned
  have hoo := h.mem op hop
  have ha := P.admitted op hoo
  have hpre : (site.target op.path).dropLast <+: site.target op.path := List.dropLast_prefix _
  -- the directories made are on the way to the live path only
  have hd : ∀ q, ¬ q <+: site.target op.path → d.node q = c.node q := fun q hq =>
    hmade.of_not_ancestor fun hp => hq (hp.trans hpre)
  have hdstaging : ∀ q, staging <+: q → d.node q = c.node q := fun q hq =>
    hd q fun hp => (R.outside hoo hp).1 hq
  have hlink : NoLinkAbove d (site.target op.path) := by
    intro q hq hne target hl
    cases hmade q with
    | inl hdq => exact h.noLinkAbove R hoo hu q hq hne target (hdq ▸ hl)
    | inr hdq => rw [hdq.2.2] at hl; cases hl
  rw [joinPath_relative ha.safe.relative] at hr
  obtain ⟨src, hsrc, hex, hcases⟩ :=
    FileSystem.Tree.rename_moved (Site.clean_target ha.safe) hlink hr
  have hclean := R.clean_staged hoo
  have hddir : d.node staging = some .dir := (hdstaging _ List.prefix_rfl).trans h.dir
  have hdfewer : Fewer staging c d := fun q hq => Or.inr (hdstaging q hq)
  obtain ⟨hcsrc, hcnode⟩ :=
    FileSystem.Tree.resolve_of_fewer hdfewer (h.linksStay R) h.dir hddir hclean hsrc hex
  have hcex : c.node src ≠ none := by rwa [hcnode]
  obtain ⟨hssrc, hsnode⟩ :=
    FileSystem.Tree.resolve_of_fewer h.fewer R.stay R.dir h.dir hclean hcsrc hcex
  have hstrict : staging <+: src.dropLast ∧ src ≠ [] := by
    have hres := hcsrc
    rw [c.resolve_below false (hclean.of_ancestor (List.prefix_append _ _)) h.dir] at hres
    exact FileSystem.Tree.resolveFrom_strict (h.linksStay R) List.prefix_rfl ha.safe.clean ha.ne_nil hres
  have hsrcIn : staging <+: src := hstrict.1.trans (List.dropLast_prefix _)
  have hnotlive : ∀ q, q <+: site.target op.path → ¬ src <+: q := fun q hq hp =>
    (R.outside hoo hq).1 (hsrcIn.trans hp)
  have hmoved := hcases.resolve_left fun he => hnotlive _ List.prefix_rfl (he ▸ List.prefix_rfl)
  have hkeep : ∀ q, ¬ site.target op.path <+: q → ¬ src <+: q → e.node q = d.node q := by
    intro q h1 h2
    rw [hmoved, FileSystem.Tree.moved, if_neg h1, if_neg h2]
  have hown : ∀ q, site.Own q → ¬ site.target op.path <+: q := fun q hq hp =>
    Site.not_own_of_target ha hp List.prefix_rfl hq
  have hother : ∀ o ∈ moved, o ≠ op → ¬ Nested op.path o.path →
      e.node (site.target o.path) = d.node (site.target o.path) := by
    intro o ho hne hn
    have hso := P.admitted o (h.mem o ho)
    refine hkeep _ (fun hp => hn ((nested_iff ha.safe hso.safe).mpr ⟨hp, fun he => ?_⟩)) fun hp =>
      (R.outside (h.mem o ho) List.prefix_rfl).1 (hsrcIn.trans hp)
    exact hne (hunique o ho (Site.target_inj ha.safe hso.safe he).symm)
  have hestaging : ∀ q, staging <+: q → e.node q = none ∨ e.node q = c.node q := by
    intro q hq
    have hlive := hown q (R.own_of_staging hq)
    by_cases hs : src <+: q
    · left
      rw [hmoved, FileSystem.Tree.moved, if_neg hlive, if_pos hs]
    · right
      rw [hkeep q hlive hs, hdstaging q hq]
  have hedir : e.node staging = some .dir := by
    rw [hkeep _ (hown _ (R.own_of_staging List.prefix_rfl)), hddir]
    intro hp
    have hlen := (hp.trans hstrict.1).length_le
    have := List.length_pos_iff.mpr hstrict.2
    rw [List.length_dropLast] at hlen
    omega
  have hebackups : ∀ q, site.backupRoot <+: q → e.node q = c.node q := by
    intro q hq
    rw [hkeep q (hown q (Ready.own_of_backups hq)), hd q]
    · exact fun hp => (R.outside hoo hp).2 hq
    · intro hp
      exact R.not_backups_of_staging (hsrcIn.trans hp) hq
  have hesrc : e.node src = none := by
    rw [hmoved, FileSystem.Tree.moved, if_neg (hown _ (R.own_of_staging hsrcIn)),
      if_pos List.prefix_rfl]
  have hehere : e.node (site.target op.path) = c.node src := by
    rw [hmoved, FileSystem.Tree.moved, if_pos List.prefix_rfl, List.drop_length, List.append_nil,
      hcnode]
  have hne_op : ∀ o ∈ put, o ≠ op := fun o ho he => hput (he ▸ ho)
  have hnested : ∀ o ∈ moved, ¬ Under (put ++ [op]) o.path → ¬ Nested op.path o.path :=
    fun o _ hn hno => hn ⟨op, by simp, hno⟩
  refine ⟨h.mem, ?_, ?_, ?_, ?_, ?_, ?_, hedir, ?_, ?_, ?_, ?_, ?_⟩
  · intro o ho
    cases List.mem_append.mp ho with
    | inl ho => exact h.put_mem o ho
    | inr ho => exact List.mem_singleton.mp ho ▸ ⟨hop, hinstall⟩
  · intro q h1 h2 h3 h4
    have hlive := h3 op (by simp)
    have hframe := h.frame q h1 h2 (fun o ho => h3 o (by simp [ho])) h4
    rw [hkeep q hlive fun hp => h1 (hsrcIn.trans hp)]
    cases hmade q with
    | inl hdq =>
      rw [hdq]
      exact hframe.imp id fun hf => ⟨hf.1, hf.2.1, hf.2.2.imp fun o ho => ⟨by simp [ho.1], ho.2⟩⟩
    | inr hdq =>
      refine Or.inr ⟨?_, hdq.2.2, op, by simp, hdq.1.trans hpre⟩
      cases hframe with
      | inl hf => rw [← hf]; exact hdq.2.1
      | inr hf => exact hf.1
  · intro o ho
    cases List.mem_append.mp ho with
    | inl ho =>
      have hom := (h.put_mem o ho).1
      have hhere := h.here o ho
      rw [hother o hom (hne_op o ho) (hordered o hom), hmade.of_ne_none hhere.1]
      exact hhere
    | inr ho =>
      rw [List.mem_singleton.mp ho, hehere, joinPath_relative ha.safe.relative]
      refine ⟨hcex, ?_⟩
      rw [FileSystem.Tree.lstat, hssrc]
      exact hsnode.symm
  · intro o ho hno hun
    have hne : o ≠ op := fun he => hno (by simp [he])
    rw [hother o ho hne (hnested o ho hun)]
    have hgone := h.gone o ho (fun hp => hno (by simp [hp]))
      fun h => hun (h.imp fun a h => ⟨by simp [h.1], h.2⟩)
    cases hmade (site.target o.path) with
    | inl hdq => rw [hdq]; exact hgone
    | inr hdq => exact Or.inr hdq.2.2
  · rintro o ho ⟨a, ham, hn⟩
    have hno : ¬ Nested op.path o.path := by
      cases List.mem_append.mp ho with
      | inl ho => exact hordered o (h.put_mem o ho).1
      | inr ho =>
        rw [List.mem_singleton.mp ho]
        exact fun hn => hn.2 rfl
    cases List.mem_append.mp ham with
    | inl ham =>
      cases List.mem_append.mp ho with
      | inl ho => exact h.top o ho ⟨a, ham, hn⟩
      | inr ho => exact hu ⟨a, ham, List.mem_singleton.mp ho ▸ hn⟩
    | inr ham => exact hno (List.mem_singleton.mp ham ▸ hn)
  · intro o ho
    cases List.mem_append.mp ho with
    | inl ho => exact h.taken_of_fewer R hestaging hedir o ho
    | inr ho =>
      rw [List.mem_singleton.mp ho, joinPath_relative ha.safe.relative, FileSystem.Tree.lstat]
      cases hres : e.resolve false (staging ++ components op.path) with
      | error err => rfl
      | ok q =>
        dsimp only
        by_contra hq
        obtain ⟨hfound, -⟩ :=
          FileSystem.Tree.resolve_of_fewer hestaging (h.linksStay R) h.dir hedir hclean hres hq
        rw [hcsrc] at hfound
        exact hq (Except.ok.inj hfound ▸ hesrc)
  · intro q hq
    cases hestaging q hq with
    | inl he => exact Or.inl he
    | inr he => rw [he]; exact h.fewer q hq
  · rw [hebackups _ List.prefix_rfl]
    exact h.backupRoot
  · intro q hq
    rw [hebackups q hq]
    exact h.backups q hq
  · intro o ho hex
    rw [hebackups _ (Site.backupRoot_prefix_backup (P.admitted o (h.mem o ho)).safe)]
    exact h.saved o ho hex
  · intro q hq
    rw [hkeep q (Site.not_target_prefix_private ha hq) fun hp =>
      R.not_private_of_staging (hsrcIn.trans hp) hq]
    cases hmade q with
    | inl hdq => rw [hdq]; exact h.quiet q hq
    | inr hdq =>
      have hroot : c.node site.root = some .dir := by
        have hp : site.root <+: site.backupRoot := (List.prefix_append _ _).trans (List.prefix_append _ _)
        have hne : site.root ≠ site.backupRoot := by simp [Site.backupRoot, Site.backups]
        exact c.dir_of_ancestor hp hne (by simp [h.backupRoot])
      have hqr := hq.root_of_target ha (hdq.1.trans hpre)
      have hway := OpenWay.of_dir hroot q hqr
      by_cases he : q = site.root
      · rw [he, hroot] at hdq
        cases hdq.2.1
      · rw [c.dir_of_ancestor hqr he (by simp [hroot])] at hdq
        cases hdq.2.1

theorem wp_install (R : Ready env staging operations s)
    (h : Installing env staging operations s moved put c) (hop : op ∈ moved)
    (hinstall : op.installRequested = true) (hput : op ∉ put)
    (hunique : ∀ o ∈ moved, o.path = op.path → o = op)
    (hordered : ∀ o ∈ moved, ¬ Nested op.path o.path) :
    wp (do
        os (mkdirParents (env.target op.path).dropLast)
        os (Prog.step (·.rename (joinPath staging op.path) (env.target op.path))))
      (fun _ e => Installing env staging operations s moved (put ++ [op]) e) (fun _ _ => True)
      (fun _ => True) c := by
  have hoo := h.mem op hop
  have ha := R.planned.admitted op hoo
  by_cases hu : Under put op.path
  · exact wp_mono (h.wp_install_under R hoo hu) (fun _ _ h => h.elim) (fun _ _ h => h) (fun _ h => h)
  · have hpre : (env.target op.path).dropLast <+: env.target op.path := List.dropLast_prefix _
    have hct : Clean (env.target op.path) := Site.clean_target ha.safe
    have hlink := h.noLinkAbove R hoo hu
    rw [wp_bind, os, wp_mapError]
    refine wp_mono (wp_mkdirParents_cases (hct.of_ancestor hpre) (hlink.of_ancestor hpre)
      (hlink _ hpre (dropLast_ne (Site.target_ne_nil ha)))) ?_ (fun _ _ _ => trivial) (fun _ _ => trivial)
    rintro - d ⟨-, hd⟩
    rw [os, wp_mapError]
    exact wp_step (fun e he => ⟨trivial, h.installed R hop hinstall hput hu hunique hordered hd he⟩)
      fun _ _ => trivial

end Installing

/-- The operations among these that install something. -/
def installs (done : List Operation) : List Operation := done.filter (·.installRequested)

theorem wp_applyOperation_installing {done rest : List Operation}
    (R : Ready env staging operations s) (hops : operations = done ++ op :: rest)
    (h : Installing env staging operations s done (installs done) c) :
    wp (applyOperation env staging op)
      (fun _ d => Installing env staging operations s (done ++ [op]) (installs (done ++ [op])) d)
      (fun _ _ => True) (fun _ => True) c := by
  have hop : op ∈ operations := by simp [hops]
  have ha := R.planned.admitted op hop
  have hdistinct := R.distinct
  have hordered := R.ordered
  rw [hops] at hdistinct hordered
  have hsame : ∀ o ∈ done, o.path = op.path → o.installRequested = false ∧ op.installRequested = false :=
    fun o ho => (List.pairwise_append.mp hdistinct).2.2 o ho op (by simp)
  have hafter : ∀ o ∈ done, ¬ Nested op.path o.path := fun o ho =>
    (List.pairwise_append.mp hordered).2.2 o ho op (by simp)
  -- with the old node given up, the second half
  have hsecond : ∀ d, Installing env staging operations s (done ++ [op]) (installs done) d →
      wp (if op.installRequested then do
            os (mkdirParents (env.target op.path).dropLast)
            os (Prog.step (·.rename (joinPath staging op.path) (env.target op.path)))
          else pure ())
        (fun _ d => Installing env staging operations s (done ++ [op]) (installs (done ++ [op])) d)
        (fun _ _ => True) (fun _ => True) d := by
    intro d hd
    split_ifs with hi
    · have hinstalls : installs (done ++ [op]) = installs done ++ [op] := by simp [installs, hi]
      rw [hinstalls]
      have hnew : ∀ o ∈ done, o.path ≠ op.path := by
        intro o ho he
        have := (hsame o ho he).2
        rw [hi] at this
        cases this
      refine hd.wp_install R (by simp) hi (fun hm => ?_) ?_ ?_
      · exact hnew op (List.mem_filter.mp hm).1 rfl
      · intro o ho he
        cases List.mem_append.mp ho with
        | inl ho => exact absurd he (hnew o ho)
        | inr ho => exact List.mem_singleton.mp ho
      · intro o ho hn
        cases List.mem_append.mp ho with
        | inl ho => exact hafter o ho hn
        | inr ho => exact hn.2 (by rw [List.mem_singleton.mp ho])
    · have hinstalls : installs (done ++ [op]) = installs done := by simp [installs, hi]
      rw [hinstalls]
      exact (wp_pure _).mpr hd
  unfold applyOperation
  dsimp only
  by_cases hex : op.existed = true
  · rw [if_pos hex, wp_bind, os, wp_mapError]
    refine wp_mono (wp_mkdirParents ((Site.clean_backup ha.safe).of_ancestor (List.dropLast_prefix _))
      (h.openWay R hop hex)) ?_ (fun _ _ h => h.elim) (fun _ _ => trivial)
    rintro - d ⟨-, hd⟩
    rw [wp_bind, os, wp_mapError]
    refine wp_step (fun e he => ⟨trivial, ?_⟩) fun _ _ => trivial
    exact hsecond e ((h.madeBackupDirs R hop hd).gaveUp R hop hex (fun o ho hp => (hsame o ho hp).1) he)
  · rw [if_neg hex]
    exact hsecond c (h.skipped R hop (Bool.eq_false_of_not_eq_true hex) fun o ho hp => (hsame o ho hp).1)

theorem wp_applyLoop_installing (R : Ready env staging operations s) :
    wp (Prog.forEach (applyOperation env staging) operations)
      (fun _ c => Installing env staging operations s operations (installs operations) c)
      (fun _ _ => True) (fun _ => True) s := by
  refine wp_forEach (fun rest c => ∃ done, operations = done ++ rest ∧
    Installing env staging operations s done (installs done) c) ?_ ?_ _ ⟨[], rfl, R.start⟩
  · rintro op rest c ⟨done, hops, h⟩
    exact wp_mono (wp_applyOperation_installing R hops h)
      (fun _ d hd => ⟨done ++ [op], by simp [hops], hd⟩) (fun _ _ h => h) (fun _ h => h)
  · rintro c ⟨done, hops, h⟩
    rw [List.append_nil] at hops
    exact hops ▸ h

end Installation

end PlumosBubble.Update
