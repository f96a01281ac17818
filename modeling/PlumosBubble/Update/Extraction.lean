import PlumosBubble.Update.Staging

/-! What `extract_payload` leaves in the staging directory. Where no declared path lies
below another one, every entry is staged at its own place with the type and the hash that
the manifest gives, and entries staged later leave it alone. -/

namespace PlumosBubble.Update

open Crash FileSystem

/-- No declared path lies below another one. -/
def Flat (files : List FileEntry) : Prop :=
  ∀ entry ∈ files, ∀ other ∈ files, ¬ Nested other.path entry.path

/-- The node has the type, the size or target and the hash that the manifest gives. -/
def Declared (env : Env) (entry : FileEntry) : Node Content → Prop
  | .symlink linkname => entry.type = .symlink ∧ entry.target = some linkname ∧
      entry.sha256 = some (env.sha256 linkname)
  | .file content _ => entry.type ≠ .symlink ∧
      entry.size = some (byteSize (env.contentText content) : ℤ) ∧
      entry.sha256 = some (env.sha256 (env.contentText content))
  | .dir => False

/-- The entries `done` are staged; no other link is below the staging directory. -/
structure Unpacked (env : Env) (dest : Path) (done : List FileEntry) (c : UpdateTree) : Prop where
  links : ∀ q target, dest <+: q → c.node q = some (.symlink target) →
    ∃ entry ∈ done, q = dest ++ components entry.path
  staged : ∀ entry ∈ done, ∃ v, c.node (dest ++ components entry.path) = some v ∧
    Declared env entry v

section Extraction

variable {env : Env} {t c d : UpdateTree} {dest : Path} {done : List FileEntry} {entry : FileEntry}
  {archive : Archive} {archiveNames : List Text}

theorem Unpacked.set (h : Unpacked env dest done c) {v : Node Content}
    (hnew : ∀ e ∈ done, components e.path ≠ components entry.path) (hv : Declared env entry v)
    (hd : ∀ q, d.node q = if q = dest ++ components entry.path then some v else c.node q) :
    Unpacked env dest (done ++ [entry]) d := by
  refine ⟨fun q target hq hl => ?_, fun e he => ?_⟩
  · by_cases hqe : q = dest ++ components entry.path
    · exact ⟨entry, by simp, hqe⟩
    · rw [hd, if_neg hqe] at hl
      obtain ⟨e, he, heq⟩ := h.links q target hq hl
      exact ⟨e, by simp [he], heq⟩
  · cases List.mem_append.mp he with
    | inl he =>
      obtain ⟨w, hw, hdw⟩ := h.staged e he
      refine ⟨w, ?_, hdw⟩
      rw [hd, if_neg, hw]
      exact fun heq => hnew e he (List.append_cancel_left heq)
    | inr he =>
      obtain rfl := List.mem_singleton.mp he
      exact ⟨v, by rw [hd, if_pos rfl], hv⟩

theorem Unpacked.madeDirs (h : Unpacked env dest done c) {p : Path} (hd : MadeDirs p c d) :
    Unpacked env dest done d := by
  refine ⟨fun q target hq hl => ?_, fun e he => ?_⟩
  · cases hd q with
    | inl hdq => exact h.links q target hq (hdq ▸ hl)
    | inr hdq => simp [hdq.2.2] at hl
  · obtain ⟨v, hv, hdv⟩ := h.staged e he
    exact ⟨v, by rw [hd.of_ne_none (by simp [hv]), hv], hdv⟩

/-- No link stands above the place of an entry that lies below none of `done`. -/
theorem Unpacked.noLinkAbove (h : Unpacked env dest done c) (hdir : c.node dest = some .dir)
    (hflat : ∀ e ∈ done, ¬ Nested e.path entry.path) :
    NoLinkAbove c (dest ++ components entry.path) := by
  intro q hq hne target hl
  cases List.prefix_or_prefix_of_prefix hq (List.prefix_append dest _) with
  | inl hqd =>
    by_cases he : q = dest
    · rw [he, hdir] at hl
      cases hl
    · rw [c.dir_of_ancestor hqd he (by simp [hdir])] at hl
      cases hl
  | inr hqd =>
    obtain ⟨e, he, rfl⟩ := h.links q target hqd hl
    exact hflat e he ⟨by rwa [List.prefix_append_right_inj] at hq, fun h => hne (by rw [h])⟩

theorem Unpacked.no_link (h : Unpacked env dest done c)
    (hnew : ∀ e ∈ done, components e.path ≠ components entry.path) (target : List Char) :
    c.node (dest ++ components entry.path) ≠ some (.symlink target) := by
  intro hl
  obtain ⟨e, he, heq⟩ := h.links _ target (List.prefix_append _ _) hl
  exact hnew e he (List.append_cancel_left heq).symm

theorem wp_extractSymlink_set {member : Member} (hclean : Clean (dest ++ components entry.path))
    (hlink : NoLinkAbove c (dest ++ components entry.path)) :
    wp (extractSymlink env member entry (dest ++ components entry.path))
      (fun actual d => ∃ linkname, entry.target = some linkname ∧ actual = env.sha256 linkname ∧
        ∀ q, d.node q = if q = dest ++ components entry.path then some (.symlink linkname)
          else c.node q)
      (fun _ _ => True) (fun _ => True) c := by
  unfold extractSymlink
  split
  · rename_i linkname _
    split_ifs with htarget
    · rw [wp_bind, os, wp_mapError]
      refine wp_step (fun d hd => ⟨trivial, ?_⟩) fun _ _ => trivial
      rw [wp_pure]
      refine ⟨linkname, htarget.symm, rfl, ?_⟩
      unfold FileSystem.Tree.symlinkTo at hd
      split_ifs at hd
      split at hd
      · rename_i p hp
        rw [c.eq_of_resolve hclean hlink hp] at hd
        exact (FileSystem.Tree.create_cases hd).2.2.2
      · cases hd
    · exact (wp_raise _).mpr trivial
  · exact (wp_raise _).mpr trivial

theorem wp_extractFile_set {member : Member} (hclean : Clean (dest ++ components entry.path))
    (hparent : c.node (dest ++ components entry.path).dropLast = some .dir)
    (hfile : ∀ target, c.node (dest ++ components entry.path) ≠ some (.symlink target)) :
    wp (extractFile env member entry (dest ++ components entry.path))
      (fun actual d => ∃ content mode, entry.size = some (byteSize content : ℤ) ∧
        actual = env.sha256 content ∧
        ∀ q, d.node q = if q = dest ++ components entry.path then some (.file (.text content) mode)
          else c.node q)
      (fun _ _ => True) (fun _ => True) c := by
  unfold extractFile
  split
  · rename_i content _
    rw [wp_bind]
    cases hsize : entry.size with
    | none => exact (wp_lift_error _).mpr trivial
    | some size =>
      rw [item, wp_lift_ok]
      split_ifs with hbytes
      · rw [wp_bind, os, wp_mapError]
        refine wp_step (fun d hd => ⟨trivial, ?_⟩) fun _ _ => trivial
        obtain ⟨m, hset⟩ : ∃ m, ∀ q, d.node q =
            if q = dest ++ components entry.path then some (.file (.text content) m)
            else c.node q := by
          rcases hv : c.node (dest ++ components entry.path) with _ | ⟨old, m⟩ | target | _
          · obtain ⟨d', hd', hq⟩ := c.writeFile_new (.text content) 0o644 hclean hv hparent
            obtain rfl : d = d' := Except.ok.inj (hd.symm.trans hd')
            exact ⟨_, hq⟩
          · obtain ⟨d', hd', hq⟩ := c.writeFile_file (.text content) 0o644 hclean hv
            obtain rfl : d = d' := Except.ok.inj (hd.symm.trans hd')
            exact ⟨_, hq⟩
          · exact absurd hv (hfile target)
          · rw [c.writeFile_dir _ _ hclean hv] at hd
            cases hd
        rw [wp_bind]
        refine wp_lift trivial fun mode => ?_
        rw [wp_bind, os, wp_mapError]
        obtain ⟨f, hf, hfq⟩ := d.chmod_file (mode % 0o10000) hclean (by rw [hset, if_pos rfl])
        rw [wp_step_ok hf]
        refine ⟨trivial, ?_⟩
        have hnode : f.node (dest ++ components entry.path) =
            some (.file (.text content) (mode % 0o10000)) := by rw [hfq, if_pos rfl]
        rw [sha256File, wp_bind, wp_read, f.stat_of_node hclean hnode (by simp)]
        rw [wp_lift_ok]
        refine ⟨content, mode % 0o10000, by rw [← hbytes], rfl, fun q => ?_⟩
        rw [hfq]
        split_ifs with hq
        · rfl
        · rw [hset, if_neg hq]
      · exact (wp_raise _).mpr trivial
  · exact (wp_raise _).mpr trivial

theorem wp_checkStaged (actual : Text) :
    wp (checkStaged entry actual) (fun _ d => d = c ∧ entry.sha256 = some actual) (fun _ _ => True)
      (fun _ => True) c := by
  rw [checkStaged, wp_bind]
  cases hsha : entry.sha256 with
  | none => exact (wp_lift_error _).mpr trivial
  | some expected =>
    rw [item, wp_lift_ok]
    split_ifs with heq
    · exact (wp_pure _).mpr ⟨rfl, by rw [heq]⟩
    · exact (wp_raise _).mpr trivial

theorem wp_extractEntry_unpacked (hdest : Clean dest) (hentry : ValidEntry archiveNames entry)
    (hmanaged : managedRuntimePath entry.path = true) (hdir : c.node dest = some .dir)
    (hflat : ∀ e ∈ done, ¬ Nested e.path entry.path)
    (hnew : ∀ e ∈ done, components e.path ≠ components entry.path)
    (h : Unpacked env dest done c) :
    wp (extractEntry env archive dest entry) (fun _ d => Unpacked env dest (done ++ [entry]) d)
      (fun _ _ => True) (fun _ => True) c := by
  have hclean : Clean (dest ++ components entry.path) := hdest.append hentry.safe.clean
  have hne : components entry.path ≠ [] := Admitted.ne_nil ⟨hentry.safe, hmanaged⟩
  have hpre : (dest ++ components entry.path).dropLast <+: dest ++ components entry.path :=
    List.dropLast_prefix _
  have hlink := h.noLinkAbove hdir hflat
  unfold extractEntry
  rw [wp_bind]
  refine wp_lift trivial fun member => ?_
  rw [joinPath_relative hentry.safe.relative, wp_bind, os, wp_mapError]
  refine wp_mono (wp_mkdirParents_cases (hclean.of_ancestor hpre) (hlink.of_ancestor hpre)
    (hlink _ hpre (dropLast_ne (by simp [hne])))) ?_ (fun _ _ _ => trivial) (fun _ _ => trivial)
  rintro - d ⟨hparent, hmade⟩
  have hd := h.madeDirs hmade
  have hlinkd := hd.noLinkAbove (hmade.dir hdir) hflat
  dsimp only
  split_ifs with htype
  · rw [wp_bind]
    refine wp_mono (wp_extractSymlink_set hclean hlinkd) ?_ (fun _ _ h => h) (fun _ h => h)
    rintro actual e ⟨linkname, htarget, rfl, hset⟩
    refine wp_mono (wp_checkStaged (c := e) _) ?_ (fun _ _ h => h) (fun _ h => h)
    rintro - _ ⟨rfl, hsha⟩
    exact hd.set (v := .symlink linkname) hnew ⟨htype, htarget, hsha⟩ hset
  · rw [wp_bind]
    refine wp_mono (wp_extractFile_set hclean hparent (hd.no_link hnew)) ?_ (fun _ _ h => h)
      (fun _ h => h)
    rintro actual e ⟨content, mode, hsize, rfl, hset⟩
    refine wp_mono (wp_checkStaged (c := e) _) ?_ (fun _ _ h => h) (fun _ h => h)
    rintro - _ ⟨rfl, hsha⟩
    exact hd.set (v := .file (.text content) mode) hnew ⟨htype, hsize, hsha⟩ hset

/-- At or below `update-state`, the staging directories or `backups`. -/
def Site.Excepted (site : Site) (q : Path) : Prop :=
  site.stateRoot <+: q ∨ site.stagingRoot <+: q ∨ site.backups <+: q

/-- What extraction leaves: links that stay in the staging directory and, where no declared
path lies below another, every entry at its place. Elsewhere only the way to the staging
directory is made. -/
structure Extracted (env : Env) (version : Text) (files : List FileEntry) (t c : UpdateTree) :
    Prop where
  dir : c.node (env.staging version) = some .dir
  stay : LinksStay (env.staging version) c
  declared : Flat files → ∀ entry ∈ files, ∃ v,
    c.node (env.staging version ++ components entry.path) = some v ∧ Declared env entry v
  other : ∀ q, ¬ env.Excepted q → c.node q = t.node q ∨
    t.node q = none ∧ c.node q = some .dir ∧ q <+: env.stagingRoot

theorem Extracted.congr {version : Text} {files : List FileEntry}
    (h : Extracted env version files t c)
    (hd : ∀ q, ¬ env.backups <+: q → d.node q = c.node q) (hv : Comparable version) :
    Extracted env version files t d := by
  have hstaging : ∀ q, env.staging version <+: q → d.node q = c.node q := by
    refine fun q hq => hd q fun hp => ?_
    rw [staging_eq hv] at hq
    cases List.prefix_or_prefix_of_prefix hp hq with
    | inl h => simp [Site.backups, Site.stagingRoot, Site.updates] at h
    | inr h => simp [Site.backups, Site.stagingRoot, Site.updates] at h
  refine ⟨(hstaging _ List.prefix_rfl).trans h.dir, fun q target hq hl => h.stay q target hq ?_, ?_,
    fun q hq => ?_⟩
  · rwa [hstaging q hq] at hl
  · intro hflat entry he
    obtain ⟨v, hv, hdv⟩ := h.declared hflat entry he
    exact ⟨v, (hstaging _ (List.prefix_append _ _)).trans hv, hdv⟩
  · rw [hd q fun hp => hq (Or.inr (Or.inr hp))]
    exact h.other q hq

theorem wp_extractPayload_extracted {version : Text} {manifest : Manifest} {files : List FileEntry}
    (hv : Comparable version) (hm : Validated manifest archiveNames files) (h : OwnDirs env t) :
    wp (extractPayload env archive files (env.staging version))
      (fun _ c => Extracted env version files t c) (fun _ _ => True) (fun _ => True) t := by
  have hdest := clean_staging env.toSite hv
  rw [extractPayload_eq, wp_bind]
  refine wp_mono (wp_emptyStaging hv h) ?_ (fun _ _ h => h.elim) (fun _ _ => trivial)
  rintro - d ⟨-, hdir, hempty, hother⟩
  have hstart : Unpacked env (env.staging version) [] d := by
    refine ⟨fun q target hq hl => ?_, by simp⟩
    by_cases he : q = env.staging version
    · rw [he, hdir] at hl
      cases hl
    · rw [hempty q hq he] at hl
      cases hl
  refine wp_mono (wp_forEach (fun rest e => Within (env.staging version) d e ∧
    ∃ done, files = done ++ rest ∧ (Flat files → Unpacked env (env.staging version) done e))
    (Q := fun _ e => Within (env.staging version) d e ∧
      (Flat files → Unpacked env (env.staging version) files e)) (E := fun _ _ => True)
    (C := fun _ => True) ?_ ?_ files ⟨within_of_empty hdir hempty, [], rfl, fun _ => hstart⟩)
    ?_ (fun _ _ h => h) (fun _ h => h)
  · rintro entry rest e ⟨hwithin, done, rfl, hdone⟩
    have hin : entry ∈ done ++ entry :: rest := by simp
    have hone : wp (extractEntry env archive (env.staging version) entry)
        (fun _ f => Within (env.staging version) d f) (fun _ f => Within (env.staging version) d f)
        (Within (env.staging version) d) e :=
      wp_extractEntry hdest (hm.entries entry hin) (hm.managed entry hin) hwithin
    by_cases hflat : Flat (done ++ entry :: rest)
    · have hnew : ∀ x ∈ done, components x.path ≠ components entry.path := by
        intro x hx he
        have hsafe := (hm.entries x (by simp [hx])).safe.ext (hm.entries entry hin).safe he
        have hdis := hm.distinct
        rw [List.map_append, List.map_cons] at hdis
        exact (List.nodup_append.mp hdis).2.2 _ (List.mem_map.mpr ⟨x, hx, rfl⟩) _
          (List.mem_cons_self) hsafe
      refine wp_mono (wp_and hone (wp_extractEntry_unpacked hdest (hm.entries entry hin)
        (hm.managed entry hin) hwithin.dir (fun x hx => hflat entry hin x (by simp [hx])) hnew
        (hdone hflat))) ?_ (fun _ _ _ => trivial) (fun _ _ => trivial)
      rintro - f ⟨hf, hunpacked⟩
      exact ⟨hf, done ++ [entry], by simp, fun _ => hunpacked⟩
    · exact wp_mono hone (fun _ f hf => ⟨hf, done ++ [entry], by simp, fun h => absurd h hflat⟩)
        (fun _ _ _ => trivial) (fun _ _ => trivial)
  · rintro e ⟨hwithin, done, hfiles, hdone⟩
    rw [List.append_nil] at hfiles
    exact ⟨hwithin, hfiles ▸ hdone⟩
  · rintro - e ⟨hwithin, hunpacked⟩
    refine ⟨hwithin.dir, hwithin.stay, fun hflat => (hunpacked hflat).staged, fun q hq => ?_⟩
    have hout : ¬ env.staging version <+: q := fun hp => hq (Or.inr (Or.inl
      ((by rw [staging_eq hv]; exact List.prefix_append _ _ : env.stagingRoot <+: _).trans hp)))
    rw [hwithin.other q hout]
    exact hother q hout

/-- What `plan_runtime` leaves staged when the plan is made. -/
theorem wp_planRuntime_extracted {packageSha256 : Text} {manifest : Manifest}
    {files : List FileEntry} (hm : Validated manifest archiveNames files)
    (hv : ∀ version, manifest.version = some version → Comparable version) (h : OwnDirs env t)
    (hpending : t.node env.runtimePending = none) :
    wp (planRuntime env packageSha256 archive manifest)
      (fun tx pre => Extracted env tx.version files t pre) (fun _ _ => True) (fun _ => True) t := by
  unfold planRuntime
  rw [wp_bind]
  cases hver : manifest.version with
  | none => exact absurd hver hm.version
  | some version =>
    have hcomp := hv version hver
    rw [item, wp_lift_ok, wp_bind, hm.files_eq, item, wp_lift_ok, wp_bind, wp_read, wp_bind, hm.bytes,
      item, wp_lift_ok]
    dsimp only
    split_ifs
    · exact (wp_raise _).mpr trivial
    · rw [wp_bind]
      refine wp_mono (wp_and (wp_extractPayload hcomp hm.entries hm.managed h)
        (wp_extractPayload_extracted hcomp hm h)) ?_ (fun _ _ _ => trivial) (fun _ _ => trivial)
      rintro - c ⟨hprep, hextracted⟩
      rw [wp_bind, wp_read, hprep.no_pending hpending, if_neg (by simp),
        ← Prog.bind_assoc, wp_bind]
      refine wp_mono (wp_emptyBackups hprep.dirs) ?_ (fun _ _ _ => trivial) (fun _ _ => trivial)
      rintro - pre ⟨-, -, -, hother⟩
      rw [wp_bind]
      refine wp_mono (wp_journalOperations (C := fun _ => True) _) ?_ (fun _ _ _ => trivial)
        (fun _ h => h)
      rintro operations _ ⟨rfl, -⟩
      rw [wp_pure]
      exact hextracted.congr hother hcomp

end Extraction

end PlumosBubble.Update
