import PlumosBubble.Update.Paths

/-! The updater's own directories and the files in `update-state`. A state file is
replaced in one rename; before it only the temporary file next to it changes. -/

namespace PlumosBubble.Update

open Crash FileSystem

/-- The root is a directory, the updater's directories are directories or missing, and
`update-state` holds plain files only. -/
structure OwnDirs (site : Site) (t : UpdateTree) : Prop where
  root : t.node site.root = some .dir
  state : OpenWay t site.stateRoot
  stateFile : ∀ n, t.node (site.stateRoot ++ [n]) = none ∨
    ∃ c m, t.node (site.stateRoot ++ [n]) = some (.file c m)
  staging : OpenWay t site.stagingRoot
  backups : OpenWay t site.backups

theorem OwnDirs.congr {site : Site} {t c : UpdateTree} (h : OwnDirs site t)
    (hc : ∀ q, site.Private q → c.node q = t.node q) : OwnDirs site c := by
  have hroot : ∀ q, q <+: site.root → site.Private q := fun q hq =>
    Or.inr (Or.inr (hq.trans (List.prefix_append _ _)))
  constructor
  · rw [hc _ (hroot _ List.prefix_rfl)]
    exact h.root
  · intro q hq
    have hp : site.Private q := by
      cases List.prefix_concat_iff.mp hq with
      | inl hq => exact Or.inl (by rw [hq]; exact List.prefix_rfl)
      | inr hq => exact hroot q hq
    rw [hc q hp]
    exact h.state q hq
  · intro n
    rw [hc _ (Or.inl (List.prefix_append _ _))]
    exact h.stateFile n
  · intro q hq
    rw [hc q (Or.inr (Or.inl hq))]
    exact h.staging q hq
  · intro q hq
    rw [hc q (Or.inr (Or.inr hq))]
    exact h.backups q hq

theorem OwnDirs.of_outside {site : Site} {t c : UpdateTree} (h : OwnDirs site t)
    (hout : ∀ q, ¬ site.stateRoot <+: q → c.node q = t.node q)
    (hstate : c.node site.stateRoot = t.node site.stateRoot ∨ c.node site.stateRoot = some .dir)
    (hfile : ∀ n, c.node (site.stateRoot ++ [n]) = none ∨
      ∃ d m, c.node (site.stateRoot ++ [n]) = some (.file d m)) : OwnDirs site c := by
  have hroot : ¬ site.stateRoot <+: site.root := not_prefix_child _ _
  have hstaging : ∀ q, q <+: site.stagingRoot → ¬ site.stateRoot <+: q := by
    intro q hq hs
    have := hs.trans hq
    simp [Site.stateRoot, Site.stagingRoot, Site.updates] at this
  have hbackups : ∀ q, q <+: site.backups → ¬ site.stateRoot <+: q := by
    intro q hq hs
    have := hs.trans hq
    simp [Site.stateRoot, Site.backups] at this
  refine ⟨by rw [hout _ hroot]; exact h.root, ?_, hfile, ?_, ?_⟩
  · intro q hq
    cases List.prefix_concat_iff.mp hq with
    | inl hqs =>
      cases hstate with
      | inl hs => exact hqs ▸ hs.symm ▸ h.state _ List.prefix_rfl
      | inr hs => exact Or.inl (hqs ▸ hs)
    | inr hqr =>
      rw [hout q fun hs => hroot (hs.trans hqr)]
      exact h.state q hq
  · intro q hq
    rw [hout q (hstaging q hq)]
    exact h.staging q hq
  · intro q hq
    rw [hout q (hbackups q hq)]
    exact h.backups q hq

theorem OwnDirs.fresh {site : Site} {t : UpdateTree} (hroot : t.node site.root = some .dir)
    (hstate : t.node site.stateRoot = none) (hupdates : t.node site.updates = none)
    (hbackups : t.node site.backups = none) : OwnDirs site t := by
  have hway : ∀ n rest, t.node (site.root ++ [n]) = none → OpenWay t (site.root ++ n :: rest) := by
    intro n rest hn q hq
    by_cases hlen : q.length ≤ site.root.length
    · have hqr := List.prefix_of_prefix_length_le hq (List.prefix_append _ _) hlen
      exact OpenWay.of_dir hroot q hqr
    · have hp : site.root ++ [n] <+: q :=
        List.prefix_of_prefix_length_le (by simp) hq (by simp; omega)
      by_cases he : site.root ++ [n] = q
      · exact Or.inr (he ▸ hn)
      · exact Or.inr (t.eq_none_of_ancestor hp he (by simp [hn]))
  refine ⟨hroot, hway _ [] hstate, fun n => Or.inl ?_, ?_, hway _ [] hbackups⟩
  · exact t.eq_none_of_ancestor (List.prefix_append _ _) (by simp) (by simp [hstate])
  · have := hway _ ["staging".toList] hupdates
    simpa [Site.stagingRoot, Site.updates] using this

theorem OwnDirs.isFile {site : Site} {t : UpdateTree} (h : OwnDirs site t) (n : Name)
    (hn : n ≠ ['.', '.']) :
    t.isFile (site.stateRoot ++ [n]) = (t.node (site.stateRoot ++ [n])).isSome := by
  have hc : Clean (site.stateRoot ++ [n]) := site.clean_stateRoot.append (by simpa [Clean] using hn)
  cases h.stateFile n with
  | inl hv =>
    rw [FileSystem.Tree.isFile, t.stat_of_none hc (OpenWay.noLinkAbove (by simpa using h.state)) hv, hv]
    rfl
  | inr hv =>
    obtain ⟨c, m, hv⟩ := hv
    rw [FileSystem.Tree.isFile, t.stat_of_node hc hv (by simp), hv]
    rfl

/-- The state directory itself and the temporary files in it. -/
def Site.Scratch (site : Site) (q : Path) : Prop :=
  q = site.stateRoot ∨ ∃ n, q = site.stateRoot ++ ['.' :: n]

theorem Site.Scratch.under {site : Site} {q : Path} (h : site.Scratch q) : site.stateRoot <+: q := by
  cases h with
  | inl h => rw [h]
  | inr h =>
    obtain ⟨n, rfl⟩ := h
    exact List.prefix_append _ _

/-- Only scratch files differ. -/
structure Unchanged (site : Site) (t c : UpdateTree) : Prop where
  dirs : OwnDirs site c
  other : ∀ q, ¬ site.Scratch q → c.node q = t.node q

/-- The state file `name` holds `r`; only scratch files differ otherwise. -/
structure Wrote (site : Site) (name : String) (r : Record) (t c : UpdateTree) : Prop where
  dirs : OwnDirs site c
  holds : c.node (site.stateRoot ++ [name.toList]) = some (.file (.record r) 0o644)
  other : ∀ q, q ≠ site.stateRoot ++ [name.toList] → ¬ site.Scratch q → c.node q = t.node q

/-- The state file `name` is gone; nothing else differs. -/
structure Erased (site : Site) (name : String) (t c : UpdateTree) : Prop where
  dirs : OwnDirs site c
  gone : c.node (site.stateRoot ++ [name.toList]) = none
  other : ∀ q, q ≠ site.stateRoot ++ [name.toList] → c.node q = t.node q

section StateFiles

variable {env : Env} {site : Site} {t c : UpdateTree} {name : String} {r : Record}

theorem Unchanged.outside (h : Unchanged site t c) {q : Path} (hq : ¬ site.stateRoot <+: q) :
    c.node q = t.node q :=
  h.other q fun hs => hq hs.under

theorem Wrote.outside (h : Wrote site name r t c) {q : Path} (hq : ¬ site.stateRoot <+: q) :
    c.node q = t.node q :=
  h.other q (by rintro rfl; exact hq (List.prefix_append _ _)) fun hs => hq hs.under

theorem Erased.outside (h : Erased site name t c) {q : Path} (hq : ¬ site.stateRoot <+: q) :
    c.node q = t.node q :=
  h.other q (by rintro rfl; exact hq (List.prefix_append _ _))

/-- State files have names that do not start with a dot. -/
def Visible (name : String) : Prop := name.toList.head? ≠ some '.'

instance (name : String) : Decidable (Visible name) := by unfold Visible; infer_instance

theorem Visible.not_scratch (h : Visible name) :
    ¬ site.Scratch (site.stateRoot ++ [name.toList]) := by
  intro hs
  cases hs with
  | inl hs => simp at hs
  | inr hs =>
    obtain ⟨n, hn⟩ := hs
    have : name.toList = '.' :: n := by simpa using hn
    exact h (by simp [this])

theorem Visible.clean (h : Visible name) : Clean (site.stateRoot ++ [name.toList]) := by
  refine site.clean_stateRoot.append ?_
  intro n hn he
  have : name.toList = ['.', '.'] := by rw [← List.mem_singleton.mp hn, he]
  exact h (by simp [this])

theorem wp_atomicJson (ht : OwnDirs env t) (hname : Visible name) (r : Record) :
    wp (atomicJson env name r) (fun _ c => Wrote env name r t c) (fun _ _ => False)
      (fun c => Unchanged env t c ∨ Wrote env name r t c ∧ Returns (atomicJson env name r) t () c)
      t := by
  let temp : Name := '.' :: name.toList ++ ".new-".toList ++ env.pid
  have htemp : env.Scratch (env.stateRoot ++ [temp]) := Or.inr ⟨_, rfl⟩
  have hne : temp ≠ name.toList := by
    intro h
    exact hname (by rw [← h]; rfl)
  have hclean : Clean (env.stateRoot ++ [temp]) := by
    refine env.clean_stateRoot.append ?_
    intro n hn he
    have hlen : temp = ['.', '.'] := by rw [← List.mem_singleton.mp hn, he]
    have := congrArg List.length hlen
    simp [temp] at this
    omega
  -- nothing on the way to the state directory but itself is missing
  have hway : ∀ q, q <+: env.stateRoot → t.node q = none → env.Scratch q := by
    intro q hq hn
    cases List.prefix_concat_iff.mp hq with
    | inl h => exact Or.inl h
    | inr h =>
      have : t.node q ≠ none := by
        by_cases hqr : q = env.root
        · simp [hqr, ht.root]
        · simp [t.dir_of_ancestor h hqr (by simp [ht.root])]
      exact absurd hn this
  have hfile : ∀ n, t.node (env.stateRoot ++ [n]) ≠ some .dir ∧
      ∀ target, t.node (env.stateRoot ++ [n]) ≠ some (.symlink target) := by
    intro n
    cases ht.stateFile n with
    | inl h => simp [h]
    | inr h => obtain ⟨c, m, h⟩ := h; simp [h]
  have hnp := not_prefix_child env.stateRoot
  have hwrote : ∀ c, Replaced env.stateRoot name.toList temp (.record r) 0o644 t c →
      Wrote env name r t c := by
    intro c hr
    have hother : ∀ q, q ≠ env.stateRoot ++ [name.toList] → ¬ env.Scratch q →
        c.node q = t.node q := by
      intro q hq hs
      cases hr.2.2.2 q hq (by rintro rfl; exact hs htemp) with
      | inl h => exact h
      | inr h => exact absurd (hway q h.1 h.2.1) hs
    refine ⟨ht.of_outside (fun q hq => hother q ?_ fun hs => hq hs.under) (Or.inr hr.1) ?_,
      hr.2.1, hother⟩
    · rintro rfl
      exact hq (List.prefix_append _ _)
    · intro n
      by_cases h1 : n = name.toList
      · exact Or.inr ⟨_, _, h1 ▸ hr.2.1⟩
      by_cases h2 : n = temp
      · exact Or.inl (h2 ▸ hr.2.2.1)
      · cases hr.2.2.2 (env.stateRoot ++ [n]) (by simpa using h1) (by simpa using h2) with
        | inl h => rw [h]; exact ht.stateFile n
        | inr h => exact absurd h.1 (hnp n)
  have hprep : ∀ c, Preparing env.stateRoot temp t c → Unchanged env t c := by
    intro c hp
    have hother : ∀ q, ¬ env.Scratch q → c.node q = t.node q := by
      intro q hs
      cases hp.1 q (by rintro rfl; exact hs htemp) with
      | inl h => exact h
      | inr h => exact absurd (hway q h.1 h.2.1) hs
    refine ⟨ht.of_outside (fun q hq => hother q fun hs => hq hs.under) ?_ ?_, hother⟩
    · cases hp.1 env.stateRoot (by simp) with
      | inl h => exact Or.inl h
      | inr h => exact Or.inr h.2.2
    · intro n
      by_cases h2 : n = temp
      · subst h2
        cases hv : c.node (env.stateRoot ++ [temp]) with
        | none => exact Or.inl rfl
        | some v =>
          cases v with
          | file d m => exact Or.inr ⟨d, m, rfl⟩
          | symlink target => exact absurd hv (hp.2.2 target)
          | dir => exact absurd hv hp.2.1
      · cases hp.1 (env.stateRoot ++ [n]) (by simpa using h2) with
        | inl h => rw [h]; exact ht.stateFile n
        | inr h => exact absurd h.1 (hnp n)
  rw [atomicJson, os, wp_mapError]
  exact wp_mono
    (wp_replaceFile hname.clean hclean hne ht.state (hfile _).1 (hfile _).1 (hfile _).2)
    (fun _ c h => hwrote c h) (fun _ _ h => h)
    (fun c h => h.imp (hprep c) fun h => ⟨hwrote c h.1, returns_mapError.mpr h.2⟩)

/-- `unlink(missing_ok=True)` of a state file. -/
theorem wp_unlinkState (ht : OwnDirs env t) (hname : Visible name) :
    wp (os (unlinkMissingOk (env.stateRoot ++ [name.toList]))) (fun _ c => Erased env name t c)
      (fun _ _ => False) (Erased env name t) t := by
  have hd : t.node (env.stateRoot ++ [name.toList]) ≠ some .dir := by
    cases ht.stateFile name.toList with
    | inl h => simp [h]
    | inr h => obtain ⟨c, m, h⟩ := h; simp [h]
  have key : ∀ c, Removed (env.stateRoot ++ [name.toList]) t c → Erased env name t c := by
    intro c hc
    have hother : ∀ q, q ≠ env.stateRoot ++ [name.toList] → c.node q = t.node q := by
      intro q hq
      rw [hc]
      split_ifs with hp
      · exact (t.eq_none_of_ancestor hp (Ne.symm hq) hd).symm
      · rfl
    have hgone : c.node (env.stateRoot ++ [name.toList]) = none := by
      rw [hc, if_pos List.prefix_rfl]
    refine ⟨ht.of_outside ?_ ?_ ?_, hgone, hother⟩
    · intro q hq
      exact hother q (by rintro rfl; exact hq (List.prefix_append _ _))
    · exact Or.inl (hother _ (by simp))
    · intro n
      by_cases hn : n = name.toList
      · exact Or.inl (hn ▸ hgone)
      · rw [hother _ (by simpa using hn)]
        exact ht.stateFile n
  rw [os, wp_mapError]
  exact wp_mono (wp_unlinkMissingOk hname.clean hd (by simpa using ht.state))
    (fun _ c h => key c h) (fun _ _ h => h) (fun c h => key c h)

theorem wp_loadJson {path : Path} {m : ℕ} {Q : Record → UpdateTree → Prop}
    {E : PyError → UpdateTree → Prop} {C : UpdateTree → Prop} (hc : Clean path)
    (h : t.node path = some (.file (.record r) m)) : wp (loadJson path) Q E C t ↔ Q r t := by
  rw [loadJson, wp_bind, wp_read, t.stat_of_node hc h (by simp)]
  simp

end StateFiles

end PlumosBubble.Update
