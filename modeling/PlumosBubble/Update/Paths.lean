import PlumosBubble.Update.Programs

/-! Where the updater's paths lie. A managed path starts with one of a fixed list of
names, so every live target is below the root and outside `update-state`, `updates` and
`backups`, where the updater keeps its own files. -/

namespace PlumosBubble.Update

open FileSystem

@[simp] theorem refuse_eq_ok {bad : Prop} [Decidable bad] {message : Text} {u : Unit} :
    refuse bad message = .ok u ↔ ¬ bad := by
  unfold refuse
  split <;> simp_all

theorem bind_eq_ok {α β : Type} {x : Except PyError α} {f : α → Except PyError β} {b : β} :
    (x >>= f) = .ok b ↔ ∃ a, x = .ok a ∧ f a = .ok b := by
  cases x <;> simp [bind, Except.bind]

theorem safeRelative_eq_ok {value r : Text} :
    safeRelative value = .ok r ↔
      r = value ∧ value ≠ [] ∧ isAbsolute value = false ∧ Clean (components value) ∧
        pureStr value = value := by
  have hclean : ['.', '.'] ∉ components value ↔ Clean (components value) :=
    ⟨fun h n hn he => h (he ▸ hn), fun h hm => h _ hm rfl⟩
  simp only [safeRelative, bind_eq_ok, refuse_eq_ok, not_or, ne_eq, not_not]
  constructor
  · intro ⟨_, ⟨h1, h2, h3, h4⟩, h5⟩
    cases h5
    exact ⟨rfl, h1, by simpa using h2, hclean.mp h3, h4⟩
  · intro ⟨h0, h1, h2, h3, h4⟩
    subst h0
    exact ⟨(), ⟨h1, by simp [h2], hclean.mpr h3, h4⟩, rfl⟩

/-- A safe path: `safe_relative` returns it. -/
def Safe (relative : Text) : Prop := safeRelative relative = .ok relative

theorem Safe.of_ok {value r : Text} (h : safeRelative value = .ok r) : r = value ∧ Safe value := by
  have h' := safeRelative_eq_ok.mp h
  exact ⟨h'.1, by rw [Safe, h, h'.1]⟩

theorem Safe.relative {r : Text} (h : Safe r) : isAbsolute r = false :=
  (safeRelative_eq_ok.mp h).2.2.1

theorem Safe.clean {r : Text} (h : Safe r) : Clean (components r) :=
  (safeRelative_eq_ok.mp h).2.2.2.1

theorem Safe.pureStr {r : Text} (h : Safe r) : pureStr r = r :=
  (safeRelative_eq_ok.mp h).2.2.2.2

theorem Safe.ext {r s : Text} (hr : Safe r) (hs : Safe s) (h : components r = components s) :
    r = s := by
  rw [← hr.pureStr, ← hs.pureStr, Update.pureStr, Update.pureStr, h]

/-- The first names of managed paths. -/
def managedHeads : List Text := managedRoots ++ managedRootFiles ++ ["config".toList]

/-- The names in the root that are the updater's own. -/
def ownNames : List Text := ["update-state", "updates", "backups"].map String.toList

theorem ownNames_not_managed : ∀ n ∈ ownNames, n ∉ managedHeads := by decide

theorem takeWhile_head_eq {p r : Text} (hp : '/' ∈ p) (h : p.isPrefixOf r) :
    r.takeWhile (· ≠ '/') = p.takeWhile (· ≠ '/') := by
  obtain ⟨s, rfl⟩ := List.isPrefixOf_iff_prefix.mp h
  rw [List.takeWhile_append, if_neg]
  intro hlen
  have hall := List.takeWhile_eq_self_iff.mp ((List.takeWhile_prefix _).eq_of_length hlen)
  simpa using hall '/' hp

theorem Safe.head {r : Text} (h : Safe r) (hdot : r ≠ ['.']) :
    ∃ rest, components r = r.takeWhile (· ≠ '/') :: rest := by
  have hr := h.pureStr
  unfold Update.pureStr at hr
  cases hc : components r with
  | nil => rw [if_pos hc] at hr; exact absurd hr.symm hdot
  | cons n rest =>
    rw [if_neg (by simp [hc]), hc] at hr
    have hn : ∀ c ∈ n, c ≠ '/' := by
      intro c hcn hcs
      have hmem : n ∈ components r := by simp [hc]
      exact slash_free_of_mem_components hmem (hcs ▸ hcn)
    refine ⟨rest, ?_⟩
    cases rest with
    | nil =>
      have hrn : n = r := by simpa [List.intercalate] using hr
      rw [← hrn, List.takeWhile_eq_self_iff.mpr (by simpa using hn)]
    | cons m ms =>
      have hrn : n ++ '/' :: (['/'].intercalate (m :: ms)) = r := by
        simpa [List.intercalate] using hr
      rw [← hrn, List.takeWhile_append_of_pos (by simpa using hn)]
      simp

theorem managed_head {r : Text} (h : managedRuntimePath r = true) :
    r.takeWhile (· ≠ '/') ∈ managedHeads := by
  unfold managedRuntimePath at h
  split at h
  · rename_i hr
    have : ∀ f ∈ managedRootFiles, f.takeWhile (· ≠ '/') ∈ managedHeads := by decide
    exact this r hr
  · split at h
    · exact absurd h (by simp)
    · split at h
      · rename_i hp
        obtain ⟨p, hp, hpr⟩ := List.any_eq_true.mp hp
        have hslash : ∀ q ∈ managedConfigPrefixes,
            '/' ∈ q ∧ q.takeWhile (· ≠ '/') ∈ managedHeads := by decide
        rw [takeWhile_head_eq (hslash p hp).1 hpr]
        exact (hslash p hp).2
      · simp only [decide_eq_true_eq] at h
        exact List.mem_append_left _ (List.mem_append_left _ h)

/-- A path that validation accepted. -/
structure Admitted (relative : Text) : Prop where
  safe : Safe relative
  managed : managedRuntimePath relative = true

theorem Admitted.components {r : Text} (h : Admitted r) :
    ∃ n rest, FileSystem.components r = n :: rest ∧ n ∈ managedHeads := by
  have hdot : r ≠ ['.'] := by
    intro hr
    have := h.managed
    rw [hr] at this
    exact absurd this (by decide)
  obtain ⟨rest, hrest⟩ := h.safe.head hdot
  exact ⟨_, rest, hrest, managed_head h.managed⟩

theorem Admitted.ne_nil {r : Text} (h : Admitted r) : FileSystem.components r ≠ [] := by
  obtain ⟨n, rest, hn, -⟩ := h.components
  simp [hn]

/-- A path that is a proper ancestor of another. -/
def Nested (r s : Text) : Prop := components r <+: components s ∧ components r ≠ components s

instance (r s : Text) : Decidable (Nested r s) := by unfold Nested; infer_instance

theorem intercalate_append {a b : Path} (ha : a ≠ []) (hb : b ≠ []) :
    ['/'].intercalate (a ++ b) = ['/'].intercalate a ++ '/' :: ['/'].intercalate b := by
  induction a with
  | nil => exact absurd rfl ha
  | cons n a ih =>
    cases a with
    | nil =>
      obtain ⟨m, b, rfl⟩ := List.exists_cons_of_ne_nil hb
      simp [List.intercalate]
    | cons m a =>
      have := ih (by simp)
      simp only [List.cons_append, List.intercalate, List.intersperse_cons_cons, List.flatten_cons] at this ⊢
      simp [this]

theorem Nested.text {r s : Text} (h : Nested r s) (hr : Admitted r) (hs : Safe s) :
    ∃ rest, s = r ++ '/' :: rest := by
  obtain ⟨more, hmore⟩ := h.1
  have hne : more ≠ [] := by
    rintro rfl
    exact h.2 (by simpa using hmore)
  have htr := hr.safe.pureStr
  have hts := hs.pureStr
  rw [pureStr, if_neg hr.ne_nil] at htr
  rw [pureStr, if_neg (by simp [← hmore, hne]), ← hmore, intercalate_append hr.ne_nil hne, htr] at hts
  exact ⟨_, hts.symm⟩

theorem managed_below {s : Text} (h : managedRuntimePath s = true) (hslash : '/' ∈ s) :
    s.takeWhile (· ≠ '/') ∈ managedRoots ++ ["config".toList] := by
  unfold managedRuntimePath at h
  split at h
  · rename_i hr
    have hno : ∀ f ∈ managedRootFiles, '/' ∉ f := by decide
    exact absurd hslash (hno s hr)
  · split at h
    · exact absurd h (by simp)
    · split at h
      · rename_i hp
        obtain ⟨p, hp, hpr⟩ := List.any_eq_true.mp hp
        have hconfig : ∀ q ∈ managedConfigPrefixes,
            '/' ∈ q ∧ q.takeWhile (· ≠ '/') ∈ managedRoots ++ ["config".toList] := by decide
        rw [takeWhile_head_eq (hconfig p hp).1 hpr]
        exact (hconfig p hp).2
      · simp only [decide_eq_true_eq] at h
        exact List.mem_append_left _ h

namespace Site

variable {env : Env} {site : Site} {r s : Text} {q : Path}

/-- At or below one of the updater's own directories. -/
def Own (site : Site) (q : Path) : Prop := ∃ n ∈ ownNames, site.root ++ [n] <+: q

/-- In the state directory, or on the way to the staging or the backup directory. -/
def Private (site : Site) (q : Path) : Prop :=
  site.stateRoot <+: q ∨ q <+: site.stagingRoot ∨ q <+: site.backups

theorem target_eq (h : Safe r) : site.target r = site.root ++ components r :=
  joinPath_relative h.relative

theorem backup_eq (h : Safe r) : site.backup r = site.backupFiles ++ components r :=
  joinPath_relative h.relative

theorem clean_own {n : Name} (h : n ∈ ownNames) : Clean (site.root ++ [n]) := by
  have hn : ∀ n ∈ ownNames, n ≠ ['.', '.'] := by decide
  exact site.root_clean.append (by simpa [Clean] using hn n h)

theorem clean_stateRoot (site : Site) : Clean site.stateRoot := clean_own (by decide)

theorem clean_stagingRoot (site : Site) : Clean site.stagingRoot :=
  (clean_own (n := "updates".toList) (by decide)).append (by simp [Clean])

theorem clean_backupRoot (site : Site) : Clean site.backupRoot :=
  (clean_own (n := "backups".toList) (by decide)).append (by simp [Clean])

theorem clean_target (h : Safe r) : Clean (site.target r) := by
  rw [target_eq h]
  exact site.root_clean.append h.clean

theorem clean_backup (h : Safe r) : Clean (site.backup r) := by
  rw [backup_eq h]
  exact (site.clean_backupRoot.append (by simp [Clean])).append h.clean

theorem target_ne_nil (h : Admitted r) : site.target r ≠ [] := by
  simp [target_eq h.safe, h.ne_nil]

theorem target_inj (hr : Safe r) (hs : Safe s) (h : site.target r = site.target s) : r = s := by
  rw [target_eq hr, target_eq hs] at h
  exact hr.ext hs (List.append_cancel_left h)

theorem backup_inj (hr : Safe r) (hs : Safe s) (h : site.backup r = site.backup s) : r = s := by
  rw [backup_eq hr, backup_eq hs] at h
  exact hr.ext hs (List.append_cancel_left h)

theorem backup_prefix_iff (hr : Safe r) (hs : Safe s) :
    site.backup r <+: site.backup s ↔ site.target r <+: site.target s := by
  rw [backup_eq hr, backup_eq hs, target_eq hr, target_eq hs, List.prefix_append_right_inj,
    List.prefix_append_right_inj]

theorem own_backup (h : Safe r) : site.Own (site.backup r) := by
  refine ⟨"backups".toList, by decide, ?_⟩
  rw [backup_eq h]
  exact ((List.prefix_append site.backups _).trans (List.prefix_append _ _)).trans
    (List.prefix_append _ _)

theorem not_own_of_target {q' : Path} (h : Admitted r) (hq : site.target r <+: q)
    (hq' : q' <+: q) : ¬ site.Own q' := by
  intro ⟨n, hn, hp⟩
  obtain ⟨m, rest, hm, hmem⟩ := h.components
  rw [target_eq h.safe, hm] at hq
  have h1 : site.root ++ [m] <+: q := (by simp : site.root ++ [m] <+: site.root ++ m :: rest).trans hq
  have h2 : site.root ++ [n] <+: site.root ++ [m] :=
    List.prefix_of_prefix_length_le (hp.trans hq') h1 (by simp)
  have h3 : n = m := by simpa using h2
  exact ownNames_not_managed n hn (h3 ▸ hmem)

theorem not_own_target (h : Admitted r) : ¬ site.Own (site.target r) :=
  not_own_of_target h List.prefix_rfl List.prefix_rfl

theorem backup_ne_target (hs : Admitted s) (hr : Admitted r) : site.backup s ≠ site.target r :=
  fun h => not_own_target hr (h ▸ own_backup hs.safe)

theorem own_of_stateRoot (h : site.stateRoot <+: q) : site.Own q := ⟨_, by decide, h⟩

theorem Private.own_or_root (h : site.Private q) : site.Own q ∨ q <+: site.root := by
  have key : ∀ (n : Name) (rest : Path), n ∈ ownNames → q <+: site.root ++ n :: rest →
      site.Own q ∨ q <+: site.root := by
    intro n rest hn hq
    by_cases hl : q.length ≤ site.root.length
    · exact Or.inr (List.prefix_of_prefix_length_le hq (List.prefix_append _ _) hl)
    · refine Or.inl ⟨n, hn, List.prefix_of_prefix_length_le ?_ hq (by simp; omega)⟩
      simp
  cases h with
  | inl h => exact Or.inl (own_of_stateRoot h)
  | inr h =>
    cases h with
    | inl h =>
      exact key "updates".toList ["staging".toList] (by decide)
        (by simpa [stagingRoot, updates] using h)
    | inr h => exact key "backups".toList [] (by decide) h

theorem not_target_prefix_private (h : Admitted r) (hq : site.Private q) :
    ¬ site.target r <+: q := by
  intro ht
  cases hq.own_or_root with
  | inl hq => exact not_own_of_target h ht List.prefix_rfl hq
  | inr hq =>
    have hlen := (ht.trans hq).length_le
    have := List.length_pos_iff.mpr h.ne_nil
    simp only [target_eq h.safe, List.length_append] at hlen
    omega

theorem Private.root_of_target (hq : site.Private q) (h : Admitted r) (ht : q <+: site.target r) :
    q <+: site.root :=
  hq.own_or_root.resolve_left (not_own_of_target h List.prefix_rfl ht)

theorem not_private_of_backupRoot (hq : site.backupRoot <+: q) : ¬ site.Private q := by
  intro hp
  rcases hp with hp | hp | hp
  · cases List.prefix_or_prefix_of_prefix hp hq with
    | inl h => simp [stateRoot, backupRoot, backups] at h
    | inr h => simp [stateRoot, backupRoot, backups] at h
  · have h := hq.trans hp
    simp [stagingRoot, updates, backupRoot, backups] at h
  · have h := (hq.trans hp).length_le
    simp only [backupRoot, List.length_append, List.length_singleton] at h
    omega

theorem backupRoot_prefix_backup (h : Safe r) : site.backupRoot <+: site.backup r := by
  rw [backup_eq h]
  exact (List.prefix_append _ _).trans (List.prefix_append _ _)

end Site

end PlumosBubble.Update
