import PlumosBubble.FileSystem.Programs

/-! A directory that nothing leaves: where every link at or below `dest` is relative and
climbs nowhere, a path below `dest` resolves to a path below `dest`, and no call on such a
path changes anything else. -/

namespace PlumosBubble.FileSystem

open Crash

variable {C : Type*}

/-- Links at or below `dest` are relative and have no `..`. -/
def LinksStay (dest : Path) (t : Tree C) : Prop :=
  ∀ q target, dest <+: q → t.node q = some (.symlink target) →
    target.head? ≠ some '/' ∧ Clean (components target)

/-- `c` differs from `t` below the directory `dest` only, and links there stay. -/
structure Within (dest : Path) (t c : Tree C) : Prop where
  dir : c.node dest = some .dir
  stay : LinksStay dest c
  other : ∀ q, ¬ dest <+: q → c.node q = t.node q

namespace Tree

variable (t : Tree C) (follow : Bool)

theorem walk_append {cur a b : Path} (ha : Clean a)
    (hdir : ∀ r, r <+: a → t.node (cur ++ r) = some .dir) :
    t.walk follow cur (a ++ b) = t.walk follow (cur ++ a) b := by
  induction a generalizing cur with
  | nil => simp
  | cons n a ih =>
    have hd := hdir [n] (by simp)
    rw [List.cons_append, walk, if_neg (ha n (by simp)), hd]
    dsimp only
    rw [ih (fun m hm => ha m (by simp [hm]))]
    · simp
    · intro r hr
      simpa using hdir (n :: r) (by simpa using hr)

/-- A walk that starts below `dest` stops below it. -/
theorem walk_inside {dest cur todo : Path} (hcur : dest <+: cur) (hclean : Clean todo) :
    match t.walk follow cur todo with
    | .arrived p => dest <+: p
    | .failed _ => True
    | .link d target rest =>
      dest <+: d ∧ (∃ n, t.node (d ++ [n]) = some (.symlink target)) ∧ Clean rest := by
  induction todo generalizing cur with
  | nil => simpa [walk] using hcur
  | cons n rest ih =>
    have hn : n ≠ ['.', '.'] := hclean n (by simp)
    have hrest : Clean rest := fun m hm => hclean m (by simp [hm])
    have hext : dest <+: cur ++ [n] := hcur.trans (List.prefix_append _ _)
    rw [walk, if_neg hn]
    cases hv : t.node (cur ++ [n]) with
    | none =>
      dsimp only
      by_cases hr : rest = []
      · rw [if_pos hr]; exact hext
      · rw [if_neg hr]; trivial
    | some v =>
      cases v with
      | file c m =>
        dsimp only
        by_cases hr : rest = []
        · rw [if_pos hr]; exact hext
        · rw [if_neg hr]; trivial
      | symlink target =>
        dsimp only
        by_cases hr : rest = [] ∧ follow = false
        · rw [if_pos hr]; exact hext
        · rw [if_neg hr]; exact ⟨hcur, ⟨n, hv⟩, hrest⟩
      | dir => exact ih hext hrest

theorem resolveFrom_inside {dest : Path} (hstay : LinksStay dest t) (links : ℕ) {cur todo q : Path}
    (hcur : dest <+: cur) (hclean : Clean todo) (h : t.resolveFrom follow links cur todo = .ok q) :
    dest <+: q := by
  induction links generalizing cur todo with
  | zero =>
    have hw := t.walk_inside follow hcur hclean
    rw [resolveFrom] at h
    split at h
    · rename_i p hp
      rw [hp] at hw
      cases h
      exact hw
    · cases h
    · cases h
  | succ links ih =>
    have hw := t.walk_inside follow hcur hclean
    rw [resolveFrom] at h
    split at h
    · rename_i p hp
      rw [hp] at hw
      cases h
      exact hw
    · cases h
    · rename_i d target rest hp
      rw [hp] at hw
      obtain ⟨hd, ⟨n, hn⟩, hrest⟩ := hw
      obtain ⟨hrel, htarget⟩ := hstay _ target (hd.trans (List.prefix_append _ _)) hn
      rw [if_neg hrel] at h
      exact ih hd (htarget.append hrest) h

theorem resolve_below {dest todo : Path} (hdest : Clean dest) (hd : t.node dest = some .dir) :
    t.resolve follow (dest ++ todo) = t.resolveFrom follow 40 dest todo := by
  have hdir : ∀ r, r <+: dest → t.node ([] ++ r) = some .dir := by
    intro r hr
    by_cases hrd : r = dest
    · simpa [hrd] using hd
    · exact t.dir_of_ancestor hr hrd (by simp [hd])
  rw [resolve, resolveFrom, resolveFrom, t.walk_append follow hdest hdir, List.nil_append]

/-- A path below `dest` resolves to a path below `dest`. -/
theorem resolve_inside {dest todo q : Path} (hclean : Clean (dest ++ todo))
    (hd : t.node dest = some .dir) (hstay : LinksStay dest t)
    (h : t.resolve follow (dest ++ todo) = .ok q) : dest <+: q := by
  rw [t.resolve_below follow (hclean.of_ancestor (List.prefix_append _ _)) hd] at h
  exact t.resolveFrom_inside follow hstay 40 List.prefix_rfl
    (fun n hn => hclean n (List.mem_append_right _ hn)) h

end Tree

namespace Within

variable {dest todo : Path} {t c d : Tree C}

/-- One node set below `dest`: no directory taken away, no link that leaves. -/
theorem set (h : Within dest t c) {q : Path} {v : Node C} (hq : dest <+: q)
    (hne : q = dest → v = .dir)
    (hv : ∀ target, v = .symlink target → target.head? ≠ some '/' ∧ Clean (components target))
    (hd : ∀ r, d.node r = if r = q then some v else c.node r) : Within dest t d := by
  refine ⟨?_, ?_, ?_⟩
  · rw [hd]
    split_ifs with hdq
    · rw [hne hdq.symm]
    · exact h.dir
  · intro r target hr hl
    rw [hd] at hl
    split_ifs at hl with hrq
    · exact hv target (by simpa using hl)
    · exact h.stay r target hr hl
  · intro r hr
    rw [hd, if_neg (by rintro rfl; exact hr hq)]
    exact h.other r hr

theorem create (h : Within dest t c) {p : Path} {follow : Bool} {v : Node C}
    (hclean : Clean (dest ++ todo)) (hp : c.resolve follow (dest ++ todo) = .ok p)
    (hv : ∀ target, v = .symlink target → target.head? ≠ some '/' ∧ Clean (components target))
    (hd : c.create p v = .ok d) : Within dest t d := by
  obtain ⟨-, hnone, -, hq⟩ := Tree.create_cases hd
  refine h.set (c.resolve_inside follow hclean h.dir h.stay hp) (fun he => ?_) hv hq
  rw [he, h.dir] at hnone
  cases hnone

theorem mkdir (h : Within dest t c) (hclean : Clean (dest ++ todo))
    (hd : c.mkdir (dest ++ todo) = .ok d) : Within dest t d := by
  unfold Tree.mkdir at hd
  split at hd
  · rename_i p hp
    exact h.create hclean hp (by simp) hd
  · cases hd

theorem symlinkTo (h : Within dest t c) {target : List Char} (hclean : Clean (dest ++ todo))
    (htarget : target.head? ≠ some '/' ∧ Clean (components target))
    (hd : c.symlinkTo (dest ++ todo) target = .ok d) : Within dest t d := by
  unfold Tree.symlinkTo at hd
  split_ifs at hd
  split at hd
  · rename_i p hp
    exact h.create hclean hp (by rintro _ ⟨⟩; exact htarget) hd
  · cases hd

theorem writeFile (h : Within dest t c) {content : C} {mode : ℕ} (hclean : Clean (dest ++ todo))
    (hd : c.writeFile (dest ++ todo) content mode = .ok d) : Within dest t d := by
  unfold Tree.writeFile at hd
  split at hd
  · cases hd
  · rename_i p hp
    split_ifs at hd
    split at hd
    · exact h.create hclean hp (by simp) hd
    · rename_i hnode
      cases hd
      refine h.set (v := .file content _) (c.resolve_inside true hclean h.dir h.stay hp)
        (fun he => ?_) (by simp) (fun r => rfl)
      rw [he, h.dir] at hnode
      cases hnode
    · cases hd

theorem chmod (h : Within dest t c) {mode : ℕ} (hclean : Clean (dest ++ todo))
    (hd : c.chmod (dest ++ todo) mode = .ok d) : Within dest t d := by
  unfold Tree.chmod at hd
  split at hd
  · cases hd
  · rename_i p hp
    split_ifs at hd
    · cases hd
      exact h
    · split at hd
      · cases hd
      · rename_i content _ hnode
        cases hd
        refine h.set (v := .file content mode) (c.resolve_inside true hclean h.dir h.stay hp)
          (fun he => ?_) (by simp) (fun r => rfl)
        rw [he, h.dir] at hnode
        cases hnode
      · cases hd
        exact h

end Within

/-- However it ends, `mkdir -p` of a path below `dest` changes nothing else. -/
theorem wp_mkdirParents_within {dest todo : Path} {t c : Tree C} (h : Within dest t c)
    (hclean : Clean (dest ++ todo)) :
    wp (mkdirParents (dest ++ todo)) (fun _ d => Within dest t d) (fun _ d => Within dest t d)
      (Within dest t) c := by
  have hexist : ∀ (r : Path) (d : Tree C), Clean (dest ++ r) → Within dest t d →
      wp (mkdirExistOk (dest ++ r)) (fun _ d => Within dest t d) (fun _ d => Within dest t d)
        (Within dest t) d := by
    intro r d hr hd
    rw [mkdirExistOk, wp_handle]
    refine wp_step (fun e he => ⟨hd.mkdir hr he, hd.mkdir hr he⟩) (fun e he => ?_)
    rw [wp_bind, wp_read]
    split_ifs
    · exact (wp_pure _).mpr hd
    · exact (wp_raise _).mpr hd
  obtain ⟨r, rfl⟩ : ∃ r : List Name, todo = r.reverse := ⟨todo.reverse, by simp⟩
  rw [mkdirParents, List.reverse_append, List.reverse_reverse]
  induction r with
  | nil =>
    have hdest : Clean dest := by simpa using hclean
    have := wp_mkdirParents_dir (E := fun _ d => Within dest t d) (D := Within dest t)
      (Q := fun _ d => Within dest t d) hdest h.dir h
    simpa [mkdirParents] using this
  | cons n up ih =>
    have hrev : (n :: (up ++ dest.reverse)).reverse = dest ++ (n :: up).reverse := by simp
    have hup : Clean (dest ++ up.reverse) := hclean.of_ancestor (by simp)
    rw [List.cons_append, mkdirParentsRev, wp_handle, hrev]
    refine wp_step (fun d hd => ⟨h.mkdir hclean hd, h.mkdir hclean hd⟩) (fun e he => ?_)
    split_ifs
    · rw [wp_bind]
      exact wp_mono (ih hup) (fun _ d hd => hexist _ d hclean hd) (fun _ _ h => h) (fun _ h => h)
    · rw [wp_bind, wp_read]
      split_ifs
      · exact (wp_pure _).mpr h
      · exact (wp_raise _).mpr h

end PlumosBubble.FileSystem
