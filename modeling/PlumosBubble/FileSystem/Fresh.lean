import PlumosBubble.FileSystem.Growth

/-! Where a path leads in a tree that gained nodes, and the directory that is there once a path
has been removed and made again: whatever links are on the way, it is a new one, and nothing is in
it. -/

namespace PlumosBubble.FileSystem

open Crash

variable {C : Type*} {t s c : Tree C} {follow follow' : Bool} {links : ℕ} {cur todo p q : Path}

/-- `s` has every node of `t`. -/
def Extends (t s : Tree C) : Prop := ∀ q, t.node q ≠ none → s.node q = t.node q

namespace Tree

theorem resolveFrom_eq_ok : t.resolveFrom follow links cur todo = .ok q ↔
    t.walk follow cur todo = .arrived q ∨
      ∃ more d target rest, links = more + 1 ∧ t.walk follow cur todo = .link d target rest ∧
        t.resolveFrom follow more (if target.head? = some '/' then [] else d)
          (components target ++ rest) = .ok q := by
  rw [resolveFrom]
  cases hw : t.walk follow cur todo with
  | arrived p => simp
  | failed e => simp
  | link d target rest =>
    cases links with
    | zero => simp
    | succ links => simp

/-! ### More nodes -/

/-- What a path leads to is found by the same walk, where it is there already or is a directory
now; a last link may have to be followed unless it is none. -/
def Kept (t s : Tree C) (follow follow' : Bool) (p : Path) : Prop :=
  s.node p = some .dir ∨
    t.node p ≠ none ∧ (follow' = follow ∨ ∀ target, t.node p ≠ some (.symlink target))

theorem walk_kept (h : Extends t s) (hf : follow = true → follow' = true) :
    match t.walk follow cur todo with
    | .arrived p => Kept t s follow follow' p → s.walk follow' cur todo = .arrived p
    | .failed _ => True
    | .link d target rest => s.walk follow' cur todo = .link d target rest := by
  induction todo generalizing cur with
  | nil => exact fun _ => rfl
  | cons n rest ih =>
    rw [walk, walk]
    by_cases hup : n = ['.', '.']
    · rw [if_pos hup, if_pos hup]
      exact ih
    rw [if_neg hup, if_neg hup]
    cases hv : t.node (cur ++ [n]) with
    | none =>
      dsimp only
      by_cases hr : rest = []
      · rw [if_pos hr]
        dsimp only
        rintro (hdir | ⟨hne, -⟩)
        · rw [hdir, hr]
          rfl
        · exact absurd hv hne
      · rw [if_neg hr]
        trivial
    | some v =>
      have hs := h _ (by simp [hv] : t.node (cur ++ [n]) ≠ none)
      rw [hs, hv]
      cases v with
      | file _ _ =>
        dsimp only
        by_cases hr : rest = []
        · rw [if_pos hr]
          exact fun _ => rfl
        · rw [if_neg hr]
          trivial
      | symlink target =>
        dsimp only
        by_cases hr : rest = [] ∧ follow = false
        · rw [if_pos hr]
          dsimp only
          rintro (hdir | ⟨-, hsame | hno⟩)
          · rw [hs, hv] at hdir
            cases hdir
          · rw [hsame, if_pos hr]
          · exact absurd hv (hno target)
        · have hr' : ¬(rest = [] ∧ follow' = false) := by
            rintro ⟨hrest, hfollow⟩
            refine hr ⟨hrest, ?_⟩
            by_contra hne
            rw [hf (by simpa using hne)] at hfollow
            cases hfollow
          rw [if_neg hr, if_neg hr']
      | dir => exact ih

theorem resolveFrom_kept (h : Extends t s) (hf : follow = true → follow' = true)
    (hres : t.resolveFrom follow links cur todo = .ok q) (hq : Kept t s follow follow' q) :
    s.resolveFrom follow' links cur todo = .ok q := by
  induction links generalizing cur todo with
  | zero =>
    have hw := @walk_kept _ _ _ _ _ cur todo h hf
    rcases resolveFrom_eq_ok.mp hres with hend | ⟨more, d, target, rest, hlinks, -⟩
    · rw [hend] at hw
      exact resolveFrom_eq_ok.mpr (Or.inl (hw hq))
    · cases hlinks
  | succ links ih =>
    have hw := @walk_kept _ _ _ _ _ cur todo h hf
    rcases resolveFrom_eq_ok.mp hres with hend | ⟨more, d, target, rest, hlinks, hend, hrest⟩
    · rw [hend] at hw
      exact resolveFrom_eq_ok.mpr (Or.inl (hw hq))
    · cases hlinks
      rw [hend] at hw
      exact resolveFrom_eq_ok.mpr (Or.inr ⟨links, d, target, rest, rfl, hw, ih hrest⟩)

theorem resolve_kept (h : Extends t s) (hf : follow = true → follow' = true)
    (hres : t.resolve follow p = .ok q) (hq : Kept t s follow follow' q) :
    s.resolve follow' p = .ok q := resolveFrom_kept h hf hres hq

theorem Extends.refl (t : Tree C) : Extends t t := fun _ _ => rfl

theorem walk_unfollowed : match t.walk true cur todo with
    | .arrived p => t.node p ≠ none → t.walk false cur todo = .arrived p
    | .failed _ => True
    | .link d target rest => t.walk false cur todo = .link d target rest ∨
      ∃ p, t.node p = some (.symlink target) ∧ t.walk false cur todo = .arrived p := by
  induction todo generalizing cur with
  | nil => exact fun _ => rfl
  | cons n rest ih =>
    rw [walk, walk]
    by_cases hup : n = ['.', '.']
    · rw [if_pos hup, if_pos hup]
      exact ih
    rw [if_neg hup, if_neg hup]
    cases hv : t.node (cur ++ [n]) with
    | none =>
      dsimp only
      by_cases hr : rest = []
      · rw [if_pos hr]
        exact fun _ => rfl
      · rw [if_neg hr]
        trivial
    | some v =>
      cases v with
      | file _ _ =>
        dsimp only
        by_cases hr : rest = []
        · rw [if_pos hr]
          exact fun _ => rfl
        · rw [if_neg hr]
          trivial
      | symlink target =>
        have htrue : ¬(rest = [] ∧ true = false) := by simp
        dsimp only
        rw [if_neg htrue]
        by_cases hr : rest = []
        · rw [if_pos ⟨hr, rfl⟩]
          exact Or.inr ⟨_, hv, rfl⟩
        · rw [if_neg fun h => hr h.1]
          exact Or.inl rfl
      | dir => exact ih

theorem resolveFrom_unfollowed (hres : t.resolveFrom true links cur todo = .ok q)
    (hq : t.node q ≠ none) :
    ∃ p, t.resolveFrom false links cur todo = .ok p ∧ t.node p ≠ none := by
  induction links generalizing cur todo with
  | zero =>
    have hw := @walk_unfollowed _ t cur todo
    rcases resolveFrom_eq_ok.mp hres with hend | ⟨more, d, target, rest, hlinks, -⟩
    · rw [hend] at hw
      exact ⟨q, resolveFrom_eq_ok.mpr (Or.inl (hw hq)), hq⟩
    · cases hlinks
  | succ links ih =>
    have hw := @walk_unfollowed _ t cur todo
    rcases resolveFrom_eq_ok.mp hres with hend | ⟨more, d, target, rest, hlinks, hend, hrest⟩
    · rw [hend] at hw
      exact ⟨q, resolveFrom_eq_ok.mpr (Or.inl (hw hq)), hq⟩
    · cases hlinks
      rw [hend] at hw
      rcases hw with hw | ⟨p, hp, hw⟩
      · obtain ⟨p, hp, hne⟩ := ih hrest
        exact ⟨p, resolveFrom_eq_ok.mpr (Or.inr ⟨links, d, target, rest, rfl, hw, hp⟩), hne⟩
      · exact ⟨p, resolveFrom_eq_ok.mpr (Or.inl hw), by simp [hp]⟩

theorem isDir_of_gone (h : Extends c t) (hres : t.resolve false p = .ok q)
    (hq : c.node q = none) : c.isDir p = false := by
  have hnot : ∀ D, c.resolve true p = .ok D → c.node D ≠ some .dir := by
    intro D hD hdir
    obtain ⟨r, hr, hne⟩ := resolveFrom_unfollowed hD (by simp [hdir])
    have hr' := resolve_kept h id hr (Or.inr ⟨hne, Or.inl rfl⟩)
    rw [hres] at hr'
    exact hne ((Except.ok.inj hr') ▸ hq)
  unfold isDir stat
  cases hD : c.resolve true p with
  | error e => rfl
  | ok D =>
    dsimp only
    have hdir := hnot D hD
    rcases hv : c.node D with _ | ⟨_ | _ | _⟩
    · rfl
    · rfl
    · rfl
    · exact absurd hv hdir

/-! ### Behind a directory -/

theorem walk_behind {more : Path} (hmore : more ≠ [] ∨ follow = true) :
    match t.walk true cur todo with
    | .arrived p => t.node p = some .dir →
      t.walk follow cur (todo ++ more) = t.walk follow p more
    | .failed _ => True
    | .link d target rest => t.walk follow cur (todo ++ more) = .link d target (rest ++ more) := by
  induction todo generalizing cur with
  | nil => exact fun _ => rfl
  | cons n rest ih =>
    rw [List.cons_append, walk, walk]
    by_cases hup : n = ['.', '.']
    · rw [if_pos hup, if_pos hup]
      exact ih
    rw [if_neg hup, if_neg hup]
    cases hv : t.node (cur ++ [n]) with
    | none =>
      dsimp only
      by_cases hr : rest = []
      · rw [if_pos hr]
        dsimp only
        intro hdir
        rw [hv] at hdir
        cases hdir
      · rw [if_neg hr]
        trivial
    | some v =>
      cases v with
      | file _ _ =>
        dsimp only
        by_cases hr : rest = []
        · rw [if_pos hr]
          dsimp only
          intro hdir
          rw [hv] at hdir
          cases hdir
        · rw [if_neg hr]
          trivial
      | symlink target =>
        have hfollow : ¬(rest ++ more = [] ∧ follow = false) := by
          rintro ⟨hnil, hfalse⟩
          rcases hmore with hmore | hmore
          · exact hmore (List.append_eq_nil_iff.mp hnil).2
          · rw [hmore] at hfalse
            cases hfalse
        dsimp only
        rw [if_neg (by simp : ¬(rest = [] ∧ true = false)), if_neg hfollow]
      | dir => exact ih

theorem resolveFrom_behind {more D : Path} (hmore : more ≠ [] ∨ follow = true)
    (hres : t.resolveFrom true links cur todo = .ok D) (hD : t.node D = some .dir) :
    ∃ left, t.resolveFrom follow links cur (todo ++ more) = t.resolveFrom follow left D more := by
  have harrived : ∀ {links : ℕ} {cur todo : Path}, t.walk true cur todo = .arrived D →
      ∃ left, t.resolveFrom follow links cur (todo ++ more) = t.resolveFrom follow left D more := by
    intro links cur todo hend
    have hw := @walk_behind _ t follow cur todo more hmore
    rw [hend] at hw
    refine ⟨links, ?_⟩
    rw [resolveFrom, hw hD, resolveFrom]
  induction links generalizing cur todo with
  | zero =>
    rcases resolveFrom_eq_ok.mp hres with hend | ⟨_, d, target, rest, hlinks, -⟩
    · exact harrived hend
    · cases hlinks
  | succ links ih =>
    have hw := @walk_behind _ t follow cur todo more hmore
    rcases resolveFrom_eq_ok.mp hres with hend | ⟨_, d, target, rest, hlinks, hend, hrest⟩
    · exact harrived hend
    · cases hlinks
      rw [hend] at hw
      obtain ⟨left, hleft⟩ := ih hrest
      refine ⟨left, ?_⟩
      rw [resolveFrom, hw]
      dsimp only
      rw [← List.append_assoc, hleft]

/-- A place that resolution finds has no `..` in it. -/
theorem clean_of_resolveFrom (hcur : Clean cur)
    (hres : t.resolveFrom follow links cur todo = .ok q) : Clean q := by
  have hwalk : ∀ {todo cur : Path}, Clean cur → match t.walk follow cur todo with
      | .arrived p => Clean p
      | .failed _ => True
      | .link d _ _ => Clean d := by
    intro todo
    induction todo with
    | nil => exact fun h => h
    | cons n rest ih =>
      intro cur hcur
      rw [walk]
      by_cases hup : n = ['.', '.']
      · rw [if_pos hup]
        exact ih (hcur.of_ancestor (List.dropLast_prefix _))
      have hnext : Clean (cur ++ [n]) := hcur.append fun m hm => by
        rw [List.mem_singleton.mp hm]
        exact hup
      rw [if_neg hup]
      rcases hv : t.node (cur ++ [n]) with _ | ⟨_ | _ | _⟩
      · dsimp only
        split_ifs
        · exact hnext
        · trivial
      · dsimp only
        split_ifs
        · exact hnext
        · trivial
      · dsimp only
        split_ifs
        · exact hnext
        · exact hcur
      · exact ih hnext
  induction links generalizing cur todo with
  | zero =>
    have hw := @hwalk todo cur hcur
    rcases resolveFrom_eq_ok.mp hres with hend | ⟨_, d, target, rest, hlinks, -⟩
    · rw [hend] at hw
      exact hw
    · cases hlinks
  | succ links ih =>
    have hw := @hwalk todo cur hcur
    rcases resolveFrom_eq_ok.mp hres with hend | ⟨_, d, target, rest, hlinks, hend, hrest⟩
    · rw [hend] at hw
      exact hw
    · cases hlinks
      rw [hend] at hw
      refine ih ?_ hrest
      split_ifs
      · exact fun n hn => absurd hn List.not_mem_nil
      · exact hw

end Tree

/-- The path leads to the directory `D`, and nothing is in it. -/
structure Empty (p D : Path) (t : Tree C) : Prop where
  clean : Clean D
  leads : t.resolve true p = .ok D
  dir : t.node D = some .dir
  empty : ∀ r, r ≠ [] → t.node (D ++ r) = none

theorem empty_of_mkdir (h : t.mkdir p = .ok s) : ∃ D, Empty p D s := by
  unfold Tree.mkdir at h
  split at h
  · rename_i D hD
    obtain ⟨-, hnone, -, hnode⟩ := Tree.create_cases h
    have hextends : Extends t s := by
      intro q hq
      rw [hnode, if_neg]
      rintro rfl
      exact hq hnone
    have hdir : s.node D = some .dir := by rw [hnode, if_pos rfl]
    refine ⟨D, ?_, Tree.resolve_kept hextends (fun h => absurd h (by simp)) hD (Or.inl hdir), hdir,
      fun r hr => ?_⟩
    · exact Tree.clean_of_resolveFrom (fun n hn => absurd hn List.not_mem_nil) hD
    · rw [hnode, if_neg (by simpa using hr)]
      exact t.eq_none_of_ancestor (List.prefix_append D r) (by simpa using Ne.symm hr)
        (by simp [hnone])
  · cases h

theorem Empty.mkdir {D : Path} {n : Name} (h : Empty p D t) (hn : n ≠ ['.', '.']) :
    ∃ s, t.mkdir (p ++ [n]) = .ok s := by
  obtain ⟨left, hleft⟩ := @Tree.resolveFrom_behind _ t false 40 [] p [n] D (Or.inl (by simp))
    h.leads h.dir
  have hnone := h.empty [n] (by simp)
  have hres : t.resolve false (p ++ [n]) = .ok (D ++ [n]) := by
    unfold Tree.resolve
    rw [hleft, Tree.resolveFrom_eq_ok]
    refine Or.inl ?_
    rw [Tree.walk, if_neg hn, hnone]
    rfl
  obtain ⟨s, hs, -⟩ := t.create_ok .dir (by simp) hnone (by simpa using h.dir)
  refine ⟨s, ?_⟩
  rw [Tree.mkdir, hres]
  exact hs

theorem wp_mkdirParents_made (hclean : Clean p) :
    wp (mkdirParents p) (fun _ d => (∃ s : Tree C, s.mkdir p = .ok d) ∨ d = t ∧ t.isDir p = true)
      (fun _ _ => True) (fun _ => True) t := by
  have hexist : ∀ {p : Path} {t : Tree C},
      wp (mkdirExistOk p) (fun _ d => (∃ s : Tree C, s.mkdir p = .ok d) ∨
        d = t ∧ t.isDir p = true ∧ t.mkdir p ≠ .error .enoent ∧ ∀ s, t.mkdir p ≠ .ok s)
        (fun _ _ => True) (fun _ => True) t := by
    intro p t
    rw [mkdirExistOk, wp_handle]
    refine wp_step (fun s hs => ⟨trivial, Or.inl ⟨t, hs⟩⟩) fun e he => ?_
    rw [wp_bind, wp_read]
    split_ifs with hdir
    · refine (wp_pure _).mpr (Or.inr ⟨rfl, hdir.2, ?_, ?_⟩)
      · rw [he]
        exact fun h => hdir.1 (Except.error.inj h)
      · rw [he]
        intro s h
        cases h
    · exact (wp_raise _).mpr trivial
  obtain ⟨up, rfl⟩ : ∃ up : List Name, p = up.reverse := ⟨p.reverse, by simp⟩
  rw [mkdirParents, List.reverse_reverse]
  induction up with
  | nil =>
    refine wp_mono hexist (fun _ d hd => ?_) (fun _ _ h => h) (fun _ h => h)
    exact hd.imp id fun h => ⟨h.1, h.2.1⟩
  | cons n up ih =>
    have hrev : (n :: up).reverse = up.reverse ++ [n] := List.reverse_cons
    have hup : Clean up.reverse := hclean.of_ancestor (by rw [hrev]; exact List.prefix_append _ _)
    have hn : n ≠ ['.', '.'] := hclean n (by simp)
    rw [mkdirParentsRev, wp_handle]
    refine wp_step (fun s hs => ⟨trivial, Or.inl ⟨t, hs⟩⟩) fun e he => ?_
    split_ifs with henoent
    · rw [wp_bind]
      refine wp_mono (ih hup) (fun _ d hd => ?_) (fun _ _ h => h) (fun _ h => h)
      refine wp_mono hexist (fun _ c hc => ?_) (fun _ _ h => h) (fun _ h => h)
      rcases hc with hc | ⟨rfl, -, hnot, hnone⟩
      · exact Or.inl hc
      -- the parent was made, so the name was free; or it was there, and nothing has changed
      rcases hd with ⟨s, hs⟩ | ⟨rfl, -⟩
      · obtain ⟨D, hD⟩ := empty_of_mkdir hs
        obtain ⟨e, he⟩ := hD.mkdir hn
        rw [← hrev] at he
        exact absurd he (hnone e)
      · rw [he, henoent] at hnot
        exact absurd rfl hnot
    · rw [wp_bind, wp_read]
      split_ifs with hdir
      · exact (wp_pure _).mpr (Or.inr ⟨rfl, hdir⟩)
      · exact (wp_raise _).mpr trivial

/-- `rmtree` takes away what the path names, or raises. -/
theorem wp_rmtree_gone (order : RemovalOrder C) (hres : t.resolve false p = .ok q)
    (hq : t.node q ≠ none) : wp (rmtree order p) (fun _ c => c.isDir p = false) (fun _ _ => True)
      (fun _ => True) t := by
  rw [rmtree, wp_bind, wp_read, hres]
  dsimp only
  rw [wp_bind, wp_read]
  have hmem : q ∈ order.list t q := (order.mem_list t q q).mpr ⟨List.prefix_rfl, hq⟩
  refine wp_forEach (fun rest d => Extends d t ∧ (q ∈ rest ∨ d.node q = none)) ?_ ?_ _
    ⟨Tree.Extends.refl t, Or.inl hmem⟩
  · rintro r rest d ⟨hextends, hgone⟩
    refine wp_step (fun e he => ⟨trivial, ?_⟩) fun _ _ => trivial
    have hnode : ∀ x, e.node x = if x = r then none else d.node x := by
      unfold Tree.removeEntry at he
      split_ifs at he
      cases he
      intro x
      simp
    refine ⟨fun x hx => ?_, ?_⟩
    · rw [hnode] at hx ⊢
      split_ifs at hx ⊢ with hxr
      · exact absurd rfl hx
      · exact hextends x hx
    · rw [hnode]
      by_cases hqr : q = r
      · exact Or.inr (if_pos hqr)
      · rw [if_neg hqr]
        exact hgone.imp (fun h => (List.mem_cons.mp h).resolve_left hqr) id
  · rintro d ⟨hextends, hgone⟩
    exact Tree.isDir_of_gone hextends hres (hgone.resolve_left List.not_mem_nil)

/-- After `remove_path` the path names no directory. -/
theorem wp_removePath_gone (order : RemovalOrder C) : wp (removePath order p)
    (fun _ c => c.isDir p = false) (fun _ _ => True) (fun _ => True) t := by
  rw [removePath, wp_bind, wp_read, wp_bind, wp_read]
  split_ifs with hfile
  · -- it names something that `unlink` removes
    have hnamed : ∃ q, t.resolve false p = .ok q ∧ t.node q ≠ none ∧ t.node q ≠ some .dir := by
      rcases Bool.or_eq_true_iff.mp hfile with hlink | hfile
      · unfold Tree.isSymlink Tree.lstat at hlink
        split at hlink
        · rename_i target hnode
          split at hnode
          · rename_i q hq
            exact ⟨q, hq, by simp [hnode], by simp [hnode]⟩
          · cases hnode
        · cases hlink
      · unfold Tree.isFile Tree.stat at hfile
        split at hfile
        · rename_i content mode hnode
          split at hnode
          · rename_i q hq
            obtain ⟨r, hr, hne⟩ := Tree.resolveFrom_unfollowed hq (by simp [hnode])
            refine ⟨r, hr, hne, fun hdir => ?_⟩
            have hr' := Tree.resolve_kept (Tree.Extends.refl t) (fun _ => rfl) hr
              (Or.inl hdir : Tree.Kept t t false true r)
            rw [hq] at hr'
            rw [Except.ok.inj hr', hdir] at hnode
            cases hnode
          · cases hnode
        · cases hfile
    obtain ⟨q, hres, hq, hdir⟩ := hnamed
    rw [unlinkMissingOk, wp_handle]
    refine wp_step (fun c hc => ⟨trivial, ?_⟩) fun e he => ?_
    · unfold Tree.unlink at hc
      rw [hres] at hc
      dsimp only at hc
      rw [if_neg hdir] at hc
      unfold Tree.removeEntry at hc
      split_ifs at hc
      cases hc
      refine Tree.isDir_of_gone (fun x hx => ?_) hres (by simp)
      rw [Tree.update_node] at hx ⊢
      split_ifs at hx ⊢ with hxq
      · exact absurd rfl hx
      · rfl
    · have hroot : q ≠ [] := by
        rintro rfl
        exact hdir t.root_dir
      obtain ⟨c, hc, -⟩ := t.removeEntry_ok hroot hq
        (Tree.hasChild_eq_false.mp (t.hasChild_of_ne_dir hdir))
      unfold Tree.unlink at he
      rw [hres] at he
      dsimp only at he
      rw [if_neg hdir, hc] at he
      cases he
  · rw [wp_bind, wp_read]
    split_ifs with hdir
    · have hstat : ∃ D, t.resolve true p = .ok D ∧ t.node D = some .dir := by
        unfold Tree.isDir Tree.stat at hdir
        split at hdir
        · rename_i hnode
          split at hnode
          · rename_i D hD
            exact ⟨D, hD, hnode⟩
          · cases hnode
        · cases hdir
      obtain ⟨D, hD, hdir⟩ := hstat
      obtain ⟨q, hres, hq⟩ := Tree.resolveFrom_unfollowed hD (by simp [hdir])
      exact wp_rmtree_gone order hres hq
    · exact (wp_pure _).mpr (by simpa using hdir)

theorem wp_emptied (order : RemovalOrder C) (hclean : Clean p) :
    wp (do
        removePath order p
        mkdirParents p)
      (fun _ d => ∃ D, Empty p D d) (fun _ _ => True) (fun _ => True) t := by
  rw [wp_bind]
  refine wp_mono (wp_removePath_gone order) (fun _ c hc => ?_) (fun _ _ h => h) (fun _ h => h)
  refine wp_mono (wp_mkdirParents_made hclean) (fun _ d hd => ?_) (fun _ _ h => h) (fun _ h => h)
  rcases hd with ⟨s, hs⟩ | ⟨-, hdir⟩
  · exact empty_of_mkdir hs
  · rw [hc] at hdir
    cases hdir

end PlumosBubble.FileSystem
