import PlumosBubble.Crash.Keeps
import PlumosBubble.FileSystem.Fresh

/-! A directory that nothing leaves, whatever is renamed in it: the links in it have no `..`, and
are relative or lead back into it. A path that leads into the directory still does after any call
on such paths, and nothing outside changes. -/

namespace PlumosBubble.FileSystem

open Crash

variable {C : Type*} {base D cur todo p q src dst : Path} {t c d : Tree C} {follow : Bool}
  {links : ℕ} {gone : Prop}

/-- The target of a link that stays at or below `D`, wherever in `D` the link is moved. -/
def Homebound (D : Path) (target : List Char) : Prop :=
  Clean (components target) ∧ (target.head? = some '/' → D <+: components target)

/-- `c` differs from `t` at or below the directory `D` only, and links there stay. The directory is
there, unless it may be `gone`. -/
structure Fenced (gone : Prop) (D : Path) (t c : Tree C) : Prop where
  dir : c.node D = some .dir ∨ gone ∧ c.node D = none
  stay : ∀ q target, D <+: q → c.node q = some (.symlink target) → Homebound D target
  other : ∀ q, ¬D <+: q → c.node q = t.node q

/-- The path `base` leads to `D`, whatever happens in `D`, and nothing but `D` itself has to be
made on the way. -/
structure Fence (gone : Prop) (base D : Path) (t : Tree C) : Prop where
  clean : Clean D
  leads : ∀ c, Fenced gone D t c → ∀ {follow todo q}, todo ≠ [] →
    c.resolve follow (base ++ todo) = .ok q →
      c.node D = some .dir ∧ ∃ left, c.resolveFrom follow left D todo = .ok q
  made : ∀ c d, Fenced gone D t c → c.mkdir base = .ok d → Fenced gone D t d
  there : ∀ c, Fenced gone D t c → c.mkdir base ≠ .error .enoent

/-- A path with `base` in front and no `..` behind it. -/
def Under (base p : Path) : Prop := ∃ todo, Clean todo ∧ p = base ++ todo

/-- The same, and something behind it. -/
def Below (base p : Path) : Prop := ∃ todo, todo ≠ [] ∧ Clean todo ∧ p = base ++ todo

section Paths

theorem Below.under (h : Below base p) : Under base p := by
  obtain ⟨todo, -, hclean, rfl⟩ := h
  exact ⟨todo, hclean, rfl⟩

theorem Under.append (h : Under base p) (htodo : Clean todo) : Under base (p ++ todo) := by
  obtain ⟨front, hclean, rfl⟩ := h
  exact ⟨front ++ todo, hclean.append htodo, by simp⟩

theorem Under.below (h : Under base p) (htodo : Clean todo) (hne : todo ≠ []) :
    Below base (p ++ todo) := by
  obtain ⟨front, hclean, rfl⟩ := h
  exact ⟨front ++ todo, by simp [hne], hclean.append htodo, by simp⟩

theorem Under.refl (base : Path) : Under base base :=
  ⟨[], fun n hn => absurd hn List.not_mem_nil, by simp⟩

theorem Below.dropLast (h : Below base p) : Under base p.dropLast := by
  obtain ⟨todo, hne, hclean, rfl⟩ := h
  refine ⟨todo.dropLast, hclean.of_ancestor (List.dropLast_prefix _), ?_⟩
  rw [List.dropLast_append_of_ne_nil hne]

end Paths

section Resolve

theorem resolveFrom_root (hD : Clean D) (hdir : c.node D = some .dir) :
    c.resolveFrom follow links [] (D ++ todo) = c.resolveFrom follow links D todo := by
  have hway : ∀ r, r <+: D → c.node ([] ++ r) = some .dir := by
    intro r hr
    by_cases hrD : r = D
    · simpa [hrD] using hdir
    · exact c.dir_of_ancestor hr hrD (by simp [hdir])
  rw [Tree.resolveFrom, Tree.resolveFrom, c.walk_append follow hD hway, List.nil_append]

theorem Fenced.resolveFrom (h : Fenced gone D t c) (hD : Clean D) (hin : D <+: cur)
    (hclean : Clean todo) (hres : c.resolveFrom follow links cur todo = .ok q) :
    D <+: q ∧ (follow = false → todo ≠ [] → q ≠ D) := by
  have harrived : ∀ {cur todo : Path}, D <+: cur → Clean todo →
      c.walk follow cur todo = .arrived q → D <+: q ∧ (follow = false → todo ≠ [] → q ≠ D) := by
    intro cur todo hin hclean hend
    have hw := c.walk_inside follow hin hclean
    rw [hend] at hw
    refine ⟨hw, fun _ hne => ?_⟩
    obtain ⟨hparent, hq⟩ := Tree.walk_strict hin hclean hne hend
    rintro rfl
    exact dropLast_ne hq (hparent.eq_of_length_le (by simp)).symm
  induction links generalizing cur todo with
  | zero =>
    rcases Tree.resolveFrom_eq_ok.mp hres with hend | ⟨_, d, target, rest, hlinks, -⟩
    · exact harrived hin hclean hend
    · cases hlinks
  | succ links ih =>
    rcases Tree.resolveFrom_eq_ok.mp hres with hend | ⟨_, d, target, rest, hlinks, hend, hres⟩
    · exact harrived hin hclean hend
    · cases hlinks
      have hw := c.walk_inside follow hin hclean
      rw [hend] at hw
      obtain ⟨hd, ⟨n, hn⟩, hrest⟩ := hw
      obtain ⟨htarget, habsolute⟩ := h.stay _ target (hd.trans (List.prefix_append _ _)) hn
      have hstrict : follow = false → rest ≠ [] := by
        rintro rfl
        exact Tree.rest_of_link hend
      split_ifs at hres with hhead
      · -- an absolute link: the directory is there, since the link is in it
        have hdir : c.node D = some .dir := by
          refine c.dir_of_ancestor (hd.trans (List.prefix_append d [n])) ?_ (by simp [hn])
          rintro rfl
          exact not_prefix_child d n hd
        obtain ⟨r, hr⟩ := habsolute hhead
        rw [← hr, List.append_assoc, resolveFrom_root hD hdir] at hres
        have hr' : Clean r := fun m hm => htarget m (by rw [← hr]; exact List.mem_append_right _ hm)
        obtain ⟨hq, hne⟩ := ih List.prefix_rfl (hr'.append hrest) hres
        exact ⟨hq, fun hf _ => hne hf (by simp [hstrict hf])⟩
      · obtain ⟨hq, hne⟩ := ih hd (htarget.append hrest) hres
        exact ⟨hq, fun hf _ => hne hf (by simp [hstrict hf])⟩

theorem Fence.here (hD : Clean D) (hdir : t.node D = some .dir) : Fence gone D D t := by
  have hparent : ∀ {c : Tree C}, Fenced gone D t c → c.node D = none →
      c.node D.dropLast = some .dir := by
    intro c h hnone
    have hne := c.ne_nil_of_none hnone
    have hother : ¬D <+: D.dropLast := fun hback =>
      dropLast_ne hne (hback.eq_of_length_le (by simp)).symm
    rw [h.other _ hother]
    exact t.parent_dir' (by simp [hdir])
  refine ⟨hD, fun c h follow todo q hne hres => ?_, fun c d h hmade => ?_, fun c h => ?_⟩
  · rcases h.dir with hdir | ⟨-, hnone⟩
    · unfold Tree.resolve at hres
      rw [resolveFrom_root hD hdir] at hres
      exact ⟨hdir, 40, hres⟩
    · -- the walk ends where the directory is missing
      have hD' := c.ne_nil_of_none hnone
      have hfail : c.walk follow [] (D ++ todo) = .failed .enoent := by
        have hsplit : D ++ todo = D.dropLast ++ (D.getLast hD' :: todo) := by
          rw [List.append_cons, List.dropLast_append_getLast]
        have hway : ∀ r, r <+: D.dropLast → c.node ([] ++ r) = some .dir := by
          intro r hr
          by_cases hrD : r = D.dropLast
          · simpa [hrD] using hparent h hnone
          · exact c.dir_of_ancestor hr hrD (by simp [hparent h hnone])
        rw [hsplit, c.walk_append follow (hD.of_ancestor (List.dropLast_prefix _)) hway,
          List.nil_append, Tree.walk, if_neg (hD _ (List.getLast_mem hD')),
          List.dropLast_append_getLast, hnone]
        exact if_neg hne
      unfold Tree.resolve at hres
      rw [Tree.resolveFrom, hfail] at hres
      cases hres
  · rcases h.dir with hdir | ⟨-, hnone⟩
    · rw [c.mkdir_exists hD (by simp [hdir])] at hmade
      cases hmade
    · obtain ⟨d', hd', hnode⟩ := c.mkdir_ok hD hnone (hparent h hnone)
      rw [hd'] at hmade
      cases hmade
      refine ⟨Or.inl (by rw [hnode, if_pos rfl]), fun q target hq hlink => ?_, fun q hq => ?_⟩
      · rw [hnode] at hlink
        split_ifs at hlink
        · cases hlink
        · exact h.stay q target hq hlink
      · rw [hnode, if_neg (by rintro rfl; exact hq List.prefix_rfl)]
        exact h.other q hq
  · rcases h.dir with hdir | ⟨-, hnone⟩
    · rw [c.mkdir_exists hD (by simp [hdir])]
      simp
    · obtain ⟨d, hd, -⟩ := c.mkdir_ok hD hnone (hparent h hnone)
      rw [hd]
      intro he
      cases he

theorem Fence.of_empty (h : Empty base D t) : Fence False base D t := by
  have hleads : ∀ c, Fenced False D t c → c.node D = some .dir ∧ c.resolve true base = .ok D := by
    intro c hc
    have hdir := hc.dir.resolve_right fun hgone => hgone.1
    refine ⟨hdir, Tree.resolve_kept (fun q hq => ?_) id h.leads (Or.inl hdir)⟩
    by_cases hin : D <+: q
    · obtain ⟨r, rfl⟩ := hin
      have hr : r = [] := by
        by_contra hr
        exact hq (h.empty r hr)
      rw [hr, List.append_nil, hdir, h.dir]
    · exact hc.other q hin
  have hexists : ∀ c, Fenced False D t c → c.mkdir base = .error .eexist := by
    intro c hc
    obtain ⟨hdir, hres⟩ := hleads c hc
    obtain ⟨q, hq, hne⟩ := Tree.resolveFrom_unfollowed hres (by simp [hdir])
    have hq' : c.resolve false base = .ok q := hq
    rw [Tree.mkdir, hq']
    dsimp only
    unfold Tree.create
    split_ifs
    · rfl
    · rfl
  refine ⟨h.clean, fun c hc follow todo q hne hres => ?_, fun c d hc hmade => ?_, fun c hc => ?_⟩
  · obtain ⟨hdir, hlead⟩ := hleads c hc
    obtain ⟨left, hleft⟩ := @Tree.resolveFrom_behind _ c follow 40 [] base todo D (Or.inl hne)
      hlead hdir
    unfold Tree.resolve at hres
    rw [hleft] at hres
    exact ⟨hdir, left, hres⟩
  · rw [hexists c hc] at hmade
    cases hmade
  · rw [hexists c hc]
    simp

theorem Fenced.of_empty (h : Empty base D t) : Fenced False D t t := by
  refine ⟨Or.inl h.dir, fun q target hq hlink => ?_, fun _ _ => rfl⟩
  obtain ⟨r, rfl⟩ := hq
  by_cases hr : r = []
  · rw [hr, List.append_nil, h.dir] at hlink
    cases hlink
  · rw [h.empty r hr] at hlink
    cases hlink

theorem Fence.resolve (F : Fence gone base D t) (h : Fenced gone D t c) (hp : Below base p)
    (hres : c.resolve follow p = .ok q) :
    c.node D = some .dir ∧ D <+: q ∧ (follow = false → q ≠ D) := by
  obtain ⟨todo, hne, hclean, rfl⟩ := hp
  obtain ⟨hdir, left, hleft⟩ := F.leads c h hne hres
  obtain ⟨hq, hstrict⟩ := h.resolveFrom F.clean List.prefix_rfl hclean hleft
  exact ⟨hdir, hq, fun hf => hstrict hf hne⟩

end Resolve

namespace Fenced

/-- One node below `D` set or taken away. -/
theorem set (h : Fenced gone D t c) {v : Option (Node C)} (hq : D <+: q) (hne : q ≠ D)
    (hv : ∀ target, v = some (.symlink target) → Homebound D target)
    (hd : ∀ r, d.node r = if r = q then v else c.node r) : Fenced gone D t d := by
  refine ⟨?_, ?_, ?_⟩
  · rw [hd, if_neg (Ne.symm hne)]
    exact h.dir
  · intro r target hr hlink
    rw [hd] at hlink
    split_ifs at hlink with hrq
    · exact hv target hlink
    · exact h.stay r target hr hlink
  · intro r hr
    rw [hd, if_neg (by rintro rfl; exact hr hq)]
    exact h.other r hr

theorem create (h : Fenced gone D t c) {v : Node C} (hdir : c.node D = some .dir) (hq : D <+: q)
    (hv : ∀ target, v = .symlink target → Homebound D target) (hd : c.create q v = .ok d) :
    Fenced gone D t d := by
  obtain ⟨-, hnone, -, hnode⟩ := Tree.create_cases hd
  refine h.set hq (fun he => ?_)
    (fun target htarget => hv target (Option.some_inj.mp htarget)) hnode
  rw [he, hdir] at hnone
  cases hnone

theorem removeEntry (h : Fenced gone D t c) (hq : D <+: q) (hne : q = D → gone)
    (hd : c.removeEntry q = .ok d) : Fenced gone D t d := by
  unfold Tree.removeEntry at hd
  split_ifs at hd
  cases hd
  by_cases hqD : q = D
  · subst hqD
    refine ⟨Or.inr ⟨hne rfl, by simp⟩, fun r target hr hlink => ?_, fun r hr => ?_⟩
    · rw [Tree.update_node] at hlink
      split_ifs at hlink
      exact h.stay r target hr hlink
    · rw [Tree.update_node, if_neg (by rintro rfl; exact hr List.prefix_rfl)]
      exact h.other r hr
  · refine h.set (v := none) hq hqD (fun target hv => ?_) fun r => by simp
    cases hv

theorem renameResolved (h : Fenced gone D t c) (hs : D <+: src) (hsD : src ≠ D) (hd : D <+: dst)
    (hdD : dst ≠ D) (hr : c.renameResolved src dst = .ok d) : Fenced gone D t d := by
  obtain ⟨-, ⟨-, rfl⟩ | ⟨-, -, -, -, hnode⟩⟩ := c.renameResolved_cases hr
  · exact h
  · have hD : ∀ {x : Path}, D <+: x → x ≠ D → ¬x <+: D := by
      intro x hx hne hback
      exact hne (hback.eq_of_length_le hx.length_le)
    refine ⟨?_, ?_, ?_⟩
    · rw [hnode, Tree.moved, if_neg (hD hd hdD), if_neg (hD hs hsD)]
      exact h.dir
    · intro q target hq hlink
      rw [hnode, Tree.moved] at hlink
      split_ifs at hlink
      · exact h.stay _ target (hs.trans (List.prefix_append _ _)) hlink
      · exact h.stay q target hq hlink
    · intro q hq
      have hsq : ¬src <+: q := fun hsq => hq (hs.trans hsq)
      have hdq : ¬dst <+: q := fun hdq => hq (hd.trans hdq)
      rw [hnode, Tree.moved, if_neg hdq, if_neg hsq]
      exact h.other q hq

end Fenced

section Calls

variable (F : Fence gone base D t) (h : Fenced gone D t c)

include F h

theorem Fence.mkdir (hp : Below base p) (hd : c.mkdir p = .ok d) : Fenced gone D t d := by
  unfold Tree.mkdir at hd
  split at hd
  · rename_i q hq
    obtain ⟨hdir, hin, -⟩ := F.resolve h hp hq
    exact h.create hdir hin (by simp) hd
  · cases hd

theorem Fence.symlinkTo {target : List Char} (hp : Below base p) (htarget : Homebound D target)
    (hd : c.symlinkTo p target = .ok d) : Fenced gone D t d := by
  unfold Tree.symlinkTo at hd
  split_ifs at hd
  split at hd
  · rename_i q hq
    obtain ⟨hdir, hin, -⟩ := F.resolve h hp hq
    exact h.create hdir hin (by rintro _ ⟨⟩; exact htarget) hd
  · cases hd

theorem Fence.unlink (hp : Below base p) (hd : c.unlink p = .ok d) : Fenced gone D t d := by
  unfold Tree.unlink at hd
  split at hd
  · rename_i q hq
    obtain ⟨-, hin, hne⟩ := F.resolve h hp hq
    split_ifs at hd
    exact h.removeEntry hin (fun he => absurd he (hne rfl)) hd
  · cases hd

theorem Fence.writeFile {content : C} {mode : ℕ} (hp : Below base p)
    (hd : c.writeFile p content mode = .ok d) : Fenced gone D t d := by
  unfold Tree.writeFile at hd
  split at hd
  · cases hd
  · rename_i q hq
    obtain ⟨hdir, hin, -⟩ := F.resolve h hp hq
    split_ifs at hd
    split at hd
    · exact h.create hdir hin (by simp) hd
    · rename_i hnode
      cases hd
      refine h.set (v := some (.file content _)) hin (fun he => ?_) (by simp) fun r => rfl
      rw [he, hdir] at hnode
      cases hnode
    · cases hd

theorem Fence.chmod {mode : ℕ} (hp : Below base p) (hd : c.chmod p mode = .ok d) :
    Fenced gone D t d := by
  unfold Tree.chmod at hd
  split at hd
  · cases hd
  · rename_i q hq
    obtain ⟨hdir, hin, -⟩ := F.resolve h hp hq
    split_ifs at hd
    · cases hd
      exact h
    · split at hd
      · cases hd
      · rename_i content _ hnode
        cases hd
        refine h.set (v := some (.file content mode)) hin (fun he => ?_) (by simp) fun r => rfl
        rw [he, hdir] at hnode
        cases hnode
      · cases hd
        exact h

theorem Fence.rename (hs : Below base src) (hdst : Below base dst)
    (hd : c.rename src dst = .ok d) : Fenced gone D t d := by
  unfold Tree.rename at hd
  split at hd
  · cases hd
  · rename_i s hsrc
    split at hd
    · cases hd
    · rename_i e hdest
      obtain ⟨-, hs', hsD⟩ := F.resolve h hs hsrc
      obtain ⟨-, hd', hdD⟩ := F.resolve h hdst hdest
      exact h.renameResolved hs' (hsD rfl) hd' (hdD rfl) hd

end Calls

theorem Fenced.rename_base (h : Fenced gone D t c) (F : Fence gone D D t) (hs : Below D src) :
    c.rename src D ≠ .ok d := by
  intro hd
  unfold Tree.rename at hd
  split at hd
  · cases hd
  · rename_i s hsrc
    obtain ⟨hdir, hs', hsD⟩ := F.resolve h hs hsrc
    rw [c.resolve_of_node false F.clean (by simp [hdir]) (by simp)] at hd
    dsimp only at hd
    obtain ⟨hnone, ⟨hsame, -⟩ | ⟨-, -, -, hno, -⟩⟩ := c.renameResolved_cases hd
    · exact hsD rfl hsame
    · rw [Tree.hasChild_eq_false] at hno
      obtain ⟨r, rfl⟩ := hs'
      cases r with
      | nil => exact hsD rfl (by simp)
      | cons n r =>
        refine hnone ?_
        by_cases hr : r = []
        · rw [hr]
          exact hno n
        · exact c.eq_none_of_ancestor (q := D ++ [n]) (by simp) (by simpa using Ne.symm hr)
            (by simp [hno n])

section Programs

variable (F : Fence gone base D t)

include F

theorem Fence.keeps_mkdirExistOk (hp : p = base ∨ Below base p) :
    Keeps (Fenced gone D t) (mkdirExistOk p : FileProg C Unit) := by
  unfold mkdirExistOk
  refine Yields.handle (Keeps.step fun c d hc hd => ?_) fun e => ?_
  · rcases hp with rfl | hp
    · exact F.made c d hc hd
    · exact F.mkdir hc hp hd
  refine Keeps.bind (Keeps.read _) fun isDir => ?_
  exact Yields.ite (fun _ => Keeps.pure ()) fun _ => Keeps.raise e

theorem Fence.keeps_mkdirParents (hp : Under base p) :
    Keeps (Fenced gone D t) (mkdirParents p : FileProg C Unit) := by
  obtain ⟨todo, hclean, rfl⟩ := hp
  obtain ⟨up, rfl⟩ : ∃ up : List Name, todo = up.reverse := ⟨todo.reverse, by simp⟩
  rw [mkdirParents, List.reverse_append, List.reverse_reverse]
  induction up with
  | nil =>
    rw [List.nil_append]
    cases hrev : base.reverse with
    | nil =>
      rw [mkdirParentsRev]
      exact F.keeps_mkdirExistOk (Or.inl (List.reverse_eq_nil_iff.mp hrev).symm)
    | cons n up =>
      have hbase : (n :: up).reverse = base := by rw [← hrev, List.reverse_reverse]
      intro c hc
      rw [mkdirParentsRev, wp_handle, hbase]
      refine wp_step (fun d hd => ?_) fun e he => ?_
      · have hd' := F.made c d hc hd
        exact ⟨hd', hd', trivial⟩
      · have hne : e ≠ .enoent := by
          rintro rfl
          exact F.there c hc he
        rw [if_neg hne, wp_bind, wp_read]
        split_ifs
        · exact (wp_pure ()).mpr ⟨hc, trivial⟩
        · exact (wp_raise e).mpr hc
  | cons n up ih =>
    have hrev : (n :: (up ++ base.reverse)).reverse = base ++ (n :: up).reverse := by simp
    have hbelow : Below base (base ++ (n :: up).reverse) := ⟨_, by simp, hclean, rfl⟩
    have hup : Clean up.reverse := hclean.of_ancestor (by simp)
    rw [List.cons_append, mkdirParentsRev, hrev]
    refine Yields.handle (Keeps.step fun c d hc hd => F.mkdir hc hbelow hd) fun e => ?_
    refine Yields.ite (fun _ => ?_) fun _ => ?_
    · exact Keeps.bind (ih hup) fun _ => F.keeps_mkdirExistOk (Or.inr hbelow)
    · refine Keeps.bind (Keeps.read _) fun isDir => ?_
      exact Yields.ite (fun _ => Keeps.pure ()) fun _ => Keeps.raise e

theorem Fence.keeps_unlinkMissingOk (hp : Below base p) :
    Keeps (Fenced gone D t) (unlinkMissingOk p : FileProg C Unit) := by
  unfold unlinkMissingOk
  refine Yields.handle (Keeps.step fun c d hc hd => F.unlink hc hp hd) fun e => ?_
  exact Yields.ite (fun _ => Keeps.pure ()) fun _ => Keeps.raise e

theorem Fence.keeps_rmtree (order : RemovalOrder C)
    (hp : Below base p ∨ gone ∧ ∀ c, Fenced gone D t c → ∀ q, c.resolve false p = .ok q → D <+: q) :
    Keeps (Fenced gone D t) (rmtree order p) := by
  intro c hc
  rw [rmtree, wp_bind, wp_read]
  cases hres : c.resolve false p with
  | error e => exact (wp_raise e).mpr hc
  | ok q =>
    have hq : D <+: q ∧ (q = D → gone) := by
      rcases hp with hp | ⟨hgone, hp⟩
      · obtain ⟨-, hin, hne⟩ := F.resolve hc hp hres
        exact ⟨hin, fun he => absurd he (hne rfl)⟩
      · exact ⟨hp c hc q hres, fun _ => hgone⟩
    obtain ⟨hin, hne⟩ := hq
    dsimp only
    rw [wp_bind, wp_read]
    refine Keeps.forEach (fun r hr => Keeps.step fun d e hd he => ?_) c hc
    have hqr : q <+: r := ((order.mem_list c q r).mp hr).1
    refine hd.removeEntry (hin.trans hqr) (fun hrD => hne ?_) he
    rw [hrD] at hqr
    exact hqr.eq_of_length_le hin.length_le

theorem Fence.keeps_removePath (order : RemovalOrder C) (hp : Below base p) :
    Keeps (Fenced gone D t) (removePath order p) := by
  unfold removePath
  refine Keeps.bind (Keeps.read _) fun isSymlink => Keeps.bind (Keeps.read _) fun isFile => ?_
  refine Yields.ite (fun _ => F.keeps_unlinkMissingOk hp) fun _ => ?_
  refine Keeps.bind (Keeps.read _) fun isDir => ?_
  exact Yields.ite (fun _ => F.keeps_rmtree order (Or.inl hp)) fun _ => Keeps.pure ()

theorem Fence.keeps_rename (hs : Below base src) (hd : Below base dst) :
    Keeps (Fenced gone D t) (Prog.step (·.rename src dst) : FileProg C Unit) :=
  Keeps.step fun _ _ hc he => F.rename hc hs hd he

theorem Fence.keeps_replaceFile {dir : Path} {name temp : Name} {content : C} {mode : ℕ}
    (hdir : Under base dir) (hname : name ≠ ['.', '.']) (htemp : temp ≠ ['.', '.']) :
    Keeps (Fenced gone D t) (replaceFile dir name temp content mode) := by
  have hchild : ∀ {n : Name}, n ≠ ['.', '.'] → Below base (dir ++ [n]) := by
    intro n hn
    refine hdir.below (fun m hm => ?_) (by simp)
    rw [List.mem_singleton.mp hm]
    exact hn
  unfold replaceFile prepareFile
  refine Keeps.bind (Keeps.bind (F.keeps_mkdirParents hdir) fun _ => ?_) fun _ =>
    F.keeps_rename (hchild htemp) (hchild hname)
  refine Keeps.bind (Keeps.step fun c d hc hd => F.writeFile hc (hchild htemp) hd) fun _ => ?_
  exact Keeps.step fun c d hc hd => F.chmod hc (hchild htemp) hd

end Programs

theorem Fenced.resolve_base (h : Fenced gone D t c) (hD : Clean D) (hdir : t.node D = some .dir)
    (hres : c.resolve follow D = .ok q) : q = D := by
  rcases h.dir with hcdir | ⟨-, hnone⟩
  · rw [c.resolve_of_node follow hD (by simp [hcdir]) (by simp [hcdir])] at hres
    exact (Except.ok.inj hres).symm
  · have hlink : NoLinkAbove c D := by
      intro r hr hne target hlink
      have hout : ¬D <+: r := fun hback => hne (hr.eq_of_length_le hback.length_le)
      rw [h.other r hout, t.dir_of_ancestor hr hne (by simp [hdir])] at hlink
      cases hlink
    rcases c.resolve_missing follow hD hlink hnone with he | ⟨e, he⟩
    · rw [hres] at he
      exact Except.ok.inj he
    · rw [hres] at he
      cases he

theorem Fence.keeps_removePath_base (F : Fence True D D t) (hdir : t.node D = some .dir)
    (order : RemovalOrder C) : Keeps (Fenced True D t) (removePath order D) := by
  intro c hc
  have hnotFile : (c.isSymlink D || c.isFile D) = false := by
    have hnode : c.node D = some .dir ∨ c.node D = none := hc.dir.imp id fun h => h.2
    have hlstat : c.lstat D = some .dir ∨ c.lstat D = none := by
      unfold Tree.lstat
      cases hq : c.resolve false D with
      | error e => exact Or.inr rfl
      | ok q =>
        rw [hc.resolve_base F.clean hdir hq]
        exact hnode
    have hstat : c.stat D = some .dir ∨ c.stat D = none := by
      unfold Tree.stat
      cases hq : c.resolve true D with
      | error e => exact Or.inr rfl
      | ok q =>
        rw [hc.resolve_base F.clean hdir hq]
        exact hnode
    unfold Tree.isSymlink Tree.isFile
    rcases hlstat with hlstat | hlstat
    · rcases hstat with hstat | hstat
      · simp [hlstat, hstat]
      · simp [hlstat, hstat]
    · rcases hstat with hstat | hstat
      · simp [hlstat, hstat]
      · simp [hlstat, hstat]
  rw [removePath, wp_bind, wp_read, wp_bind, wp_read, hnotFile, if_neg (by simp), wp_bind, wp_read]
  split_ifs
  · refine F.keeps_rmtree order (Or.inr ⟨trivial, fun c hc q hq => ?_⟩) c hc
    rw [hc.resolve_base F.clean hdir hq]
  · exact (wp_pure ()).mpr ⟨hc, trivial⟩

end PlumosBubble.FileSystem
