import Mathlib.Data.List.Sort
import Mathlib.Data.List.Dedup
import PlumosBubble.Crash.Program
import PlumosBubble.FileSystem.Calls

/-! Multi-step file operations as programs that a power cut can stop: `mkdir -p`,
`rmtree`, removal of whatever a path names, and replacement of a file through a
temporary name. Each has one rule, which says what it leaves at every path when it
returns and after any of its steps. -/

namespace PlumosBubble.FileSystem

open Crash

variable {C : Type*}

abbrev FileProg (C : Type*) (α : Type) := Prog (Tree C) Errno α

/-! ### Directories on the way to a path -/

/-- `Path.mkdir(exist_ok=True)`. -/
def mkdirExistOk (p : Path) : FileProg C Unit :=
  (Prog.step (·.mkdir p)).handle fun e => do
    let isDir ← Prog.read (·.isDir p)
    if e ≠ .enoent ∧ isDir then pure () else Prog.raise e

/-- `Path.mkdir(parents=True, exist_ok=True)` on reversed components. -/
def mkdirParentsRev : List Name → FileProg C Unit
  | [] => mkdirExistOk []
  | n :: up => (Prog.step (·.mkdir (n :: up).reverse)).handle fun e =>
    if e = .enoent then do
      mkdirParentsRev up
      mkdirExistOk (n :: up).reverse
    else do
      let isDir ← Prog.read (·.isDir (n :: up).reverse)
      if isDir then pure () else Prog.raise e

def mkdirParents (p : Path) : FileProg C Unit := mkdirParentsRev p.reverse

/-- `c` is `t` with missing directories on the way to `p` made. -/
def MadeDirs (p : Path) (t c : Tree C) : Prop :=
  ∀ q, c.node q = t.node q ∨ q <+: p ∧ t.node q = none ∧ c.node q = some .dir

/-- Every path on the way to `p` is a directory or missing. -/
def OpenWay (t : Tree C) (p : Path) : Prop :=
  ∀ q, q <+: p → t.node q = some .dir ∨ t.node q = none

theorem MadeDirs.refl (p : Path) (t : Tree C) : MadeDirs p t t := fun _ => Or.inl rfl

theorem MadeDirs.mono {p r : Path} {t c : Tree C} (h : MadeDirs p t c) (hp : p <+: r) :
    MadeDirs r t c := by
  intro q
  rcases h q with h | ⟨h, h'⟩
  · exact Or.inl h
  · exact Or.inr ⟨h.trans hp, h'⟩

theorem MadeDirs.dir {p q : Path} {t c : Tree C} (h : MadeDirs p t c)
    (hq : t.node q = some .dir) : c.node q = some .dir := by
  rcases h q with h | ⟨-, h, -⟩
  · rw [h, hq]
  · simp [hq] at h

theorem MadeDirs.of_ne_none {p q : Path} {t c : Tree C} (h : MadeDirs p t c)
    (hq : t.node q ≠ none) : c.node q = t.node q := by
  rcases h q with h | ⟨-, h, -⟩
  · exact h
  · exact absurd h hq

theorem MadeDirs.of_not_ancestor {p q : Path} {t c : Tree C} (h : MadeDirs p t c)
    (hq : ¬ q <+: p) : c.node q = t.node q := by
  rcases h q with h | ⟨h, -⟩
  · exact h
  · exact absurd h hq

theorem OpenWay.of_dir {t : Tree C} {p : Path} (h : t.node p = some .dir) : OpenWay t p := by
  intro q hq
  by_cases hqp : q = p
  · exact Or.inl (hqp ▸ h)
  · exact Or.inl (t.dir_of_ancestor hq hqp (by simp [h]))

theorem OpenWay.of_ancestor {t : Tree C} {p r : Path} (h : OpenWay t p) (hr : r <+: p) :
    OpenWay t r :=
  fun q hq => h q (hq.trans hr)

theorem OpenWay.noLinkAbove {t : Tree C} {p : Path} (h : OpenWay t p.dropLast) :
    NoLinkAbove t p := by
  intro q hq hne target hs
  have hq' : q <+: p.dropLast := prefix_dropLast hq hne
  cases h q hq' with
  | inl h => simp [h] at hs
  | inr h => simp [h] at hs

theorem wp_mkdirExistOk_dir {p : Path} {t : Tree C} {Q : Unit → Tree C → Prop}
    {E : Errno → Tree C → Prop} {D : Tree C → Prop} (hc : Clean p) (h : t.node p = some .dir)
    (hQ : Q () t) : wp (mkdirExistOk p) Q E D t := by
  rw [mkdirExistOk, wp_handle]
  refine wp_step (fun t' ht' => ?_) (fun e he => ?_)
  · rw [t.mkdir_exists hc (by simp [h])] at ht'; cases ht'
  · rw [t.mkdir_exists hc (by simp [h])] at he
    cases he
    rw [wp_bind, wp_read, t.isDir_of_node hc h, if_pos (by simp), wp_pure]
    exact hQ

theorem wp_mkdirParents {p : Path} {t : Tree C} (hc : Clean p) (hw : OpenWay t p) :
    wp (mkdirParents p) (fun _ c => c.node p = some .dir ∧ MadeDirs p t c) (fun _ _ => False)
      (MadeDirs p t) t := by
  obtain ⟨r, rfl⟩ : ∃ r : List Name, p = r.reverse := ⟨p.reverse, by simp⟩
  rw [mkdirParents, List.reverse_reverse]
  induction r with
  | nil => exact wp_mkdirExistOk_dir hc t.root_dir ⟨t.root_dir, .refl _ _⟩
  | cons n up ih =>
    have hpre : up.reverse <+: (n :: up).reverse := by simp
    rw [mkdirParentsRev, wp_handle]
    by_cases hp : t.node (n :: up).reverse = none
    · by_cases hup : t.node up.reverse = some .dir
      · obtain ⟨t', ht', hq⟩ := t.mkdir_ok hc hp (by simpa using hup)
        have hm : MadeDirs (n :: up).reverse t t' := by
          intro q
          by_cases h : q = (n :: up).reverse
          · exact Or.inr ⟨by simp [h], by rw [h]; exact hp, by rw [hq, if_pos h]⟩
          · exact Or.inl (by rw [hq, if_neg h])
        rw [wp_step_ok ht']
        exact ⟨hm, by rw [hq, if_pos rfl], hm⟩
      · have hfail : t.mkdir (n :: up).reverse = .error .enoent := by
          have hl : NoLinkAbove t (n :: up).reverse := by
            intro q hq _ target hs
            rcases hw q hq with h | h <;> simp [h] at hs
          rcases t.resolve_failed false hc hl (by simpa using hup) with
            ⟨he, -⟩ | ⟨-, q, hq, -, h1, h2⟩
          · rw [Tree.mkdir, he]
          · rcases hw q hq with h | h
            · exact absurd h h1
            · exact absurd h h2
        rw [wp_step_error hfail, if_pos rfl, wp_bind]
        refine wp_mono (ih (hc.of_ancestor hpre) (fun q hq => hw q (hq.trans hpre))) ?_
          (fun _ _ h => h) (fun c h => h.mono hpre)
        rintro - c ⟨hd, hm⟩
        have hpc : c.node (n :: up).reverse = none := by
          rw [hm.of_not_ancestor (by simpa using not_prefix_child up.reverse n)]
          exact hp
        obtain ⟨t', ht', hq⟩ := c.mkdir_ok hc hpc (by simpa using hd)
        have hm' : MadeDirs (n :: up).reverse t t' := by
          intro q
          rw [hq]
          by_cases h : q = (n :: up).reverse
          · exact Or.inr ⟨by simp [h], by rw [h]; exact hp, by rw [if_pos h]⟩
          · rw [if_neg h]; exact hm.mono hpre q
        rw [mkdirExistOk, wp_handle, wp_step_ok ht']
        exact ⟨hm', by rw [hq, if_pos rfl], hm'⟩
    · have hd : t.node (n :: up).reverse = some .dir := (hw _ List.prefix_rfl).resolve_right hp
      rw [wp_step_error (t.mkdir_exists hc hp), if_neg (by simp)]
      rw [wp_bind, wp_read, t.isDir_of_node hc hd, if_pos rfl, wp_pure]
      exact ⟨hd, .refl _ _⟩

theorem wp_mkdirParents_dir {p : Path} {t : Tree C} {Q : Unit → Tree C → Prop}
    {E : Errno → Tree C → Prop} {D : Tree C → Prop} (hc : Clean p) (h : t.node p = some .dir)
    (hQ : Q () t) : wp (mkdirParents p) Q E D t := by
  rw [mkdirParents]
  cases hr : p.reverse with
  | nil =>
    have hp : p = [] := List.reverse_eq_nil_iff.mp hr
    exact wp_mkdirExistOk_dir (by simp [Clean]) t.root_dir hQ
  | cons n up =>
    have hrev : (n :: up).reverse = p := by rw [← hr, List.reverse_reverse]
    rw [mkdirParentsRev, wp_handle, hrev, wp_step_error (t.mkdir_exists hc (by simp [h])),
      if_neg (by simp), wp_bind, wp_read, t.isDir_of_node hc h, if_pos rfl, wp_pure]
    exact hQ

/-- Without links on the way `mkdir -p` makes the missing directories, or meets a file
and changes nothing. -/
theorem wp_mkdirParents_cases {p : Path} {t : Tree C} (hc : Clean p) (hl : NoLinkAbove t p)
    (hp : ∀ target, t.node p ≠ some (.symlink target)) :
    wp (mkdirParents p) (fun _ c => c.node p = some .dir ∧ MadeDirs p t c) (fun _ c => c = t)
      (MadeDirs p t) t := by
  by_cases hw : OpenWay t p
  · exact wp_mono (wp_mkdirParents hc hw) (fun _ _ h => h) (fun _ _ h => h.elim) (fun _ h => h)
  obtain ⟨q, hq, hnd, hnn⟩ : ∃ q, q <+: p ∧ t.node q ≠ some .dir ∧ t.node q ≠ none := by
    simpa [OpenWay] using hw
  have hpd : t.node p ≠ some .dir := fun h => by
    by_cases hqp : q = p
    · exact hnd (hqp ▸ h)
    · exact hnd (t.dir_of_ancestor hq hqp (by simp [h]))
  have hstat : t.isDir p = false := by
    rcases hv : t.node p with _ | ⟨c, m⟩ | target | _
    · simp [Tree.isDir, t.stat_of_none hc hl hv]
    · simp [Tree.isDir, t.stat_of_node hc hv]
    · exact absurd hv (hp target)
    · exact absurd hv hpd
  obtain ⟨e, he, hne⟩ : ∃ e, t.mkdir p = .error e ∧ e ≠ .enoent := by
    by_cases hpn : t.node p = none
    · have hqp : q ≠ p := by rintro rfl; exact hnn hpn
      have hpar : t.node p.dropLast ≠ some .dir := fun h => by
        have : q <+: p.dropLast := prefix_dropLast hq hqp
        by_cases hql : q = p.dropLast
        · exact hnd (hql ▸ h)
        · exact hnd (t.dir_of_ancestor this hql (by simp [h]))
      rcases t.resolve_failed false hc hl hpar with ⟨-, h⟩ | ⟨h, -⟩
      · rcases h q hq hqp with h | h
        · exact absurd h hnd
        · exact absurd h hnn
      · exact ⟨.enotdir, by rw [Tree.mkdir, h], by simp⟩
    · exact ⟨.eexist, t.mkdir_exists hc hpn, by simp⟩
  rw [mkdirParents]
  rcases hr : p.reverse with _ | ⟨n, up⟩
  · rw [List.reverse_eq_nil_iff.mp hr] at hpd
    exact absurd t.root_dir hpd
  · have hrev : (n :: up).reverse = p := by rw [← hr, List.reverse_reverse]
    rw [mkdirParentsRev, wp_handle, hrev, wp_step_error he, if_neg hne]
    simp [wp_bind, hstat]

/-! ### Removal -/

/-- An order in which `rmtree` can remove the subtree at a path: everything that exists
there once, nothing before what lies below it. -/
structure RemovalOrder (C : Type*) where
  list : Tree C → Path → List Path
  mem_list : ∀ t p q, q ∈ list t p ↔ p <+: q ∧ t.node q ≠ none
  children_first : ∀ t p, (list t p).Pairwise fun a b => ¬ a <+: b

/-- The deepest entries first. -/
def RemovalOrder.deepestFirst (C : Type*) : RemovalOrder C where
  list t p := (t.support.dedup.filter fun q => p <+: q ∧ (t.node q).isSome).insertionSort
    fun a b => b.length ≤ a.length
  mem_list t p q := by
    simp only [List.mem_insertionSort, List.mem_filter, List.mem_dedup, decide_eq_true_eq,
      Option.isSome_iff_ne_none]
    exact ⟨fun h => h.2, fun h => ⟨t.mem_support q h.2, h⟩⟩
  children_first t p := by
    have hnodup := (List.perm_insertionSort (fun a b : Path => b.length ≤ a.length)
      (t.support.dedup.filter fun q => p <+: q ∧ (t.node q).isSome)).nodup_iff.mpr
        (t.support.nodup_dedup.filter _)
    have hsorted := List.pairwise_insertionSort (fun a b : Path => b.length ≤ a.length)
      (t.support.dedup.filter fun q => p <+: q ∧ (t.node q).isSome)
    refine (hsorted.and hnodup).imp ?_
    intro a b hab hp
    exact hab.2 (hp.eq_of_length_le hab.1)

/-- `shutil.rmtree`. -/
def rmtree (order : RemovalOrder C) (p : Path) : FileProg C Unit := do
  let root ← Prog.read (·.resolve false p)
  match root with
  | .error e => Prog.raise e
  | .ok q => do
    let entries ← Prog.read (order.list · q)
    Prog.forEach (fun r => Prog.step (·.removeEntry r)) entries

/-- `Path.unlink(missing_ok=True)`. -/
def unlinkMissingOk (p : Path) : FileProg C Unit :=
  (Prog.step (·.unlink p)).handle fun e => if e = .enoent then pure () else Prog.raise e

/-- `c` is `t` with some of the subtree at `p` gone. -/
def Pruned (p : Path) (t c : Tree C) : Prop :=
  ∀ q, c.node q = t.node q ∨ p <+: q ∧ c.node q = none

/-- `c` is `t` without the subtree at `p`. -/
def Removed (p : Path) (t c : Tree C) : Prop :=
  ∀ q, c.node q = if p <+: q then none else t.node q

theorem Removed.pruned {p : Path} {t c : Tree C} (h : Removed p t c) : Pruned p t c := by
  intro q
  by_cases hq : p <+: q
  · exact Or.inr ⟨hq, by rw [h, if_pos hq]⟩
  · exact Or.inl (by rw [h, if_neg hq])

theorem removed_self {p : Path} {t : Tree C} (h : t.node p = none) : Removed p t t := by
  intro q
  split_ifs with hq
  · by_cases hqp : p = q
    · rw [← hqp, h]
    · exact t.eq_none_of_ancestor hq hqp (by simp [h])
  · rfl

theorem wp_rmtree (order : RemovalOrder C) {p : Path} {t : Tree C} (hc : Clean p) (hp : p ≠ [])
    (hd : t.node p = some .dir) :
    wp (rmtree order p) (fun _ c => Removed p t c) (fun _ _ => False) (Pruned p t) t := by
  rw [rmtree, wp_bind, wp_read, t.resolve_of_node false hc (by simp [hd]) (by simp)]
  dsimp only
  rw [wp_bind, wp_read]
  have hpair := order.children_first t p
  -- what is already removed is a prefix of the order
  refine wp_forEach (fun rest c => ∃ gone, order.list t p = gone ++ rest ∧
    ∀ q, c.node q = if q ∈ gone then none else t.node q) ?_ ?_ _ ⟨[], rfl, by simp⟩
  · rintro r rest c ⟨gone, hl, hg⟩
    rw [hl] at hpair
    have hmem : ∀ q, q ∈ gone ++ r :: rest ↔ p <+: q ∧ t.node q ≠ none := by
      intro q; rw [← hl]; exact order.mem_list t p q
    obtain ⟨hpr, hr⟩ := (hmem r).mp (by simp)
    have hrg : r ∉ gone := fun h =>
      (List.pairwise_append.mp hpair).2.2 r h r (by simp) List.prefix_rfl
    have hrest := (List.pairwise_cons.mp (List.pairwise_append.mp hpair).2.1).1
    have hchild : ∀ n, c.node (r ++ [n]) = none := by
      intro n
      rw [hg]
      by_cases hn : t.node (r ++ [n]) = none
      · simp [hn]
      · have := (hmem (r ++ [n])).mpr ⟨hpr.trans (List.prefix_append _ _), hn⟩
        rcases List.mem_append.mp this with h | h
        · simp [h]
        · rcases List.mem_cons.mp h with h | h
          · simp at h
          · exact absurd (List.prefix_append _ _) (hrest _ h)
    have hrn : r ≠ [] := by
      rintro rfl
      exact hp (List.prefix_nil.mp hpr)
    obtain ⟨c', hc', hq⟩ := c.removeEntry_ok hrn (by rw [hg, if_neg hrg]; exact hr) hchild
    have hg' : ∀ q, c'.node q = if q ∈ gone ++ [r] then none else t.node q := by
      intro q
      rw [hq, hg]
      by_cases h1 : q = r <;> by_cases h2 : q ∈ gone <;> simp [h1, h2]
    rw [wp_step_ok hc']
    refine ⟨fun q => ?_, gone ++ [r], by simpa using hl, hg'⟩
    rw [hg']
    by_cases h : q ∈ gone ++ [r]
    · refine Or.inr ⟨((hmem q).mp ?_).1, if_pos h⟩
      rcases List.mem_append.mp h with h | h
      · exact List.mem_append_left _ h
      · exact List.mem_append_right _ (by simp at h; simp [h])
    · exact Or.inl (if_neg h)
  · rintro c ⟨gone, hl, hg⟩ q
    rw [List.append_nil] at hl
    have hmem := order.mem_list t p q
    rw [hl] at hmem
    rw [hg]
    by_cases h : q ∈ gone
    · rw [if_pos h, if_pos (hmem.mp h).1]
    · rw [if_neg h]
      split_ifs with hq
      · by_contra hn
        exact h (hmem.mpr ⟨hq, hn⟩)
      · rfl

theorem wp_unlinkMissingOk {p : Path} {t : Tree C} (hc : Clean p)
    (hd : t.node p ≠ some .dir) (hpar : OpenWay t p.dropLast) :
    wp (unlinkMissingOk p) (fun _ c => Removed p t c) (fun _ _ => False) (Removed p t) t := by
  rw [unlinkMissingOk, wp_handle]
  by_cases hn : t.node p = none
  · have hp : p ≠ [] := t.ne_nil_of_none hn
    have he : t.unlink p = .error .enoent := by
      by_cases hpd : t.node p.dropLast = some .dir
      · rw [Tree.unlink, t.resolve_eq false hc hpd (by simp)]
        simp [Tree.removeEntry, hp, hn]
      · cases t.resolve_failed false hc hpar.noLinkAbove hpd with
        | inl h => rw [Tree.unlink, h.1]
        | inr h =>
          obtain ⟨-, q, hq, hqp, h1, h2⟩ := h
          have hq' : q <+: p.dropLast := prefix_dropLast hq hqp
          cases hpar q hq' with
          | inl h => exact absurd h h1
          | inr h => exact absurd h h2
    rw [wp_step_error he]
    simpa using removed_self hn
  · obtain ⟨t', ht', hq⟩ := t.unlink_ok hc hn hd
    have hr : Removed p t t' := by
      intro q
      rw [hq]
      by_cases h : q = p
      · simp [h]
      · rw [if_neg h]
        split_ifs with hpq
        · exact t.eq_none_of_ancestor hpq (fun hc => h hc.symm) hd
        · rfl
    rw [wp_step_ok ht']
    exact ⟨hr, hr⟩

/-- The updater's `remove_path`. -/
def removePath (order : RemovalOrder C) (p : Path) : FileProg C Unit := do
  let isSymlink ← Prog.read (·.isSymlink p)
  let isFile ← Prog.read (·.isFile p)
  if isSymlink || isFile then unlinkMissingOk p
  else do
    let isDir ← Prog.read (·.isDir p)
    if isDir then rmtree order p else pure ()

theorem wp_removePath (order : RemovalOrder C) {p : Path} {t : Tree C} (hc : Clean p)
    (hl : NoLinkAbove t p) (hp : p ≠ []) :
    wp (removePath order p) (fun _ c => Removed p t c) (fun _ _ => False) (Pruned p t) t := by
  rw [removePath, wp_bind, wp_read, wp_bind, wp_read, Bool.or_comm]
  by_cases hf : (t.isFile p || t.isSymlink p) = true
  · obtain ⟨hn, hd⟩ := (t.isFile_or_isSymlink hc hl).mp hf
    rw [if_pos hf]
    exact wp_mono (wp_unlinkMissingOk hc hd (.of_dir (t.parent_dir' hn))) (fun _ _ h => h) (fun _ _ h => h)
      (fun _ h => h.pruned)
  · rw [if_neg hf, wp_bind, wp_read]
    have hnd := mt (t.isFile_or_isSymlink hc hl).mpr hf
    by_cases hn : t.node p = none
    · simp only [Tree.isDir, t.stat_of_none hc hl hn]
      simpa using removed_self hn
    · have hd : t.node p = some .dir := by
        by_contra hd
        exact hnd ⟨hn, hd⟩
      simp only [Tree.isDir, t.stat_of_node hc hd (by simp)]
      exact wp_rmtree order hc hp hd

/-! ### Replacement through a temporary file -/

/-- Write `dir/temp`. -/
def prepareFile (dir : Path) (temp : Name) (content : C) (mode : ℕ) : FileProg C Unit := do
  mkdirParents dir
  Prog.step (·.writeFile (dir ++ [temp]) content mode)
  Prog.step (·.chmod (dir ++ [temp]) mode)

/-- Write `dir/temp`, then rename it to `dir/name`. -/
def replaceFile (dir : Path) (name temp : Name) (content : C) (mode : ℕ) : FileProg C Unit := do
  prepareFile dir temp content mode
  Prog.step (·.rename (dir ++ [temp]) (dir ++ [name]))

/-- The file at `dir/name` has the content and everything else but the temporary file and
missing directories on the way is as it was. -/
def Replaced (dir : Path) (name temp : Name) (content : C) (mode : ℕ) (t c : Tree C) : Prop :=
  c.node dir = some .dir ∧ c.node (dir ++ [name]) = some (.file content mode) ∧
    c.node (dir ++ [temp]) = none ∧
    ∀ q, q ≠ dir ++ [name] → q ≠ dir ++ [temp] →
      c.node q = t.node q ∨ q <+: dir ∧ t.node q = none ∧ c.node q = some .dir

/-- Everything but the temporary file and missing directories on the way is as it was. -/
def Preparing (dir : Path) (temp : Name) (t c : Tree C) : Prop :=
  (∀ q, q ≠ dir ++ [temp] →
    c.node q = t.node q ∨ q <+: dir ∧ t.node q = none ∧ c.node q = some .dir) ∧
    c.node (dir ++ [temp]) ≠ some .dir ∧
    ∀ target, c.node (dir ++ [temp]) ≠ some (.symlink target)

section ReplaceFile

variable {dir : Path} {name temp : Name} {content : C} {mode : ℕ} {t : Tree C}

theorem wp_prepareFile (ht : Clean (dir ++ [temp])) (hw : OpenWay t dir)
    (htd : t.node (dir ++ [temp]) ≠ some .dir)
    (htl : ∀ target, t.node (dir ++ [temp]) ≠ some (.symlink target)) :
    wp (prepareFile dir temp content mode)
      (fun _ c => Preparing dir temp t c ∧ c.node dir = some .dir ∧
        c.node (dir ++ [temp]) = some (.file content mode))
      (fun _ _ => False) (Preparing dir temp t) t := by
  have hdir : Clean dir := ht.of_ancestor (List.prefix_append _ _)
  have hnp := not_prefix_child dir
  rw [prepareFile, wp_bind]
  refine wp_mono (wp_mkdirParents hdir hw) ?_ (fun _ _ h => h) (fun c hm => ⟨fun q _ => hm q, ?_⟩)
  · rintro - c ⟨hcd, hm⟩
    have hct : c.node (dir ++ [temp]) = t.node (dir ++ [temp]) := hm.of_not_ancestor (hnp temp)
    obtain ⟨c1, hc1, m, hq1⟩ : ∃ c1, c.writeFile (dir ++ [temp]) content mode = .ok c1 ∧ ∃ m,
        ∀ q, c1.node q = if q = dir ++ [temp] then some (.file content m) else c.node q := by
      rcases hv : c.node (dir ++ [temp]) with _ | ⟨c', m⟩ | target | _
      · obtain ⟨c1, h1, h2⟩ := c.writeFile_new content mode ht hv (by simpa using hcd)
        exact ⟨c1, h1, mode, h2⟩
      · obtain ⟨c1, h1, h2⟩ := c.writeFile_file content mode ht hv
        exact ⟨c1, h1, m, h2⟩
      · exact absurd (hct ▸ hv) (htl target)
      · exact absurd (hct ▸ hv) htd
    have prep : ∀ (d : Tree C) m', (∀ q, d.node q =
        if q = dir ++ [temp] then some (.file content m') else c.node q) → Preparing dir temp t d := by
      intro d m' hd
      refine ⟨fun q hq => ?_, by simp [hd], by simp [hd]⟩
      rw [hd, if_neg hq]
      exact hm q
    rw [wp_bind, wp_step_ok hc1]
    refine ⟨prep c1 m hq1, ?_⟩
    obtain ⟨c2, hc2, hq2⟩ := c1.chmod_file mode ht (by rw [hq1, if_pos rfl])
    have hq2' : ∀ q, c2.node q = if q = dir ++ [temp] then some (.file content mode) else c.node q := by
      intro q
      rw [hq2]
      split_ifs with h
      · rfl
      · rw [hq1, if_neg h]
    rw [wp_step_ok hc2]
    refine ⟨prep c2 mode hq2', prep c2 mode hq2', ?_, ?_⟩
    · rw [hq2', if_neg (by simp)]
      exact hcd
    · rw [hq2', if_pos rfl]
  · rw [hm.of_not_ancestor (hnp temp)]
    exact ⟨htd, htl⟩

theorem wp_replaceFile (hn : Clean (dir ++ [name])) (ht : Clean (dir ++ [temp])) (hne : temp ≠ name)
    (hw : OpenWay t dir) (hname : t.node (dir ++ [name]) ≠ some .dir)
    (htd : t.node (dir ++ [temp]) ≠ some .dir)
    (htl : ∀ target, t.node (dir ++ [temp]) ≠ some (.symlink target)) :
    wp (replaceFile dir name temp content mode) (fun _ c => Replaced dir name temp content mode t c)
      (fun _ _ => False)
      (fun c => Preparing dir temp t c ∨ Replaced dir name temp content mode t c ∧
        Returns (replaceFile dir name temp content mode) t () c) t := by
  have hnt : dir ++ [name] ≠ dir ++ [temp] := by simpa using Ne.symm hne
  have hnp := not_prefix_child dir
  refine wp_last_step (wp_prepareFile ht hw htd htl) ?_
  rintro - c ⟨hp, hcd, hct⟩
  have hcn : c.node (dir ++ [name]) = t.node (dir ++ [name]) :=
    (hp.1 _ hnt).resolve_right fun h => hnp name h.1
  obtain ⟨c', hc', hq⟩ := c.rename_ok ht hn (by simp [hct]) (by simp [hct])
    (by rw [hcn]; exact hname) (by simpa using hcd) hnt.symm
  refine ⟨c', hc', ?_, ?_, ?_, ?_⟩
  · rw [hq, if_neg (by simp), if_neg (by simp)]
    exact hcd
  · rw [hq, if_pos rfl, hct]
  · rw [hq, if_neg hnt.symm, if_pos rfl]
  · intro q h1 h2
    rw [hq, if_neg h1, if_neg h2]
    exact hp.1 q h2

end ReplaceFile

end PlumosBubble.FileSystem
