import Mathlib.Data.List.Infix
import Mathlib.Data.List.DropRight
import Mathlib.Logic.Function.Basic

/-! Directory trees with symbolic links. A path is the list of its component
names from the file system root; a tree gives every path at most one node. Two
facts are part of every tree: the root is a directory, and whatever exists lies
in a directory. `support` lists the paths that may exist, so that a directory can
be read. -/

namespace PlumosBubble.FileSystem

abbrev Name := List Char

abbrev Path := List Name

inductive Node (C : Type*) where
  | file (content : C) (mode : ℕ)
  | symlink (target : List Char)
  | dir
  deriving DecidableEq

instance {C : Type*} (v : Option (Node C)) : Decidable (v = some .dir) :=
  match v with
  | none => isFalse (by simp)
  | some (.file _ _) => isFalse (by simp)
  | some (.symlink _) => isFalse (by simp)
  | some .dir => isTrue rfl

structure Tree (C : Type*) where
  node : Path → Option (Node C)
  support : List Path
  mem_support : ∀ p, node p ≠ none → p ∈ support
  root_dir : node [] = some .dir
  parent_dir : ∀ p n, node (p ++ [n]) ≠ none → node p = some .dir

/-- A proper ancestor of `p` is on the way to its parent. -/
theorem prefix_dropLast {q p : Path} (hq : q <+: p) (hne : q ≠ p) : q <+: p.dropLast := by
  cases List.eq_nil_or_concat p with
  | inl hp => exact absurd (hp ▸ hq) (by simpa [hp] using hne)
  | inr hp =>
    obtain ⟨L, n, rfl⟩ := hp
    simpa using (List.prefix_concat_iff.mp (by simpa using hq)).resolve_left (by simpa using hne)

theorem not_prefix_child (dir : Path) (n : Name) : ¬ dir ++ [n] <+: dir := fun h =>
  absurd h.length_le (by simp)

theorem dropLast_ne {p : Path} (h : p ≠ []) : p.dropLast ≠ p := fun he => by
  have hlen := congrArg List.length he
  have := List.length_pos_iff.mpr h
  rw [List.length_dropLast] at hlen
  omega

namespace Tree

variable {C : Type*}

/-- The tree of an empty file system. -/
def empty : Tree C where
  node p := if p = [] then some .dir else none
  support := [[]]
  mem_support p h := by simp_all
  root_dir := by simp
  parent_dir p n h := by simp at h

theorem dir_of_child (t : Tree C) {p r : Path} (hr : r ≠ []) (h : t.node (p ++ r) ≠ none) :
    t.node p = some .dir := by
  induction r using List.reverseRecOn with
  | nil => exact absurd rfl hr
  | append_singleton r n ih =>
    rw [← List.append_assoc] at h
    have hp := t.parent_dir _ _ h
    by_cases hr' : r = []
    · simpa [hr'] using hp
    · exact ih hr' (by simp [hp])

theorem dir_of_ancestor (t : Tree C) {q p : Path} (hq : q <+: p) (hne : q ≠ p)
    (h : t.node p ≠ none) : t.node q = some .dir := by
  obtain ⟨r, rfl⟩ := hq
  exact t.dir_of_child (by rintro rfl; simp at hne) h

theorem eq_none_of_ancestor (t : Tree C) {q p : Path} (hq : q <+: p) (hne : q ≠ p)
    (h : t.node q ≠ some .dir) : t.node p = none := by
  by_contra hp
  exact h (t.dir_of_ancestor hq hne hp)

/-- Some path directly below `p` exists. -/
def hasChild (t : Tree C) (p : Path) : Bool :=
  t.support.any fun q => (q ≠ [] ∧ q.dropLast = p : Bool) && (t.node q).isSome

theorem hasChild_eq_false {t : Tree C} {p : Path} :
    t.hasChild p = false ↔ ∀ n, t.node (p ++ [n]) = none := by
  constructor
  · intro h n
    by_contra hn
    have := List.any_eq_false.mp h _ (t.mem_support _ hn)
    simp [Option.isSome_iff_ne_none, hn] at this
  · intro h
    refine List.any_eq_false.mpr fun q _ => ?_
    rcases List.eq_nil_or_concat q with rfl | ⟨L, n, rfl⟩
    · simp
    · by_cases hL : L = p
      · subst hL; simp [h n]
      · simp [hL]

theorem hasChild_of_ne_dir (t : Tree C) {p : Path} (h : t.node p ≠ some .dir) :
    t.hasChild p = false := by
  rw [hasChild_eq_false]
  intro n
  exact t.eq_none_of_ancestor (List.prefix_append p [n]) (by simp) h

/-- Put `v` at `p`. The parent of a new node is a directory, and only a directory
may have children. -/
def update (t : Tree C) (p : Path) (v : Option (Node C)) (hp : p ≠ [])
    (hparent : v ≠ none → t.node p.dropLast = some .dir)
    (hchild : v = some .dir ∨ t.hasChild p = false) : Tree C where
  node q := if q = p then v else t.node q
  support := p :: t.support
  mem_support q h := by
    by_cases hq : q = p
    · simp [hq]
    · simp only [hq, if_false] at h
      exact List.mem_cons_of_mem _ (t.mem_support q h)
  root_dir := by rw [if_neg (Ne.symm hp)]; exact t.root_dir
  parent_dir q n h := by
    by_cases hn : q ++ [n] = p
    · subst hn
      have hv : v ≠ none := by simpa using h
      rw [if_neg (by simp)]
      simpa using hparent hv
    · rw [if_neg hn] at h
      by_cases hq : q = p
      · subst hq
        rcases hchild with rfl | hc
        · simp
        · exact absurd (hasChild_eq_false.mp hc n) h
      · rw [if_neg hq]
        exact t.parent_dir q n h

@[simp] theorem update_node (t : Tree C) (p : Path) (v : Option (Node C)) (hp hparent hchild)
    (q : Path) : (t.update p v hp hparent hchild).node q = if q = p then v else t.node q := rfl

/-- The node a subtree move leaves at `q`. -/
def moved (t : Tree C) (src dst q : Path) : Option (Node C) :=
  if dst <+: q then t.node (src ++ q.drop dst.length)
  else if src <+: q then none
  else t.node q

/-- Move the subtree at `src` to `dst`, which is not below it. -/
def move (t : Tree C) (src dst : Path) (hsrc : src ≠ []) (hdst : dst ≠ []) (hsd : ¬ src <+: dst)
    (hparent : t.node dst.dropLast = some .dir) : Tree C where
  node := t.moved src dst
  support := t.support.filter (¬ src <+: ·) ++
    (t.support.filter (src <+: ·)).map fun q => dst ++ q.drop src.length
  mem_support q h := by
    unfold moved at h
    split_ifs at h with h1 h2
    · obtain ⟨r, rfl⟩ := h1
      refine List.mem_append_right _ (List.mem_map.mpr ⟨src ++ r, ?_, by simp⟩)
      exact List.mem_filter.mpr ⟨t.mem_support _ (by simpa using h), by simp⟩
    · exact absurd rfl h
    · exact List.mem_append_left _ (List.mem_filter.mpr ⟨t.mem_support q h, by simpa using h2⟩)
  root_dir := by
    have h1 : ¬ dst <+: [] := by simpa using hdst
    have h2 : ¬ src <+: [] := by simpa using hsrc
    simp only [moved, h1, h2, if_false]
    exact t.root_dir
  parent_dir q n h := by
    unfold moved at h ⊢
    by_cases h1 : dst <+: q ++ [n]
    · rw [if_pos h1] at h
      rcases List.prefix_concat_iff.mp h1 with h1 | h1
      · have hq : dst.dropLast = q := by simp [h1]
        have h2 : ¬ dst <+: q := h1 ▸ not_prefix_child q n
        have h3 : ¬ src <+: q := fun hc => hsd (hc.trans (by simp [h1]))
        rw [if_neg h2, if_neg h3, ← hq]
        exact hparent
      · rw [if_pos h1]
        rw [List.drop_append_of_le_length h1.length_le, ← List.append_assoc] at h
        exact t.parent_dir _ n h
    · rw [if_neg h1] at h
      by_cases h2 : src <+: q ++ [n]
      · rw [if_pos h2] at h
        exact absurd rfl h
      · rw [if_neg h2] at h
        have h3 : ¬ dst <+: q := fun hc => h1 (hc.trans (List.prefix_append _ _))
        have h4 : ¬ src <+: q := fun hc => h2 (hc.trans (List.prefix_append _ _))
        rw [if_neg h3, if_neg h4]
        exact t.parent_dir q n h

@[simp] theorem move_node (t : Tree C) (src dst : Path) (h1 h2 h3 h4) (q : Path) :
    (t.move src dst h1 h2 h3 h4).node q = t.moved src dst q := rfl

theorem moved_of_ne_dir (t : Tree C) {src dst : Path} (h : t.node src ≠ some .dir) (q : Path)
    (hd : t.node dst ≠ some .dir) :
    t.moved src dst q = if q = dst then t.node src else if q = src then none else t.node q := by
  unfold moved
  by_cases h1 : q = dst
  · subst h1; simp
  rw [if_neg h1]
  split_ifs with h2 h3 h4 h5
  · obtain ⟨r, rfl⟩ := h2
    have hr : r ≠ [] := by rintro rfl; simp at h1
    simpa using t.eq_none_of_ancestor (List.prefix_append src r) (by simpa using hr) h
  · obtain ⟨r, rfl⟩ := h2
    have hr : r ≠ [] := by rintro rfl; simp at h1
    rw [t.eq_none_of_ancestor (List.prefix_append dst r) (by simpa using hr) hd]
    simpa using t.eq_none_of_ancestor (List.prefix_append src r) (by simpa using hr) h
  · rfl
  · exact (t.eq_none_of_ancestor h4 (fun hc => h5 hc.symm) h).symm
  · rename_i h5; exact absurd (h5 ▸ List.prefix_rfl) h4
  · rfl

end Tree

end PlumosBubble.FileSystem
