import PlumosBubble.FileSystem.Resolve

/-! The calls that change a tree, each atomic: `mkdir`, `rmdir`, `unlink`, `symlink`,
`rename`, `chmod` and the write of a whole file. Every call resolves its paths, checks
what the kernel checks and then changes single nodes; `rename` moves a subtree. -/

namespace PlumosBubble.FileSystem.Tree

variable {C : Type*}

/-- Create `p`, which is missing in an existing directory. -/
def create (t : Tree C) (p : Path) (v : Node C) : Except Errno (Tree C) :=
  if hp : p = [] then .error .eexist
  else if h : t.node p = none then
    if hd : t.node p.dropLast = some .dir then
      .ok (t.update p (some v) hp (fun _ => hd) (Or.inr (t.hasChild_of_ne_dir (by simp [h]))))
    else .error .enoent
  else .error .eexist

def mkdir (t : Tree C) (p : Path) : Except Errno (Tree C) :=
  match t.resolve false p with
  | .ok q => t.create q .dir
  | .error e => .error e

def symlinkTo (t : Tree C) (p : Path) (target : List Char) : Except Errno (Tree C) :=
  if target = [] then .error .enoent
  else match t.resolve false p with
    | .ok q => t.create q (.symlink target)
    | .error e => .error e

/-- Remove the node at the resolved path `p`: `rmdir` for a directory, else `unlink`. -/
def removeEntry (t : Tree C) (p : Path) : Except Errno (Tree C) :=
  if hp : p = [] then .error .ebusy
  else if t.node p = none then .error .enoent
  else if h : t.hasChild p = false then .ok (t.update p none hp (by simp) (Or.inr h))
  else .error .enotempty

def unlink (t : Tree C) (p : Path) : Except Errno (Tree C) :=
  match t.resolve false p with
  | .ok q => if t.node q = some .dir then .error .eisdir else t.removeEntry q
  | .error e => .error e

/-- `open(p, "wb")` and the write of the whole content; an existing file keeps its
mode. -/
def writeFile (t : Tree C) (p : Path) (content : C) (mode : ℕ) : Except Errno (Tree C) :=
  match t.resolve true p with
  | .error e => .error e
  | .ok q =>
    if hp : q = [] then .error .eisdir
    else match h : t.node q with
      | none => t.create q (.file content mode)
      | some (.file _ m) =>
        .ok (t.update q (some (.file content m)) hp
          (fun _ => t.parent_dir' (by simp [h])) (Or.inr (t.hasChild_of_ne_dir (by simp [h]))))
      | some _ => .error .eisdir

/-- Directories carry no mode. -/
def chmod (t : Tree C) (p : Path) (mode : ℕ) : Except Errno (Tree C) :=
  match t.resolve true p with
  | .error e => .error e
  | .ok q =>
    if hp : q = [] then .ok t
    else match h : t.node q with
      | none => .error .enoent
      | some (.file c _) =>
        .ok (t.update q (some (.file c mode)) hp
          (fun _ => t.parent_dir' (by simp [h])) (Or.inr (t.hasChild_of_ne_dir (by simp [h]))))
      | some _ => .ok t

/-- `rename` of resolved paths. -/
def renameResolved (t : Tree C) (src dst : Path) : Except Errno (Tree C) :=
  if hs : src = [] then .error .ebusy
  else if hd : dst = [] then .error .ebusy
  else if t.node src = none then .error .enoent
  else if src = dst then .ok t
  else if hsd : src <+: dst then .error .einval
  else if t.node dst = some .dir ∧ t.node src ≠ some .dir then .error .eisdir
  else if t.node dst ≠ none ∧ t.node dst ≠ some .dir ∧ t.node src = some .dir then .error .enotdir
  else if t.hasChild dst = true then .error .enotempty
  else if hp : t.node dst.dropLast = some .dir then .ok (t.move src dst hs hd hsd hp)
  else .error .enoent

/-- `os.replace`. -/
def rename (t : Tree C) (src dst : Path) : Except Errno (Tree C) :=
  match t.resolve false src with
  | .error e => .error e
  | .ok s =>
    match t.resolve false dst with
    | .error e => .error e
    | .ok d => t.renameResolved s d

/-! ### What each call leaves at every path -/

variable (t : Tree C)

theorem create_ok {p : Path} (v : Node C) (hp : p ≠ []) (h : t.node p = none)
    (hd : t.node p.dropLast = some .dir) :
    ∃ t', t.create p v = .ok t' ∧ ∀ q, t'.node q = if q = p then some v else t.node q := by
  refine ⟨_, by rw [create, dif_neg hp, dif_pos h, dif_pos hd], fun q => ?_⟩
  simp

theorem create_cases {t t' : Tree C} {p : Path} {v : Node C} (h : t.create p v = .ok t') :
    p ≠ [] ∧ t.node p = none ∧ t.node p.dropLast = some .dir ∧
      ∀ q, t'.node q = if q = p then some v else t.node q := by
  unfold create at h
  split_ifs at h with hp hn hd
  cases h
  exact ⟨hp, hn, hd, fun q => by simp⟩

theorem ne_nil_of_none {p : Path} (h : t.node p = none) : p ≠ [] := by
  rintro rfl; simp [t.root_dir] at h

theorem mkdir_ok {p : Path} (hc : Clean p) (h : t.node p = none)
    (hd : t.node p.dropLast = some .dir) :
    ∃ t', t.mkdir p = .ok t' ∧ ∀ q, t'.node q = if q = p then some .dir else t.node q := by
  rw [mkdir, t.resolve_eq false hc hd (by simp)]
  exact t.create_ok _ (t.ne_nil_of_none h) h hd

theorem mkdir_exists {p : Path} (hc : Clean p) (h : t.node p ≠ none) :
    t.mkdir p = .error .eexist := by
  rw [mkdir, t.resolve_of_node false hc h (by simp)]
  by_cases hp : p = [] <;> simp [create, hp, h]

theorem removeEntry_ok {p : Path} (hp : p ≠ []) (h : t.node p ≠ none)
    (hc : ∀ n, t.node (p ++ [n]) = none) :
    ∃ t', t.removeEntry p = .ok t' ∧ ∀ q, t'.node q = if q = p then none else t.node q := by
  refine ⟨_, by rw [removeEntry, dif_neg hp, if_neg h, dif_pos (hasChild_eq_false.mpr hc)],
    fun q => by simp⟩

theorem unlink_ok {p : Path} (hc : Clean p) (h : t.node p ≠ none) (hd : t.node p ≠ some .dir) :
    ∃ t', t.unlink p = .ok t' ∧ ∀ q, t'.node q = if q = p then none else t.node q := by
  rw [unlink, t.resolve_of_node false hc h (by simp)]
  have hp : p ≠ [] := by rintro rfl; exact hd t.root_dir
  simp only [if_neg hd]
  exact t.removeEntry_ok hp h (hasChild_eq_false.mp (t.hasChild_of_ne_dir hd))

theorem writeFile_new {p : Path} (c : C) (mode : ℕ) (hc : Clean p) (h : t.node p = none)
    (hd : t.node p.dropLast = some .dir) :
    ∃ t', t.writeFile p c mode = .ok t' ∧
      ∀ q, t'.node q = if q = p then some (.file c mode) else t.node q := by
  obtain ⟨t', ht', hq⟩ := t.create_ok (.file c mode) (t.ne_nil_of_none h) h hd
  refine ⟨t', ?_, hq⟩
  rw [writeFile, t.resolve_eq true hc hd (by simp [h])]
  dsimp only
  rw [dif_neg (t.ne_nil_of_none h)]
  split
  · exact ht'
  · rename_i hm; simp [h] at hm
  · rename_i hm; simp [h] at hm

theorem writeFile_file {p : Path} (c : C) {c' : C} (mode : ℕ) {m : ℕ} (hc : Clean p)
    (h : t.node p = some (.file c' m)) :
    ∃ t', t.writeFile p c mode = .ok t' ∧
      ∀ q, t'.node q = if q = p then some (.file c m) else t.node q := by
  have hp : p ≠ [] := by rintro rfl; simp [t.root_dir] at h
  rw [writeFile, t.resolve_of_node true hc (by simp [h]) (by simp [h])]
  dsimp only
  rw [dif_neg hp]
  split
  · rename_i hm; simp [h] at hm
  · rename_i m' hm
    obtain ⟨rfl, rfl⟩ : c' = _ ∧ m = m' := by simpa [h] using hm
    exact ⟨_, rfl, fun q => by simp⟩
  · rename_i hno hm
    rw [h] at hm
    exact absurd (Option.some.inj hm).symm (hno _ _)

theorem writeFile_dir {p : Path} (c : C) (mode : ℕ) (hc : Clean p) (h : t.node p = some .dir) :
    t.writeFile p c mode = .error .eisdir := by
  rw [writeFile, t.resolve_of_node true hc (by simp [h]) (by simp [h])]
  dsimp only
  split_ifs
  · rfl
  · split
    · rename_i hm; simp [h] at hm
    · rename_i hm; simp [h] at hm
    · rfl

theorem chmod_file {p : Path} {c : C} {m : ℕ} (mode : ℕ) (hc : Clean p)
    (h : t.node p = some (.file c m)) :
    ∃ t', t.chmod p mode = .ok t' ∧
      ∀ q, t'.node q = if q = p then some (.file c mode) else t.node q := by
  have hp : p ≠ [] := by rintro rfl; simp [t.root_dir] at h
  rw [chmod, t.resolve_of_node true hc (by simp [h]) (by simp [h])]
  dsimp only
  rw [dif_neg hp]
  split
  · rename_i hm; simp [h] at hm
  · rename_i c' m' hm
    obtain ⟨rfl, rfl⟩ : c = c' ∧ m = m' := by simpa [h] using hm
    exact ⟨_, rfl, fun q => by simp⟩
  · rename_i hno hm
    rw [h] at hm
    exact absurd (Option.some.inj hm).symm (hno _ _)

/-- Renaming a file or a link moves its node and replaces what stood at `dst`. -/
theorem rename_ok {src dst : Path} (hcs : Clean src) (hcd : Clean dst) (hs : t.node src ≠ none)
    (hsd : t.node src ≠ some .dir) (hd : t.node dst ≠ some .dir)
    (hp : t.node dst.dropLast = some .dir) (hne : src ≠ dst) :
    ∃ t', t.rename src dst = .ok t' ∧
      ∀ q, t'.node q = if q = dst then t.node src else if q = src then none else t.node q := by
  have hsrc : src ≠ [] := by rintro rfl; exact hsd t.root_dir
  have hdst : dst ≠ [] := by rintro rfl; exact hd t.root_dir
  have hpre : ¬ src <+: dst := by
    intro h
    have : src <+: dst.dropLast := prefix_dropLast h hne
    by_cases he : src = dst.dropLast
    · exact hsd (he ▸ hp)
    · exact hsd (t.dir_of_ancestor this he (by simp [hp]))
  rw [rename, t.resolve_of_node false hcs hs (by simp), t.resolve_eq false hcd hp (by simp)]
  refine ⟨t.move src dst hsrc hdst hpre hp, ?_, fun q => t.moved_of_ne_dir hsd q hd⟩
  simp only [renameResolved]
  rw [dif_neg hsrc, dif_neg hdst, if_neg hs, if_neg hne, dif_neg hpre, if_neg (by simp [hd]),
    if_neg (by simp [hsd]), if_neg (by simp [t.hasChild_of_ne_dir hd]), dif_pos hp]

theorem renameResolved_cases {src dst : Path} {t' : Tree C}
    (h : t.renameResolved src dst = .ok t') :
    t.node src ≠ none ∧ (src = dst ∧ t' = t ∨ src ≠ dst ∧
      ¬(t.node dst = some .dir ∧ t.node src ≠ some .dir) ∧
      ¬(t.node dst ≠ none ∧ t.node dst ≠ some .dir ∧ t.node src = some .dir) ∧
      t.hasChild dst = false ∧ ∀ q, t'.node q = t.moved src dst q) := by
  unfold renameResolved at h
  by_cases hs : src = []
  · rw [dif_pos hs] at h
    cases h
  rw [dif_neg hs] at h
  by_cases hd : dst = []
  · rw [dif_pos hd] at h
    cases h
  rw [dif_neg hd] at h
  by_cases hnone : t.node src = none
  · rw [if_pos hnone] at h
    cases h
  rw [if_neg hnone] at h
  refine ⟨hnone, ?_⟩
  by_cases hsame : src = dst
  · rw [if_pos hsame] at h
    cases h
    exact Or.inl ⟨hsame, rfl⟩
  rw [if_neg hsame] at h
  by_cases hsd : src <+: dst
  · rw [dif_pos hsd] at h
    cases h
  rw [dif_neg hsd] at h
  by_cases hisdir : t.node dst = some .dir ∧ t.node src ≠ some .dir
  · rw [if_pos hisdir] at h
    cases h
  rw [if_neg hisdir] at h
  by_cases hnotdir : t.node dst ≠ none ∧ t.node dst ≠ some .dir ∧ t.node src = some .dir
  · rw [if_pos hnotdir] at h
    cases h
  rw [if_neg hnotdir] at h
  by_cases hchild : t.hasChild dst = true
  · rw [if_pos hchild] at h
    cases h
  rw [if_neg hchild] at h
  by_cases hp : t.node dst.dropLast = some .dir
  · rw [dif_pos hp] at h
    cases h
    exact Or.inr ⟨hsame, hisdir, hnotdir, Bool.eq_false_iff.mpr hchild, fun _ => rfl⟩
  · rw [dif_neg hp] at h
    cases h

theorem rename_cases {src dst : Path} {t' : Tree C} (hcs : Clean src) (hcd : Clean dst)
    (hls : NoLinkAbove t src) (hld : NoLinkAbove t dst) (h : t.rename src dst = .ok t') :
    t.node src ≠ none ∧ (src = dst ∧ t' = t ∨
      (t.node dst ≠ none → (t.node dst = some .dir ↔ t.node src = some .dir)) ∧
        ∀ q, t'.node q = t.moved src dst q) := by
  unfold rename at h
  split at h
  · cases h
  · rename_i s hs
    split at h
    · cases h
    · rename_i d hd
      rw [t.eq_of_resolve hcs hls hs, t.eq_of_resolve hcd hld hd] at h
      obtain ⟨hnone, ⟨hsame, rfl⟩ | ⟨-, hisdir, hnotdir, -, hnode⟩⟩ := t.renameResolved_cases h
      · exact ⟨hnone, Or.inl ⟨hsame, rfl⟩⟩
      · refine ⟨hnone, Or.inr ⟨fun hn => ⟨fun hdir => ?_, fun hdir => ?_⟩, hnode⟩⟩
        · by_contra hc
          exact hisdir ⟨hdir, hc⟩
        · by_contra hc
          exact hnotdir ⟨hn, hc, hdir⟩

end PlumosBubble.FileSystem.Tree
