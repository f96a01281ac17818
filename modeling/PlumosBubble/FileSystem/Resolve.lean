import PlumosBubble.FileSystem.Tree

/-! Path resolution as the kernel does it: component by component from the root,
through every symbolic link on the way, and through a link in the last component
only where the call follows it. More than forty links are a loop. -/

namespace PlumosBubble.FileSystem

inductive Errno where
  | enoent | enotdir | eexist | eisdir | enotempty | eloop | einval | ebusy
  deriving DecidableEq

/-- The components of a path text; empty ones and `.` name nothing. -/
def components (text : List Char) : Path :=
  (text.splitOn '/').filter fun n => n ≠ [] ∧ n ≠ ['.']

theorem splitOn_slash_free {text : List Char} {n : Name} (h : n ∈ text.splitOn '/') : '/' ∉ n := by
  induction text generalizing n with
  | nil => simp_all
  | cons c text ih =>
    obtain ⟨m, ms, hm⟩ := List.exists_cons_of_ne_nil (List.splitOn_ne_nil '/' text)
    rw [List.splitOn_cons_eq_if_modifyHead] at h
    by_cases hc : c = '/'
    · rw [if_pos (by simpa using hc)] at h
      cases List.mem_cons.mp h with
      | inl h => simp [h]
      | inr h => exact ih h
    · rw [if_neg (by simpa using hc), hm, List.modifyHead_cons] at h
      cases List.mem_cons.mp h with
      | inl h =>
        subst h
        have := ih (n := m) (by simp [hm])
        simpa [Ne.symm hc] using this
      | inr h => exact ih (by simp [hm, h])

theorem slash_free_of_mem_components {text : List Char} {n : Name} (h : n ∈ components text) :
    '/' ∉ n :=
  splitOn_slash_free (List.mem_filter.mp h).1

theorem components_name {n : Name} (hslash : '/' ∉ n) (hne : n ≠ []) (hdot : n ≠ ['.']) :
    components n = [n] := by
  rw [components, List.splitOn_eq_singleton hslash]
  simp [hne, hdot]

/-- Where a walk stops: at a path, at an error, or at a link to be followed. -/
inductive Walk where
  | arrived (p : Path)
  | failed (e : Errno)
  | link (dir : Path) (target : List Char) (rest : Path)

namespace Tree

variable {C : Type*}

/-- Walk `todo` from the directory `cur` up to the first link. -/
def walk (t : Tree C) (follow : Bool) : Path → Path → Walk
  | cur, [] => .arrived cur
  | cur, n :: rest =>
    if n = ['.', '.'] then t.walk follow cur.dropLast rest
    else match t.node (cur ++ [n]) with
      | none => if rest = [] then .arrived (cur ++ [n]) else .failed .enoent
      | some .dir => t.walk follow (cur ++ [n]) rest
      | some (.file _ _) => if rest = [] then .arrived (cur ++ [n]) else .failed .enotdir
      | some (.symlink target) =>
        if rest = [] ∧ follow = false then .arrived (cur ++ [n]) else .link cur target rest

/-- Walk, following at most `links` links. -/
def resolveFrom (t : Tree C) (follow : Bool) : ℕ → Path → Path → Except Errno Path
  | links, cur, todo =>
    match t.walk follow cur todo with
    | .arrived p => .ok p
    | .failed e => .error e
    | .link dir target rest =>
      match links with
      | 0 => .error .eloop
      | links + 1 =>
        t.resolveFrom follow links (if target.head? = some '/' then [] else dir)
          (components target ++ rest)

def resolve (t : Tree C) (follow : Bool) (p : Path) : Except Errno Path :=
  t.resolveFrom follow 40 [] p

/-- The node `lstat` sees. -/
def lstat (t : Tree C) (p : Path) : Option (Node C) :=
  match t.resolve false p with
  | .ok q => t.node q
  | .error _ => none

/-- The node `stat` sees. -/
def stat (t : Tree C) (p : Path) : Option (Node C) :=
  match t.resolve true p with
  | .ok q => t.node q
  | .error _ => none

/-- `Path.exists`. -/
def «exists» (t : Tree C) (p : Path) : Bool := (t.stat p).isSome

/-- `Path.is_symlink`. -/
def isSymlink (t : Tree C) (p : Path) : Bool :=
  match t.lstat p with
  | some (.symlink _) => true
  | _ => false

/-- `Path.is_file`. -/
def isFile (t : Tree C) (p : Path) : Bool :=
  match t.stat p with
  | some (.file _ _) => true
  | _ => false

/-- `Path.is_dir`. -/
def isDir (t : Tree C) (p : Path) : Bool :=
  match t.stat p with
  | some .dir => true
  | _ => false

end Tree

/-- No component is `..`. -/
def Clean (p : Path) : Prop := ∀ n ∈ p, n ≠ ['.', '.']

theorem Clean.append {p q : Path} (hp : Clean p) (hq : Clean q) : Clean (p ++ q) := by
  intro n hn
  rcases List.mem_append.mp hn with h | h
  · exact hp n h
  · exact hq n h

theorem Clean.of_ancestor {p q : Path} (hp : Clean p) (h : q <+: p) : Clean q :=
  fun n hn => hp n (h.subset hn)

/-- No proper ancestor of `p` is a symbolic link. -/
def NoLinkAbove {C : Type*} (t : Tree C) (p : Path) : Prop :=
  ∀ q, q <+: p → q ≠ p → ∀ target, t.node q ≠ some (.symlink target)

instance (p : Path) : Decidable (Clean p) := by unfold Clean; infer_instance

instance {C : Type*} (v : Option (Node C)) : Decidable (∀ target, v ≠ some (.symlink target)) :=
  match v with
  | none => isTrue (by simp)
  | some (.file _ _) => isTrue (by simp)
  | some (.symlink target) => isFalse fun h => h target rfl
  | some .dir => isTrue (by simp)

instance {C : Type*} (t : Tree C) (p : Path) : Decidable (NoLinkAbove t p) :=
  decidable_of_iff (∀ q ∈ p.inits, q ≠ p → ∀ target, t.node q ≠ some (.symlink target))
    (by simp [NoLinkAbove])

theorem NoLinkAbove.of_ancestor {C : Type*} {t : Tree C} {p r : Path} (h : NoLinkAbove t p)
    (hr : r <+: p) : NoLinkAbove t r := by
  intro q hq hne
  refine h q (hq.trans hr) fun he => hne ?_
  exact hq.eq_of_length_le (by rw [he]; exact hr.length_le)

namespace Tree

variable {C : Type*} (t : Tree C) (follow : Bool)

theorem walk_arrived {cur todo : Path} (hclean : Clean todo) (hcur : t.node cur = some .dir)
    (hdir : ∀ q, q <+: todo → q ≠ todo → t.node (cur ++ q) = some .dir)
    (hlast : follow = true → ∀ target, t.node (cur ++ todo) ≠ some (.symlink target)) :
    t.walk follow cur todo = .arrived (cur ++ todo) := by
  induction todo generalizing cur with
  | nil => simp [walk]
  | cons n rest ih =>
    have hn : n ≠ ['.', '.'] := hclean n List.mem_cons_self
    rw [walk, if_neg hn]
    by_cases hr : rest = []
    · subst hr
      have hl : follow = true → ∀ target, t.node (cur ++ [n]) ≠ some (.symlink target) := hlast
      rcases hv : t.node (cur ++ [n]) with _ | ⟨_ | target | _⟩
      · simp
      · simp
      · have : follow = false := by
          by_contra hf
          exact hl (by simpa using hf) target hv
        simp [this]
      · simp [walk]
    · have hd := hdir [n] (by simp) (by simpa using Ne.symm hr)
      rw [hd]
      rw [ih (fun m hm => hclean m (List.mem_cons_of_mem _ hm)) hd]
      · simp
      · intro q hq hne
        simpa using hdir (n :: q) (by simpa using hq) (by simpa using hne)
      · simpa using hlast

theorem walk_failed (cur : Path) {todo : Path} (hclean : Clean todo) (hcur : t.node cur = some .dir)
    (hlink : ∀ q, q <+: todo → q ≠ todo → ∀ target, t.node (cur ++ q) ≠ some (.symlink target))
    (hdir : ∃ q, q <+: todo ∧ q ≠ todo ∧ t.node (cur ++ q) ≠ some .dir) :
    t.walk follow cur todo = .failed .enoent ∧
        (∀ q, q <+: todo → q ≠ todo → t.node (cur ++ q) = some .dir ∨ t.node (cur ++ q) = none) ∨
      t.walk follow cur todo = .failed .enotdir ∧
        ∃ q, q <+: todo ∧ q ≠ todo ∧ t.node (cur ++ q) ≠ some .dir ∧ t.node (cur ++ q) ≠ none := by
  induction todo generalizing cur with
  | nil =>
    obtain ⟨q, hq, hne, -⟩ := hdir
    exact absurd (List.prefix_nil.mp hq) hne
  | cons n rest ih =>
    rw [walk, if_neg (hclean n List.mem_cons_self)]
    have hr : rest ≠ [] := by
      rintro rfl
      obtain ⟨q, hq, hne, hd⟩ := hdir
      rcases List.prefix_concat_iff.mp (show q <+: [] ++ [n] from hq) with rfl | hq
      · exact hne rfl
      · rw [List.prefix_nil.mp hq] at hd; simp [hcur] at hd
    have hl := hlink [n] (by simp) (by simpa using Ne.symm hr)
    rcases hv : t.node (cur ++ [n]) with _ | ⟨_ | target | _⟩
    · refine Or.inl ⟨by simp [hr], ?_⟩
      intro q hq hne
      rcases q with _ | ⟨m, q⟩
      · exact Or.inl (by simpa using hcur)
      · obtain ⟨rfl, -⟩ := List.cons_prefix_cons.mp hq
        refine Or.inr ?_
        by_cases hq' : q = []
        · simpa [hq'] using hv
        · exact t.eq_none_of_ancestor (q := cur ++ [m]) (by simp) (by simpa using Ne.symm hq') (by simp [hv])
    · exact Or.inr ⟨by simp [hr], [n], by simp, by simpa using Ne.symm hr, by simp [hv], by simp [hv]⟩
    · exact absurd hv (hl target)
    · have key := ih (cur ++ [n]) (fun m hm => hclean m (List.mem_cons_of_mem _ hm)) hv ?_ ?_
      · rcases key with ⟨hw, hq⟩ | ⟨hw, q, hq, hne, hd⟩
        · refine Or.inl ⟨hw, ?_⟩
          intro q hq' hne
          rcases q with _ | ⟨m, q⟩
          · exact Or.inl (by simpa using hcur)
          · obtain ⟨rfl, hrest⟩ := List.cons_prefix_cons.mp hq'
            simpa using hq q hrest (by simpa using hne)
        · exact Or.inr ⟨hw, n :: q, by simpa using hq, by simpa using hne, by simpa using hd⟩
      · intro q hq hne target
        simpa using hlink (n :: q) (by simpa using hq) (by simpa using hne) target
      · obtain ⟨q, hq, hne, hd⟩ := hdir
        cases q with
        | nil => simp [hcur] at hd
        | cons m q =>
          obtain ⟨rfl, hrest⟩ := List.cons_prefix_cons.mp hq
          exact ⟨q, hrest, by simpa using hne, by simpa using hd⟩

theorem resolve_of_walk {p q : Path} (h : t.walk follow [] p = .arrived q) :
    t.resolve follow p = .ok q := by
  rw [resolve, resolveFrom, h]

theorem resolve_eq {p : Path} (hclean : Clean p) (hdir : t.node p.dropLast = some .dir)
    (hlast : follow = true → ∀ target, t.node p ≠ some (.symlink target)) :
    t.resolve follow p = .ok p := by
  refine t.resolve_of_walk follow (t.walk_arrived follow hclean t.root_dir ?_ (by simpa using hlast))
  intro q hq hne
  have hq' : q <+: p.dropLast := prefix_dropLast hq hne
  by_cases he : q = p.dropLast
  · simpa [he] using hdir
  · simpa using t.dir_of_ancestor hq' he (by simp [hdir])

theorem parent_dir' {p : Path} (h : t.node p ≠ none) : t.node p.dropLast = some .dir := by
  rcases List.eq_nil_or_concat p with rfl | ⟨L, n, rfl⟩
  · exact t.root_dir
  · simpa using t.parent_dir L n (by simpa using h)

theorem resolve_of_node {p : Path} (hclean : Clean p) (h : t.node p ≠ none)
    (hlast : follow = true → ∀ target, t.node p ≠ some (.symlink target)) :
    t.resolve follow p = .ok p :=
  t.resolve_eq follow hclean (t.parent_dir' h) hlast

theorem resolve_failed {p : Path} (hclean : Clean p) (hlink : NoLinkAbove t p)
    (hdir : t.node p.dropLast ≠ some .dir) :
    t.resolve follow p = .error .enoent ∧
        (∀ q, q <+: p → q ≠ p → t.node q = some .dir ∨ t.node q = none) ∨
      t.resolve follow p = .error .enotdir ∧
        ∃ q, q <+: p ∧ q ≠ p ∧ t.node q ≠ some .dir ∧ t.node q ≠ none := by
  have hp : p ≠ [] := by rintro rfl; exact hdir t.root_dir
  have hne : p.dropLast ≠ p := dropLast_ne hp
  rcases t.walk_failed follow [] hclean t.root_dir
    (by simpa [NoLinkAbove] using hlink) ⟨_, p.dropLast_prefix, hne, by simpa using hdir⟩ with
    ⟨he, h⟩ | ⟨he, h⟩
  · exact Or.inl ⟨by rw [resolve, resolveFrom, he], by simpa using h⟩
  · exact Or.inr ⟨by rw [resolve, resolveFrom, he], by simpa using h⟩

theorem resolve_missing {p : Path} (hclean : Clean p) (hlink : NoLinkAbove t p)
    (h : t.node p = none) : t.resolve follow p = .ok p ∨ ∃ e, t.resolve follow p = .error e := by
  by_cases hd : t.node p.dropLast = some .dir
  · exact Or.inl (t.resolve_eq follow hclean hd (by simp [h]))
  · rcases t.resolve_failed follow hclean hlink hd with ⟨he, -⟩ | ⟨he, -⟩
    · exact Or.inr ⟨_, he⟩
    · exact Or.inr ⟨_, he⟩

theorem eq_of_resolve {p q : Path} (hclean : Clean p) (hlink : NoLinkAbove t p)
    (h : t.resolve false p = .ok q) : q = p := by
  have hr : t.resolve false p = .ok p ∨ ∃ e, t.resolve false p = .error e := by
    by_cases hn : t.node p = none
    · exact t.resolve_missing false hclean hlink hn
    · exact Or.inl (t.resolve_of_node false hclean hn (by simp))
  cases hr with
  | inl hr => simpa [hr] using h.symm
  | inr hr => obtain ⟨e, hr⟩ := hr; simp [hr] at h

theorem lstat_of_node {p : Path} {v : Node C} (hclean : Clean p) (h : t.node p = some v) :
    t.lstat p = some v := by
  rw [lstat, t.resolve_of_node false hclean (by simp [h]) (by simp)]
  exact h

theorem stat_of_node {p : Path} {v : Node C} (hclean : Clean p) (h : t.node p = some v)
    (hlast : ∀ target, v ≠ .symlink target) : t.stat p = some v := by
  rw [stat, t.resolve_of_node true hclean (by simp [h]) (by simpa [h] using hlast)]
  exact h

theorem lstat_eq {p : Path} (hclean : Clean p) (hlink : NoLinkAbove t p) :
    t.lstat p = t.node p := by
  cases h : t.node p with
  | some v => exact t.lstat_of_node hclean h
  | none =>
    rw [lstat]
    rcases t.resolve_missing false hclean hlink h with he | ⟨e, he⟩
    · rw [he]; exact h
    · rw [he]

theorem stat_of_none {p : Path} (hclean : Clean p) (hlink : NoLinkAbove t p)
    (h : t.node p = none) : t.stat p = none := by
  rw [stat]
  rcases t.resolve_missing true hclean hlink h with he | ⟨e, he⟩
  · rw [he]; exact h
  · rw [he]

/-- `path.exists() or path.is_symlink()`. -/
theorem exists_or_isSymlink {p : Path} (hclean : Clean p) (hlink : NoLinkAbove t p) :
    (t.exists p || t.isSymlink p) = (t.node p).isSome := by
  rcases hv : t.node p with _ | v
  · simp [«exists», isSymlink, t.stat_of_none hclean hlink hv, t.lstat_eq hclean hlink, hv]
  · cases v with
    | symlink target => simp [isSymlink, t.lstat_of_node hclean hv]
    | file c m => simp [«exists», t.stat_of_node hclean hv]
    | dir => simp [«exists», t.stat_of_node hclean hv]

theorem isDir_of_node {p : Path} (hclean : Clean p) (h : t.node p = some .dir) :
    t.isDir p = true := by
  simp [isDir, t.stat_of_node hclean h]

/-- `path.is_file() or path.is_symlink()`: not a directory, not missing. -/
theorem isFile_or_isSymlink {p : Path} (hclean : Clean p) (hlink : NoLinkAbove t p) :
    (t.isFile p || t.isSymlink p) = true ↔ t.node p ≠ none ∧ t.node p ≠ some .dir := by
  rcases hv : t.node p with _ | v
  · simp [isFile, isSymlink, t.stat_of_none hclean hlink hv, t.lstat_eq hclean hlink, hv]
  · cases v with
    | symlink target => simp [isSymlink, t.lstat_of_node hclean hv]
    | file c m => simp [isFile, t.stat_of_node hclean hv]
    | dir => simp [isFile, isSymlink, t.stat_of_node hclean hv, t.lstat_of_node hclean hv]

end Tree

end PlumosBubble.FileSystem
