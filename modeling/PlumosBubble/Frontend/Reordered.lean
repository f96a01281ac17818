import PlumosBubble.Frontend.Completeness

/-! One tree whose directories are read in several orders. A walk reaches the same files in every
order, and for each of them there is an order in which it comes first. -/

namespace PlumosBubble.Frontend

open Sequence

/-- The names of a directory, in the order of `readdir`; none where it cannot be opened. -/
def Disk.names (disk : Disk) (path : CString) : List CString := (disk.readdir path).getD []

/-- The same tree, with the names of each directory in another order. -/
structure Reordered (disk disk' : Disk) : Prop where
  stat : disk'.stat = disk.stat
  realpath : disk'.realpath = disk.realpath
  names : ∀ path, (disk.names path).Perm (disk'.names path)

namespace Reordered

variable {disk disk' disk'' : Disk}

theorem refl (disk : Disk) : Reordered disk disk := ⟨rfl, rfl, fun _ => List.Perm.refl _⟩

theorem isDirectory (h : Reordered disk disk') (path : CString) :
    disk'.isDirectory path = disk.isDirectory path := by
  unfold Disk.isDirectory
  rw [h.stat]

theorem isRegularFile (h : Reordered disk disk') (path : CString) :
    disk'.isRegularFile path = disk.isRegularFile path := by
  unfold Disk.isRegularFile
  rw [h.stat]

theorem canonicalPath (h : Reordered disk disk') (path : CString) :
    disk'.canonicalPath path = disk.canonicalPath path := by
  unfold Disk.canonicalPath
  rw [h.realpath]

end Reordered

section Prefer

/-- A name that is there comes first. -/
def pull (name : CString) (names : List CString) : List CString :=
  if name ∈ names then name :: names.erase name else names

theorem pull_perm (name : CString) (names : List CString) : (pull name names).Perm names := by
  unfold pull
  split_ifs with h
  · exact (List.perm_cons_erase h).symm
  · exact List.Perm.refl _

/-- The names of this list come first, in its order. -/
def pullAll (first names : List CString) : List CString := first.foldr pull names

theorem pullAll_perm (first names : List CString) : (pullAll first names).Perm names := by
  induction first with
  | nil => exact List.Perm.refl _
  | cons name first ih => exact (pull_perm name _).trans ih

theorem pullAll_cons {name : CString} {first names : List CString} (h : name ∈ names) :
    pullAll (name :: first) names = name :: (pullAll first names).erase name :=
  if_pos ((pullAll_perm first names).mem_iff.mpr h)

/-- The tree, with these names first in each directory. -/
def Disk.prefer (disk : Disk) (first : CString → List CString) : Disk :=
  { disk with
    readdir := fun path => (disk.readdir path).map (pullAll (first path))
    readdir_name := by
      intro path names name hnames hname
      obtain ⟨old, hold, rfl⟩ := Option.map_eq_some_iff.mp hnames
      exact disk.readdir_name path old name hold ((pullAll_perm _ _).mem_iff.mp hname)
    readdir_dir := by
      intro path names hnames
      obtain ⟨old, hold, -⟩ := Option.map_eq_some_iff.mp hnames
      exact disk.readdir_dir path old hold }

variable {disk : Disk} {first : CString → List CString}

theorem names_prefer (path : CString) :
    (disk.prefer first).names path = pullAll (first path) (disk.names path) := by
  have hreaddir : (disk.prefer first).readdir path =
      (disk.readdir path).map (pullAll (first path)) := rfl
  unfold Disk.names
  rw [hreaddir]
  cases disk.readdir path with
  | some names => rfl
  | none => exact (pullAll_perm (first path) []).eq_nil.symm

theorem reordered_prefer (disk : Disk) (first : CString → List CString) :
    Reordered disk (disk.prefer first) :=
  ⟨rfl, rfl, fun path => by
    rw [names_prefer]
    exact (pullAll_perm _ _).symm⟩

end Prefer

section Reach

variable {disk disk' : Disk} {config : ScanConfig} {listDirectories : Bool}

theorem mem_names {path name : CString} :
    name ∈ disk.names path ↔ ∃ names, disk.readdir path = some names ∧ name ∈ names := by
  unfold Disk.names
  cases disk.readdir path <;> simp

theorem name_of_mem {path name : CString} (h : name ∈ disk.names path) :
    name ≠ [] ∧ slash ∉ name ∧ name.length ≤ 255 := by
  obtain ⟨names, hnames, hname⟩ := mem_names.mp h
  exact disk.readdir_name path names name hnames hname

theorem reach_succ (fuel : ℕ) (dirPath relDir : CString) :
    reach disk config listDirectories (fuel + 1) dirPath relDir =
      (disk.names dirPath).flatMap (reachChild disk config listDirectories
        (reach disk config listDirectories fuel) dirPath relDir) := rfl

theorem reachChild_perm (h : Reordered disk disk')
    {descend descend' : CString → CString → List Found}
    (hdescend : ∀ dirPath relDir, (descend dirPath relDir).Perm (descend' dirPath relDir))
    (dirPath relDir name : CString) :
    (reachChild disk config listDirectories descend dirPath relDir name).Perm
      (reachChild disk' config listDirectories descend' dirPath relDir name) := by
  unfold reachChild
  by_cases hhidden : isHidden name = true
  · rw [if_pos hhidden, if_pos hhidden]
  rw [if_neg hhidden, if_neg hhidden]
  cases joinPath pathMax dirPath name with
  | none => exact List.Perm.refl _
  | some childPath =>
    cases childRel relDir name with
    | none => exact List.Perm.refl _
    | some childRel =>
      dsimp only
      rw [h.isDirectory, h.isRegularFile]
      split_ifs
      all_goals first | exact List.Perm.refl _ | exact hdescend _ _

theorem reach_perm (h : Reordered disk disk') (fuel : ℕ) (dirPath relDir : CString) :
    (reach disk config listDirectories fuel dirPath relDir).Perm
      (reach disk' config listDirectories fuel dirPath relDir) := by
  induction fuel generalizing dirPath relDir with
  | zero => exact List.Perm.refl _
  | succ fuel ih =>
    rw [reach_succ, reach_succ]
    exact (h.names dirPath).flatMap fun name _ => reachChild_perm h ih dirPath relDir name

/-- The name by which a path goes on below a directory. -/
def nextName (dirPath target : CString) : CString :=
  (target.drop (dirPath ++ separator dirPath).length).takeWhile (· ≠ slash)

theorem nextName_eq {dirPath name rest : CString} (hslash : slash ∉ name)
    (hrest : rest = [] ∨ rest.head? = some slash) :
    nextName dirPath (dirPath ++ separator dirPath ++ name ++ rest) = name := by
  unfold nextName
  rw [List.append_assoc _ name, List.drop_left, List.takeWhile_append_of_pos]
  · rcases hrest with rfl | hrest
    · simp
    · obtain ⟨tail, rfl⟩ := List.head?_eq_some_iff.mp hrest
      simp
  · intro c hc
    simpa using fun heq : c = slash => hslash (heq ▸ hc)

theorem separator_child {dirPath name childPath : CString} (hname : name ≠ [])
    (hslash : slash ∉ name)
    (hjoin : joinPath pathMax dirPath name = some childPath) :
    childPath = dirPath ++ separator dirPath ++ name ∧ separator childPath = [slash] := by
  have hhead : name.head? ≠ some slash := fun h => hslash (List.mem_of_head? h)
  obtain ⟨rfl, -⟩ := (joinPath_relative hhead).mp hjoin
  refine ⟨rfl, if_pos ⟨by simp [hname], fun hlast => ?_⟩⟩
  rw [List.getLast?_append_of_ne_nil _ hname] at hlast
  exact hslash (List.mem_of_getLast? hlast)

theorem path_of_mem_reachChild {fuel : ℕ} {dirPath relDir name : CString} {found : Found}
    (hname : name ∈ disk.names dirPath)
    (h : found ∈ reachChild disk config listDirectories (reach disk config listDirectories fuel)
      dirPath relDir name) :
    ∃ rest, found.path = dirPath ++ separator dirPath ++ name ++ rest ∧
      (rest = [] ∨ rest.head? = some slash) := by
  induction fuel generalizing dirPath relDir name with
  | zero =>
    obtain ⟨hne, hslash, -⟩ := name_of_mem hname
    obtain ⟨-, childPath, childRel', hjoin, -, hmem⟩ := mem_reachChild.mp h
    obtain ⟨hchild, -⟩ := separator_child hne hslash hjoin
    rcases hmem with ⟨-, -, ⟨-, rfl⟩ | ⟨-, hmem⟩⟩ | ⟨-, -, rfl⟩
    · exact ⟨[], by simp [hchild], Or.inl rfl⟩
    · exact absurd hmem List.not_mem_nil
    · exact ⟨[], by simp [hchild], Or.inl rfl⟩
  | succ fuel ih =>
    obtain ⟨hne, hslash, -⟩ := name_of_mem hname
    obtain ⟨-, childPath, childRel', hjoin, -, hmem⟩ := mem_reachChild.mp h
    obtain ⟨hchild, hseparator⟩ := separator_child hne hslash hjoin
    rcases hmem with ⟨-, -, ⟨-, rfl⟩ | ⟨-, hmem⟩⟩ | ⟨-, -, rfl⟩
    · exact ⟨[], by simp [hchild], Or.inl rfl⟩
    · rw [reach_succ] at hmem
      obtain ⟨next, hnext, hmem⟩ := List.mem_flatMap.mp hmem
      obtain ⟨rest, hpath, -⟩ := ih hnext hmem
      refine ⟨slash :: (next ++ rest), ?_, Or.inr rfl⟩
      rw [hpath, hseparator, hchild]
      simp
    · exact ⟨[], by simp [hchild], Or.inl rfl⟩

/-- In an order that prefers the way to a target, with a few names that are no directories in
front of it, the walk comes to the target behind these. -/
theorem reach_toward (h : Reordered disk disk') {target : Found} {extra : CString → List CString}
    (hnames : ∀ path, nextName path target.path ∈ disk.names path →
      ∃ rest, disk'.names path = extra path ++ nextName path target.path :: rest)
    (hextra : ∀ path, ∀ name ∈ extra path, ∀ childPath,
      joinPath pathMax path name = some childPath → ¬disk.isDirectory childPath = true)
    {fuel : ℕ} {dirPath relDir : CString}
    (hmem : target ∈ reach disk config listDirectories fuel dirPath relDir) :
    ∃ before after,
      reach disk' config listDirectories fuel dirPath relDir = before ++ target :: after ∧
        ∀ found ∈ before, ∃ path rel fuel', found.name ∈ extra path ∧
          joinPath pathMax path found.name = some found.path ∧
          childRel rel found.name = some found.relPath ∧
          target ∈ reachChild disk config listDirectories (reach disk config listDirectories fuel')
            path rel (nextName path target.path) := by
  induction fuel generalizing dirPath relDir with
  | zero => exact absurd hmem List.not_mem_nil
  | succ fuel ih =>
    rw [reach_succ] at hmem ⊢
    obtain ⟨name, hname, hmem⟩ := List.mem_flatMap.mp hmem
    obtain ⟨rest, hpath, hrest⟩ := path_of_mem_reachChild hname hmem
    have hnext : nextName dirPath target.path = name := by
      rw [hpath]
      exact nextName_eq (name_of_mem hname).2.1 hrest
    obtain ⟨others, hothers⟩ := hnames dirPath (hnext.symm ▸ hname)
    rw [hnext] at hothers
    -- the names in front list at most one file each
    have hfront : ∀ found ∈ (extra dirPath).flatMap (reachChild disk' config listDirectories
        (reach disk' config listDirectories fuel) dirPath relDir),
        found.name ∈ extra dirPath ∧ joinPath pathMax dirPath found.name = some found.path ∧
          childRel relDir found.name = some found.relPath := by
      intro found hfound
      obtain ⟨x, hx, hfound⟩ := List.mem_flatMap.mp hfound
      obtain ⟨-, childPath, childRel', hjoin, hrel, hcase⟩ := mem_reachChild.mp hfound
      have hplain := hextra dirPath x hx childPath hjoin
      rcases hcase with ⟨hdir, -⟩ | ⟨-, -, rfl⟩
      · rw [h.isDirectory] at hdir
        exact absurd hdir hplain
      · exact ⟨hx, hjoin, hrel⟩
    obtain ⟨inner, behind, hinner, hbefore⟩ : ∃ inner behind,
        reachChild disk' config listDirectories (reach disk' config listDirectories fuel) dirPath
          relDir name = inner ++ target :: behind ∧
        ∀ found ∈ inner, ∃ path rel fuel', found.name ∈ extra path ∧
          joinPath pathMax path found.name = some found.path ∧
          childRel rel found.name = some found.relPath ∧
          target ∈ reachChild disk config listDirectories
            (reach disk config listDirectories fuel') path rel (nextName path target.path) := by
      obtain ⟨hhidden, childPath, childRel', hjoin, hrel, hcase⟩ := mem_reachChild.mp hmem
      unfold reachChild
      rw [if_neg hhidden, hjoin, hrel]
      dsimp only
      rw [h.isDirectory, h.isRegularFile]
      rcases hcase with ⟨hdir, hexcluded, ⟨htop, rfl⟩ | ⟨htop, hdeep⟩⟩ | ⟨hdir, hregular, rfl⟩
      · rw [if_pos hdir, if_neg hexcluded, if_pos htop]
        exact ⟨[], [], rfl, fun found hfound => absurd hfound List.not_mem_nil⟩
      · rw [if_pos hdir, if_neg hexcluded, if_neg htop]
        exact ih hdeep
      · rw [if_neg hdir, if_pos hregular]
        exact ⟨[], [], rfl, fun found hfound => absurd hfound List.not_mem_nil⟩
    refine ⟨(extra dirPath).flatMap (reachChild disk' config listDirectories
      (reach disk' config listDirectories fuel) dirPath relDir) ++ inner,
      behind ++ others.flatMap (reachChild disk' config listDirectories
        (reach disk' config listDirectories fuel) dirPath relDir), ?_, fun found hfound => ?_⟩
    · rw [hothers, List.flatMap_append, List.flatMap_cons, hinner]
      simp
    · rcases List.mem_append.mp hfound with hfound | hfound
      · obtain ⟨hx, hjoin, hrel⟩ := hfront found hfound
        exact ⟨dirPath, relDir, fuel, hx, hjoin, hrel, by rw [hnext]; exact hmem⟩
      · exact hbefore found hfound

/-- The order that prefers the way to a target. -/
def Disk.toward (disk : Disk) (target : CString) : Disk :=
  disk.prefer fun path => [nextName path target]

theorem reordered_toward (disk : Disk) (target : CString) : Reordered disk (disk.toward target) :=
  reordered_prefer disk _

theorem head_reach_prefer {target : Found} {first : CString → List CString}
    (hfirst : ∀ path, ∃ rest, first path = nextName path target.path :: rest)
    {fuel : ℕ} {dirPath relDir : CString}
    (hmem : target ∈ reach disk config listDirectories fuel dirPath relDir) :
    ∃ after, reach (disk.prefer first) config listDirectories fuel dirPath relDir =
      target :: after := by
  let extra : CString → List CString := fun _ => []
  have hnames : ∀ path, nextName path target.path ∈ disk.names path →
      ∃ rest, (disk.prefer first).names path =
        extra path ++ nextName path target.path :: rest := by
    intro path hnext
    obtain ⟨rest, hrest⟩ := hfirst path
    rw [names_prefer, hrest, pullAll_cons hnext]
    exact ⟨_, rfl⟩
  obtain ⟨before, after, hreach, hbefore⟩ := reach_toward (reordered_prefer disk _) hnames
    (fun _ _ h => absurd h List.not_mem_nil) hmem
  cases before with
  | nil => exact ⟨after, hreach⟩
  | cons found before =>
    obtain ⟨path, rel, fuel', hname, -⟩ := hbefore found List.mem_cons_self
    exact absurd hname List.not_mem_nil

end Reach

end PlumosBubble.Frontend
