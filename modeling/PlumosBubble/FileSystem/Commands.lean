import PlumosBubble.FileSystem.Programs

/-! The commands `mkdir -p`, `cp -p` and `mv -f` on a tree. Each tells whether it has worked, and
may fail without a reason in the tree and leave what it has come to. -/

namespace PlumosBubble.FileSystem

variable {C : Type*}

abbrev Command (C : Type*) := Tree C → Bool × Tree C

/-- `a || return 1`, and then `b`. -/
def Command.and (a b : Command C) : Command C := fun t =>
  if (a t).1 = true then b (a t).2 else a t

/-- No symbolic link stands at `p` or on the way to it. -/
def NoLink (t : Tree C) (p : Path) : Prop :=
  ∀ q, q <+: p → ∀ target, t.node q ≠ some (.symlink target)

instance (t : Tree C) (p : Path) : Decidable (NoLink t p) :=
  decidable_of_iff (∀ q ∈ p.inits, ∀ target, t.node q ≠ some (.symlink target))
    (by simp [NoLink])

instance (v : Option (Node C)) : Decidable (v = none) :=
  match v with
  | none => isTrue rfl
  | some _ => isFalse (by simp)

instance (t : Tree C) (p : Path) : Decidable (OpenWay t p) :=
  decidable_of_iff (∀ q ∈ p.inits, t.node q = some .dir ∨ t.node q = none) (by simp [OpenWay])

namespace Tree

/-- The content of the file at `p`. -/
def content (t : Tree C) (p : Path) : Option C :=
  match t.stat p with
  | some (.file c _) => some c
  | _ => none

/-- `mkdir -p` below `cur`; it fails by itself after `fault` directories. -/
def makeDirsFrom (t : Tree C) : Option ℕ → Path → Path → Bool × Tree C
  | fault, _, [] => (fault.isNone, t)
  | some 0, _, _ :: _ => (false, t)
  | fault, cur, n :: rest =>
    if t.isDir (cur ++ [n]) then t.makeDirsFrom (fault.map (· - 1)) (cur ++ [n]) rest
    else match t.mkdir (cur ++ [n]) with
      | .ok t' => t'.makeDirsFrom (fault.map (· - 1)) (cur ++ [n]) rest
      | .error _ => (false, t)

/-- `mkdir -p`. -/
def makeDirs (fault : Option ℕ) (p : Path) : Command C := fun t => t.makeDirsFrom fault [] p

/-- Where `cp` and `mv` put a file of that name: in a directory, or at the path itself. -/
def destination (t : Tree C) (src dst : Path) : Path :=
  if t.isDir dst then dst ++ [src.getLastD []] else dst

/-- `cp -p` of a file; where it fails by itself, the destination may hold another content. -/
def copyFile (fault : Option (Option C)) (src dst : Path) : Command C := fun t =>
  let dst := t.destination src dst
  match t.stat src, fault with
  | some (.file c mode), none =>
    if t.resolve true src = t.resolve true dst then (false, t)
    else match t.writeFile dst c mode with
      | .ok t' =>
        match t'.chmod dst mode with
        | .ok t'' => (true, t'')
        | .error _ => (false, t')
      | .error _ => (false, t)
  | some (.file _ mode), some (some left) =>
    match t.writeFile dst left mode with
    | .ok t' => (false, t')
    | .error _ => (false, t)
  | _, _ => (false, t)

/-- `mv -f`. -/
def moveFile (fault : Bool) (src dst : Path) : Command C := fun t =>
  if fault = true then (false, t)
  else match t.rename src (t.destination src dst) with
    | .ok t' => (true, t')
    | .error _ => (false, t)

end Tree

theorem OpenWay.noLink {t : Tree C} {p : Path} (h : OpenWay t p) : NoLink t p := by
  intro q hq target
  rcases h q hq with hdir | hnone
  · rw [hdir]
    simp
  · rw [hnone]
    simp

namespace NoLink

variable {t : Tree C} {p q : Path}

theorem above (h : NoLink t p) : NoLinkAbove t p := fun q hq _ => h q hq

theorem of_ancestor (h : NoLink t p) (hq : q <+: p) : NoLink t q := fun r hr => h r (hr.trans hq)

/-- `stat` sees the node itself. -/
theorem stat_eq (h : NoLink t p) (hclean : Clean p) : t.stat p = t.node p := by
  cases hnode : t.node p with
  | none => exact t.stat_of_none hclean h.above hnode
  | some v =>
    apply t.stat_of_node hclean hnode
    rintro target rfl
    exact h p List.prefix_rfl target hnode

theorem isDir_iff (h : NoLink t p) (hclean : Clean p) :
    t.isDir p = true ↔ t.node p = some .dir := by
  unfold Tree.isDir
  rw [h.stat_eq hclean]
  rcases t.node p with _ | ⟨c, m⟩ | target | _ <;> simp

theorem isFile_iff (h : NoLink t p) (hclean : Clean p) :
    t.isFile p = true ↔ ∃ c m, t.node p = some (.file c m) := by
  unfold Tree.isFile
  rw [h.stat_eq hclean]
  rcases t.node p with _ | ⟨c, m⟩ | target | _ <;> simp

theorem content_eq_some (h : NoLink t p) (hclean : Clean p) {c : C} :
    t.content p = some c ↔ ∃ m, t.node p = some (.file c m) := by
  unfold Tree.content
  rw [h.stat_eq hclean]
  rcases t.node p with _ | ⟨c, m⟩ | target | _ <;> simp

theorem of_made {c : Tree C} {r : Path} (h : NoLink t p) (hmade : MadeDirs r t c) : NoLink c p := by
  intro q hq target
  rcases hmade q with heq | ⟨-, -, hdir⟩
  · rw [heq]
    exact h q hq target
  · rw [hdir]
    simp

end NoLink

theorem MadeDirs.trans {p : Path} {t u v : Tree C} (h : MadeDirs p t u) (h' : MadeDirs p u v) :
    MadeDirs p t v := by
  intro q
  rcases h' q with heq | ⟨hway, hnone, hdir⟩
  · rw [heq]
    exact h q
  · rcases h q with heq | ⟨-, -, hmade⟩
    · exact Or.inr ⟨hway, heq ▸ hnone, hdir⟩
    · rw [hmade] at hnone
      cases hnone

theorem MadeDirs.openWay {p r : Path} {t u : Tree C} (h : MadeDirs p t u) (hopen : OpenWay t r) :
    OpenWay u r := by
  intro q hq
  rcases h q with heq | ⟨-, -, hdir⟩
  · rw [heq]
    exact hopen q hq
  · exact Or.inl hdir

namespace Tree

section MakeDirs

variable {t t' : Tree C} {p cur todo : Path}

theorem mkdir_cases (hclean : Clean p) (hlink : NoLinkAbove t p) (h : t.mkdir p = .ok t') :
    t.node p = none ∧ ∀ q, t'.node q = if q = p then some .dir else t.node q := by
  unfold mkdir at h
  cases hp : t.resolve false p with
  | error e =>
    rw [hp] at h
    cases h
  | ok q =>
    rw [hp, t.eq_of_resolve hclean hlink hp] at h
    obtain ⟨-, hnone, -, hnode⟩ := create_cases h
    exact ⟨hnone, hnode⟩

theorem MadeDirs_of_mkdir (hclean : Clean p) (hlink : NoLinkAbove t p) (h : t.mkdir p = .ok t') :
    MadeDirs p t t' := by
  obtain ⟨hnone, hnode⟩ := mkdir_cases hclean hlink h
  intro q
  by_cases hq : q = p
  · subst hq
    exact Or.inr ⟨List.prefix_rfl, hnone, by rw [hnode, if_pos rfl]⟩
  · exact Or.inl (by rw [hnode, if_neg hq])

theorem makeDirsFrom_made (fault : Option ℕ) (hclean : Clean (cur ++ todo))
    (hlink : NoLink t (cur ++ todo)) :
    MadeDirs (cur ++ todo) t (t.makeDirsFrom fault cur todo).2 := by
  fun_induction Tree.makeDirsFrom t fault cur todo with
  | case1 t fault cur => exact .refl _ t
  | case2 t cur n rest => exact .refl _ t
  | case3 t fault cur n rest hfault hdir ih =>
    rw [List.append_cons] at hclean hlink ⊢
    exact ih hclean hlink
  | case4 t fault cur n rest hfault hdir t' hmkdir ih =>
    rw [List.append_cons] at hclean hlink ⊢
    have hway : cur ++ [n] <+: cur ++ [n] ++ rest := List.prefix_append _ rest
    have hmade := MadeDirs_of_mkdir (hclean.of_ancestor hway) (hlink.of_ancestor hway).above hmkdir
    exact (hmade.mono hway).trans (ih hclean (hlink.of_made hmade))
  | case5 t fault cur n rest hfault hdir e hmkdir => exact .refl _ t

theorem makeDirsFrom_true {fault : Option ℕ} (hclean : Clean (cur ++ todo))
    (hlink : NoLink t (cur ++ todo)) (hcur : t.node cur = some .dir)
    (h : (t.makeDirsFrom fault cur todo).1 = true) :
    fault = none ∧ (t.makeDirsFrom fault cur todo).2.node (cur ++ todo) = some .dir := by
  fun_induction Tree.makeDirsFrom t fault cur todo with
  | case1 t fault cur =>
    rw [List.append_nil]
    exact ⟨Option.isNone_iff_eq_none.mp h, hcur⟩
  | case2 t cur n rest => cases h
  | case3 t fault cur n rest hfault hdir ih =>
    rw [List.append_cons cur n rest] at hclean hlink ⊢
    have hway : cur ++ [n] <+: cur ++ [n] ++ rest := List.prefix_append _ rest
    have hnode := ((hlink.of_ancestor hway).isDir_iff (hclean.of_ancestor hway)).mp hdir
    obtain ⟨hnone, hmade⟩ := ih hclean hlink hnode h
    exact ⟨Option.map_eq_none_iff.mp hnone, hmade⟩
  | case4 t fault cur n rest hfault hdir t' hmkdir ih =>
    rw [List.append_cons cur n rest] at hclean hlink ⊢
    have hway : cur ++ [n] <+: cur ++ [n] ++ rest := List.prefix_append _ rest
    have hmade := MadeDirs_of_mkdir (hclean.of_ancestor hway) (hlink.of_ancestor hway).above hmkdir
    have hnode := (mkdir_cases (hclean.of_ancestor hway) (hlink.of_ancestor hway).above hmkdir).2
    obtain ⟨hnone, hdirs⟩ := ih hclean (hlink.of_made hmade) (by rw [hnode, if_pos rfl]) h
    exact ⟨Option.map_eq_none_iff.mp hnone, hdirs⟩
  | case5 t fault cur n rest hfault hdir e hmkdir => cases h

theorem makeDirsFrom_ok {fault : Option ℕ} (hfault : fault = none) (hclean : Clean (cur ++ todo))
    (hopen : OpenWay t (cur ++ todo)) (hcur : t.node cur = some .dir) :
    (t.makeDirsFrom fault cur todo).1 = true := by
  fun_induction Tree.makeDirsFrom t fault cur todo with
  | case1 t fault cur => exact Option.isNone_iff_eq_none.mpr hfault
  | case2 t cur n rest => cases hfault
  | case3 t fault cur n rest hsome hdir ih =>
    rw [List.append_cons] at hclean hopen
    have hway : cur ++ [n] <+: cur ++ [n] ++ rest := List.prefix_append _ rest
    have hnode := ((OpenWay.noLink hopen).of_ancestor hway).isDir_iff (hclean.of_ancestor hway)
    exact ih (Option.map_eq_none_iff.mpr hfault) hclean hopen (hnode.mp hdir)
  | case4 t fault cur n rest hsome hdir t' hmkdir ih =>
    rw [List.append_cons] at hclean hopen
    have hway : cur ++ [n] <+: cur ++ [n] ++ rest := List.prefix_append _ rest
    have hlink := ((OpenWay.noLink hopen).of_ancestor hway).above
    have hmade := MadeDirs_of_mkdir (hclean.of_ancestor hway) hlink hmkdir
    have hnode := (mkdir_cases (hclean.of_ancestor hway) hlink hmkdir).2
    exact ih (Option.map_eq_none_iff.mpr hfault) hclean (hmade.openWay hopen)
      (by rw [hnode, if_pos rfl])
  | case5 t fault cur n rest hsome hdir e hmkdir =>
    rw [List.append_cons] at hclean hopen
    have hway : cur ++ [n] <+: cur ++ [n] ++ rest := List.prefix_append _ rest
    rcases hopen _ hway with hnode | hnone
    · exact absurd (t.isDir_of_node (hclean.of_ancestor hway) hnode) hdir
    · obtain ⟨t', hok, -⟩ := t.mkdir_ok (hclean.of_ancestor hway) hnone
        (by rwa [List.dropLast_concat])
      rw [hok] at hmkdir
      cases hmkdir

/-- What `mkdir -p` leaves. -/
theorem makeDirs_made (fault : Option ℕ) (hclean : Clean p) (hlink : NoLink t p) :
    MadeDirs p t (makeDirs fault p t).2 :=
  makeDirsFrom_made fault hclean hlink

theorem makeDirs_true {fault : Option ℕ} (hclean : Clean p) (hlink : NoLink t p)
    (h : (makeDirs fault p t).1 = true) :
    fault = none ∧ (makeDirs fault p t).2.node p = some .dir :=
  @makeDirsFrom_true _ t [] p _ hclean hlink t.root_dir h

/-- `mkdir -p` works exactly if it does not fail by itself and no file stands in its way. -/
theorem makeDirs_true_iff {fault : Option ℕ} (hclean : Clean p) (hlink : NoLink t p) :
    (makeDirs fault p t).1 = true ↔ fault = none ∧ OpenWay t p := by
  constructor
  · intro h
    obtain ⟨hnone, hdir⟩ := makeDirs_true hclean hlink h
    refine ⟨hnone, fun q hq => ?_⟩
    rcases makeDirs_made fault hclean hlink q with heq | ⟨-, hbefore, -⟩
    · rw [← heq]
      exact OpenWay.of_dir hdir q hq
    · exact Or.inr hbefore
  · rintro ⟨hnone, hopen⟩
    exact makeDirsFrom_ok hnone hclean hopen t.root_dir

end MakeDirs

section CopyFile

variable {t t' : Tree C} {src dst : Path}

theorem destination_eq (hclean : Clean dst) (hlink : NoLink t dst) (hdir : t.node dst ≠ some .dir) :
    t.destination src dst = dst :=
  if_neg (mt (hlink.isDir_iff hclean).mp hdir)

theorem writeFile_cases {c : C} {mode : ℕ} (hclean : Clean dst) (hlink : NoLink t dst)
    (h : t.writeFile dst c mode = .ok t') :
    (∃ m, t'.node dst = some (.file c m)) ∧ ∀ q, q ≠ dst → t'.node q = t.node q := by
  have hof : ∀ {u : Tree C} {m : ℕ}, t.writeFile dst c mode = .ok u →
      (∀ q, u.node q = if q = dst then some (.file c m) else t.node q) →
      (∃ m, t'.node dst = some (.file c m)) ∧ ∀ q, q ≠ dst → t'.node q = t.node q := by
    intro u m hu hnode
    obtain rfl : u = t' := by
      rw [hu] at h
      exact Except.ok.inj h
    exact ⟨⟨m, by rw [hnode, if_pos rfl]⟩, fun q hq => by rw [hnode, if_neg hq]⟩
  rcases hdst : t.node dst with _ | ⟨c', m⟩ | target | _
  · by_cases hparent : t.node dst.dropLast = some .dir
    · obtain ⟨u, hu, hnode⟩ := t.writeFile_new c mode hclean hdst hparent
      exact hof hu hnode
    · rw [writeFile] at h
      rcases t.resolve_failed true hclean hlink.above hparent with ⟨herror, -⟩ | ⟨herror, -⟩
      · rw [herror] at h
        cases h
      · rw [herror] at h
        cases h
  · obtain ⟨u, hu, hnode⟩ := t.writeFile_file c mode hclean hdst
    exact hof hu hnode
  · exact absurd hdst (hlink dst List.prefix_rfl target)
  · rw [t.writeFile_dir c mode hclean hdst] at h
    cases h

/-- What a `cp -p` leaves that does not fail by itself, of a file that is no other. -/
theorem copyFile_none {c : C} {mode : ℕ} (hclean : Clean dst) (hlink : NoLink t dst)
    (hdir : t.node dst ≠ some .dir) (hsrc : Clean src) (hfile : t.node src = some (.file c mode))
    (hne : src ≠ dst) :
    (copyFile none src dst t).1 = false ∧ t.node dst.dropLast ≠ some .dir ∧
        (copyFile none src dst t).2 = t ∨
      (copyFile none src dst t).1 = true ∧ t.node dst.dropLast = some .dir ∧
        ∀ q, (copyFile none src dst t).2.node q =
          if q = dst then some (.file c mode) else t.node q := by
  have hstat : t.stat src = some (.file c mode) := t.stat_of_node hsrc hfile (by simp)
  have hresolve : t.resolve true src = .ok src :=
    t.resolve_of_node true hsrc (by simp [hfile]) (by simp [hfile])
  unfold copyFile
  rw [destination_eq hclean hlink hdir, hstat]
  dsimp only
  by_cases hparent : t.node dst.dropLast = some .dir
  · have hother : t.resolve true src ≠ t.resolve true dst := by
      rw [hresolve, t.resolve_eq true hclean hparent fun _ => hlink dst List.prefix_rfl]
      exact fun h => hne (Except.ok.inj h)
    obtain ⟨u, hu⟩ : ∃ u, t.writeFile dst c mode = .ok u := by
      rcases hdst : t.node dst with _ | ⟨c', m⟩ | target | _
      · exact (t.writeFile_new c mode hclean hdst hparent).imp fun _ h => h.1
      · exact (t.writeFile_file c mode hclean hdst).imp fun _ h => h.1
      · exact absurd hdst (hlink dst List.prefix_rfl target)
      · exact absurd hdst hdir
    obtain ⟨⟨m, hnode⟩, hrest⟩ := writeFile_cases hclean hlink hu
    obtain ⟨v, hv, hafter⟩ := u.chmod_file mode hclean hnode
    rw [if_neg hother, hu]
    dsimp only
    rw [hv]
    refine Or.inr ⟨rfl, hparent, fun q => ?_⟩
    rw [hafter]
    by_cases hq : q = dst
    · rw [if_pos hq, if_pos hq]
    · rw [if_neg hq, if_neg hq, hrest q hq]
  · left
    split_ifs with hsame
    · exact ⟨rfl, hparent, rfl⟩
    · cases hu : t.writeFile dst c mode with
      | error e => exact ⟨rfl, hparent, rfl⟩
      | ok u =>
        obtain ⟨⟨m, hnode⟩, hrest⟩ := writeFile_cases hclean hlink hu
        have hroot : dst ≠ [] := by
          rintro rfl
          exact hdir t.root_dir
        have hdropped : u.node dst.dropLast = some .dir := u.parent_dir' (by simp [hnode])
        rw [hrest _ (dropLast_ne hroot)] at hdropped
        exact absurd hdropped hparent

/-- What a `cp -p` leaves that fails by itself. -/
theorem copyFile_some (left : Option C) (src : Path) (hclean : Clean dst) (hlink : NoLink t dst)
    (hdir : t.node dst ≠ some .dir) :
    (copyFile (some left) src dst t).1 = false ∧
      (∀ q, q ≠ dst → (copyFile (some left) src dst t).2.node q = t.node q) ∧
      ((copyFile (some left) src dst t).2.node dst = t.node dst ∨
        ∃ c m, (copyFile (some left) src dst t).2.node dst = some (.file c m)) := by
  unfold copyFile
  rw [destination_eq hclean hlink hdir]
  dsimp only
  rcases t.stat src with _ | ⟨c, mode⟩ | target | _
  · exact ⟨rfl, fun _ _ => rfl, Or.inl rfl⟩
  · cases left with
    | none => exact ⟨rfl, fun _ _ => rfl, Or.inl rfl⟩
    | some part =>
      dsimp only
      cases hu : t.writeFile dst part mode with
      | error e => exact ⟨rfl, fun _ _ => rfl, Or.inl rfl⟩
      | ok u =>
        obtain ⟨⟨m, hnode⟩, hrest⟩ := writeFile_cases hclean hlink hu
        exact ⟨rfl, hrest, Or.inr ⟨part, m, hnode⟩⟩
  · exact ⟨rfl, fun _ _ => rfl, Or.inl rfl⟩
  · exact ⟨rfl, fun _ _ => rfl, Or.inl rfl⟩

end CopyFile

section MoveFile

variable {t : Tree C} {src dst : Path}

theorem moveFile_fault : moveFile true src dst t = (false, t) := rfl

/-- `mv -f` of a file in its directory. -/
theorem moveFile_ok (src : Path) {c : C} {mode : ℕ} (hclean : Clean dst) (hlink : NoLink t dst)
    (hdir : t.node dst ≠ some .dir) (hsrc : Clean src) (hfile : t.node src = some (.file c mode))
    (hparent : t.node dst.dropLast = some .dir) (hne : src ≠ dst) :
    (moveFile false src dst t).1 = true ∧ ∀ q, (moveFile false src dst t).2.node q =
      if q = dst then some (.file c mode) else if q = src then none else t.node q := by
  obtain ⟨u, hu, hnode⟩ := t.rename_ok hsrc hclean (by simp [hfile]) (by simp [hfile]) hdir
    hparent hne
  unfold moveFile
  rw [if_neg Bool.false_ne_true, destination_eq hclean hlink hdir, hu]
  refine ⟨rfl, fun q => ?_⟩
  rw [← hfile]
  exact hnode q

end MoveFile

end Tree

end PlumosBubble.FileSystem
