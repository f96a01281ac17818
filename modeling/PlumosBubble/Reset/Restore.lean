import PlumosBubble.Reset.Model

/-! What `restore_file` leaves at every path. A file whose restore works is in place and its
predecessor is in the backup; where the restore fails, the file is as it was. -/

namespace PlumosBubble.Reset

open FileSystem
open FileSystem.Tree (makeDirs copyFile moveFile makeDirs_made makeDirs_true makeDirs_true_iff
  copyFile_some copyFile_none moveFile_fault moveFile_ok)

variable {C : Type*} {L : Layout} {x : Call C} {i : Item} {t u : Files C}

/-- Neither path is or lies below the other. -/
def Apart (p q : Path) : Prop := ¬p <+: q ∧ ¬q <+: p

instance (p q : Path) : Decidable (Apart p q) := inferInstanceAs (Decidable (_ ∧ _))

/-- A file with the content `c` stands at `p`. -/
def Holds (t : Files C) (p : Path) (c : C) : Prop := ∃ m, t.node p = some (.file c m)

/-- No command of the restore of `i` fails. -/
structure Works (L : Layout) (x : Call C) (t : Files C) (i : Item) : Prop where
  source : ∃ c, Holds t i.source c
  backs : (∃ c, Holds t (live L i) c) → Fault.inMkdirBackup (x.fault i.source) = none ∧
    Fault.inCopyBackup (x.fault i.source) = none ∧ OpenWay t (backup L x i).dropLast
  directory : Fault.inMkdirDestination (x.fault i.source) = none ∧ OpenWay t (live L i).dropLast
  copies : Fault.inCopyNext (x.fault i.source) = none
  moves : Fault.inMove (x.fault i.source) = false

/-- The file that is replaced has no other backup at its place, or one that is the same. -/
def Fresh (L : Layout) (x : Call C) (t : Files C) (i : Item) : Prop :=
  ∀ c, Holds t (live L i) c → t.node (backup L x i) = none ∨
    Fault.inCopyBackup (x.fault i.source) = none ∧ Holds t (backup L x i) c

/-- What the restore of `i` needs to find. -/
structure Clear (L : Layout) (x : Call C) (t : Files C) (i : Item) : Prop where
  source_clean : Clean i.source
  live_clean : Clean (live L i)
  next_clean : Clean (next L x i)
  backup_clean : Clean (backup L x i)
  source_link : NoLink t i.source
  live_link : NoLink t (live L i)
  next_link : NoLink t (next L x i)
  backup_link : NoLink t (backup L x i)
  live_dir : t.node (live L i) ≠ some .dir
  next_dir : t.node (next L x i) ≠ some .dir
  fresh : Fresh L x t i
  live_apart : Apart (live L i) (backup L x i)
  next_apart : Apart (next L x i) (backup L x i)
  source_live : i.source ≠ live L i
  source_next : i.source ≠ next L x i
  source_backup : i.source ≠ backup L x i

theorem Holds.file {p : Path} {c : C} (h : Holds t p c) : t.node p ≠ none := by
  obtain ⟨m, hm⟩ := h
  simp [hm]

theorem Holds.made {p r : Path} {c : C} (h : Holds t p c) (hmade : MadeDirs r t u) :
    Holds u p c := by
  obtain ⟨m, hm⟩ := h
  exact ⟨m, by rw [hmade.of_ne_none (by simp [hm]), hm]⟩

section BackUp

/-- What the backup leaves: nothing changes but the backup and the directories on the way to it. -/
structure BackedUp (L : Layout) (x : Call C) (i : Item) (t : Files C) (r : Bool × Files C) :
    Prop where
  others : ∀ q, q ≠ backup L x i →
    r.2.node q = t.node q ∨ q <+: backup L x i ∧ t.node q = none ∧ r.2.node q = some .dir
  links : ∀ q target, r.2.node q = some (.symlink target) → t.node q = some (.symlink target)
  works : r.1 = true ↔ ((∃ c, Holds t (live L i) c) →
    Fault.inMkdirBackup (x.fault i.source) = none ∧
      Fault.inCopyBackup (x.fault i.source) = none ∧ OpenWay t (backup L x i).dropLast)
  backed : r.1 = true → ∀ c, Holds t (live L i) c → Holds r.2 (backup L x i) c
  kept : ∀ c, Holds t (backup L x i) c → Holds r.2 (backup L x i) c

theorem MadeDirs.links {p q : Path} {target : List Char} (h : MadeDirs p t u)
    (hlink : u.node q = some (.symlink target)) : t.node q = some (.symlink target) := by
  rcases h q with heq | ⟨-, -, hdir⟩
  · rwa [heq] at hlink
  · rw [hdir] at hlink
    cases hlink

theorem MadeDirs.below {p : Path} (h : MadeDirs p.dropLast t u) (q : Path) :
    u.node q = t.node q ∨ q <+: p ∧ t.node q = none ∧ u.node q = some .dir :=
  h.mono p.dropLast_prefix q

/-- The directories on the way to `p` are not `p`. -/
theorem MadeDirs.last {p : Path} (h : MadeDirs p.dropLast t u) (hp : p ≠ []) :
    u.node p = t.node p := by
  apply h.of_not_ancestor
  intro hbelow
  have hlength := hbelow.length_le
  rw [List.length_dropLast] at hlength
  have hpos := List.length_pos_iff.mpr hp
  omega

theorem Clear.holds_iff (h : Clear L x t i) :
    t.isFile (live L i) = true ↔ ∃ c, Holds t (live L i) c :=
  h.live_link.isFile_iff h.live_clean

theorem Clear.backup_ne_nil (h : Clear L x t i) : backup L x i ≠ [] := by
  intro hnil
  apply h.live_apart.2
  rw [hnil]
  exact List.nil_prefix

theorem Clear.backup_dir (h : Clear L x t i) {c : C} (hc : Holds t (live L i) c) :
    t.node (backup L x i) ≠ some .dir := by
  rcases h.fresh c hc with hnone | ⟨-, m, hfile⟩
  · simp [hnone]
  · simp [hfile]

/-- The copy of `cp -p` behind `mkdir -p`, where the file stands that is replaced. -/
theorem copyFile_backedUp (h : Clear L x t i) {c : C} (hc : Holds t (live L i) c)
    (hmade : MadeDirs (backup L x i).dropLast t u)
    (hdir : u.node (backup L x i).dropLast = some .dir)
    (hmkdir : Fault.inMkdirBackup (x.fault i.source) = none) :
    BackedUp L x i t
      (copyFile (Fault.inCopyBackup (x.fault i.source)) (live L i) (backup L x i) u) := by
  have hbackup : u.node (backup L x i) = t.node (backup L x i) :=
    MadeDirs.last hmade h.backup_ne_nil
  have hnotdir : u.node (backup L x i) ≠ some .dir := hbackup ▸ h.backup_dir hc
  have hlink : NoLink u (backup L x i) := fun q hq target hs =>
    h.backup_link q hq target (MadeDirs.links hmade hs)
  have hopen : OpenWay t (backup L x i).dropLast := by
    intro q hq
    rcases hmade q with heq | ⟨-, hnone, -⟩
    · rw [← heq]
      exact OpenWay.of_dir hdir q hq
    · exact Or.inr hnone
  obtain ⟨m, hfile⟩ := hc.made hmade
  cases hfault : Fault.inCopyBackup (x.fault i.source) with
  | some left =>
    obtain ⟨hfalse, hothers, hplace⟩ :=
      copyFile_some left (live L i) h.backup_clean hlink hnotdir
    constructor
    · intro q hq
      rw [hothers q hq]
      exact MadeDirs.below hmade q
    · intro q target hs
      by_cases hq : q = backup L x i
      · subst hq
        rcases hplace with heq | ⟨c', m', heq⟩
        · rw [heq] at hs
          exact MadeDirs.links hmade hs
        · rw [heq] at hs
          cases hs
      · rw [hothers q hq] at hs
        exact MadeDirs.links hmade hs
    · rw [hfalse]
      refine iff_of_false Bool.false_ne_true fun hworks => ?_
      obtain ⟨-, hnone, -⟩ := hworks ⟨c, hc⟩
      rw [hfault] at hnone
      cases hnone
    · intro htrue
      rw [hfalse] at htrue
      cases htrue
    · intro c' hc'
      rcases h.fresh c hc with hnone | ⟨hnone, -⟩
      · exact absurd hnone hc'.file
      · rw [hfault] at hnone
        cases hnone
  | none =>
    rcases copyFile_none h.backup_clean hlink hnotdir h.live_clean hfile
      (fun heq => h.live_apart.1 (heq ▸ List.prefix_rfl)) with
      ⟨-, hparent, -⟩ | ⟨htrue, -, hnode⟩
    · exact absurd hdir hparent
    have hcopied : Holds (copyFile none (live L i) (backup L x i) u).2 (backup L x i) c :=
      ⟨m, by rw [hnode, if_pos rfl]⟩
    have hsame : ∀ c', Holds t (live L i) c' → c' = c := by
      rintro c' ⟨m', hfile'⟩
      obtain ⟨m'', hfile''⟩ := hc
      rw [hfile''] at hfile'
      cases hfile'
      rfl
    constructor
    · intro q hq
      rw [hnode, if_neg hq]
      exact MadeDirs.below hmade q
    · intro q target hs
      rw [hnode] at hs
      by_cases hq : q = backup L x i
      · rw [if_pos hq] at hs
        cases hs
      · rw [if_neg hq] at hs
        exact MadeDirs.links hmade hs
    · exact iff_of_true htrue fun _ => ⟨hmkdir, hfault, hopen⟩
    · intro _ c' hc'
      rw [hsame c' hc']
      exact hcopied
    · intro c' hc'
      rcases h.fresh c hc with hnone | ⟨-, m', hfile'⟩
      · exact absurd hnone hc'.file
      · obtain ⟨m'', hfile''⟩ := hc'
        rw [hfile'] at hfile''
        cases hfile''
        exact hcopied

theorem backUp_backedUp (h : Clear L x t i) : BackedUp L x i t (backUp L x i t) := by
  unfold backUp
  by_cases hfile : t.isFile (live L i) = true
  · obtain ⟨c, hc⟩ := h.holds_iff.mp hfile
    have hway : (backup L x i).dropLast <+: backup L x i := List.dropLast_prefix _
    have hclean := h.backup_clean.of_ancestor hway
    have hlink := h.backup_link.of_ancestor hway
    rw [if_pos hfile]
    unfold Command.and
    have hmade := makeDirs_made (Fault.inMkdirBackup (x.fault i.source)) hclean hlink
    by_cases hworks : (makeDirs (Fault.inMkdirBackup (x.fault i.source))
        (backup L x i).dropLast t).1 = true
    · rw [if_pos hworks]
      obtain ⟨hmkdir, hdir⟩ := makeDirs_true hclean hlink hworks
      exact copyFile_backedUp h hc hmade hdir hmkdir
    · rw [if_neg hworks]
      constructor
      · exact fun q _ => MadeDirs.below hmade q
      · exact fun q target hs => MadeDirs.links hmade hs
      · refine iff_of_false hworks fun hall => hworks ?_
        obtain ⟨hmkdir, -, hopen⟩ := hall ⟨c, hc⟩
        exact (makeDirs_true_iff hclean hlink).mpr ⟨hmkdir, hopen⟩
      · exact fun htrue => absurd htrue hworks
      · exact fun c' hc' => hc'.made hmade
  · rw [if_neg hfile]
    constructor
    · exact fun q _ => Or.inl rfl
    · exact fun q target hs => hs
    · exact iff_of_true rfl fun hc => absurd (h.holds_iff.mpr hc) hfile
    · exact fun _ c hc => absurd (h.holds_iff.mpr ⟨c, hc⟩) hfile
    · exact fun c hc => hc

end BackUp

section Place

/-- What the placing leaves: nothing changes but the file, its temporary name and the directories
on the way to them. -/
structure Placed (L : Layout) (x : Call C) (i : Item) (t : Files C) (r : Bool × Files C) :
    Prop where
  others : ∀ q, q ≠ live L i → q ≠ next L x i →
    r.2.node q = t.node q ∨ q <+: live L i ∧ t.node q = none ∧ r.2.node q = some .dir
  links : ∀ q target, r.2.node q = some (.symlink target) → t.node q = some (.symlink target)
  works : r.1 = true ↔ (Fault.inMkdirDestination (x.fault i.source) = none ∧
    OpenWay t (live L i).dropLast) ∧ Fault.inCopyNext (x.fault i.source) = none ∧
    Fault.inMove (x.fault i.source) = false
  placed : r.1 = true → ∀ c, Holds t i.source c → Holds r.2 (live L i) c
  kept : r.1 = false → r.2.node (live L i) = t.node (live L i)

/-- What the placing needs to find. -/
structure Ready (L : Layout) (x : Call C) (t : Files C) (i : Item) : Prop where
  source_clean : Clean i.source
  live_clean : Clean (live L i)
  next_clean : Clean (next L x i)
  live_link : NoLink t (live L i)
  next_link : NoLink t (next L x i)
  live_dir : t.node (live L i) ≠ some .dir
  next_dir : t.node (next L x i) ≠ some .dir
  source_live : i.source ≠ live L i
  source_next : i.source ≠ next L x i
  source : ∃ c, Holds t i.source c

theorem next_dropLast (L : Layout) (x : Call C) (i : Item) :
    (next L x i).dropLast = (live L i).dropLast := by
  rw [next, List.dropLast_concat]

theorem next_ne_live (L : Layout) (x : Call C) (i : Item) : next L x i ≠ live L i := by
  intro h
  have hlast := congrArg (fun p : Path => p.getLastD []) h
  rw [next, List.getLastD_concat] at hlast
  have hlength := congrArg List.length hlast
  simp only [List.length_append] at hlength
  have hsuffix : ".factory-reset.".toList.length = 15 := by decide
  omega

theorem Ready.live_ne_nil (h : Ready L x t i) : live L i ≠ [] := by
  intro hnil
  apply h.live_dir
  rw [hnil]
  exact t.root_dir

theorem next_not_above (L : Layout) (x : Call C) (i : Item) :
    ¬next L x i <+: (live L i).dropLast := by
  intro hbelow
  have hlength := hbelow.length_le
  rw [next, List.length_append, List.length_singleton] at hlength
  omega

/-- The copy of `cp -p` and the `mv -f`, behind `mkdir -p`. -/
theorem copyMove_placed (h : Ready L x t i) (hmade : MadeDirs (live L i).dropLast t u)
    (hdir : u.node (live L i).dropLast = some .dir)
    (hmkdir : Fault.inMkdirDestination (x.fault i.source) = none) :
    Placed L x i t
      (((copyFile (Fault.inCopyNext (x.fault i.source)) i.source (next L x i)).and
        (moveFile (Fault.inMove (x.fault i.source)) (next L x i) (live L i))) u) := by
  have hlive : u.node (live L i) = t.node (live L i) := MadeDirs.last hmade h.live_ne_nil
  have hnext : u.node (next L x i) = t.node (next L x i) :=
    hmade.of_not_ancestor (next_not_above L x i)
  have hlinks : ∀ {p}, NoLink t p → NoLink u p := fun hp q hq target hs =>
    hp q hq target (MadeDirs.links hmade hs)
  have hopen : OpenWay t (live L i).dropLast := by
    intro q hq
    rcases hmade q with heq | ⟨-, hnone, -⟩
    · rw [← heq]
      exact OpenWay.of_dir hdir q hq
    · exact Or.inr hnone
  have hnextdir : u.node (next L x i) ≠ some .dir := hnext ▸ h.next_dir
  obtain ⟨c, hsource⟩ := h.source
  obtain ⟨m, hfile⟩ := hsource.made hmade
  have hsame : ∀ c', Holds t i.source c' → c' = c := by
    intro c' hc'
    obtain ⟨m', hfile'⟩ := hc'.made hmade
    rw [hfile] at hfile'
    cases hfile'
    rfl
  unfold Command.and
  cases hcopy : Fault.inCopyNext (x.fault i.source) with
  | some left =>
    obtain ⟨hfalse, hothers, hplace⟩ := copyFile_some left i.source
      h.next_clean (hlinks h.next_link) hnextdir
    rw [if_neg (by rw [hfalse]; exact Bool.false_ne_true)]
    constructor
    · intro q _ hq
      rw [hothers q hq]
      exact MadeDirs.below hmade q
    · intro q target hs
      by_cases hq : q = next L x i
      · subst hq
        rcases hplace with heq | ⟨c', m', heq⟩
        · rw [heq] at hs
          exact MadeDirs.links hmade hs
        · rw [heq] at hs
          cases hs
      · rw [hothers q hq] at hs
        exact MadeDirs.links hmade hs
    · rw [hfalse]
      refine iff_of_false Bool.false_ne_true fun hworks => ?_
      rw [hcopy] at hworks
      cases hworks.2.1
    · intro htrue
      rw [hfalse] at htrue
      cases htrue
    · intro _
      rw [hothers _ (next_ne_live L x i).symm, hlive]
  | none =>
    rcases copyFile_none h.next_clean (hlinks h.next_link) hnextdir h.source_clean hfile
      h.source_next with ⟨-, hparent, -⟩ | ⟨htrue, -, hnode⟩
    · rw [next_dropLast] at hparent
      exact absurd hdir hparent
    rw [if_pos htrue]
    generalize hv : (copyFile none i.source (next L x i) u).2 = v at hnode ⊢
    have hvlive : v.node (live L i) = t.node (live L i) := by
      rw [hnode, if_neg (next_ne_live L x i).symm, hlive]
    have hvlinks : ∀ q target, v.node q = some (.symlink target) →
        t.node q = some (.symlink target) := by
      intro q target hs
      rw [hnode] at hs
      by_cases hq : q = next L x i
      · rw [if_pos hq] at hs
        cases hs
      · rw [if_neg hq] at hs
        exact MadeDirs.links hmade hs
    cases hmove : Fault.inMove (x.fault i.source) with
    | true =>
      rw [moveFile_fault]
      constructor
      · intro q _ hq
        rw [hnode, if_neg hq]
        exact MadeDirs.below hmade q
      · exact hvlinks
      · refine iff_of_false Bool.false_ne_true fun hworks => ?_
        rw [hmove] at hworks
        cases hworks.2.2
      · intro hfalse
        cases hfalse
      · exact fun _ => hvlive
    | false =>
      have hparent : v.node (live L i).dropLast = some .dir := by
        rw [hnode, if_neg, hdir]
        intro heq
        exact next_not_above L x i (heq ▸ List.prefix_rfl)
      obtain ⟨hmoved, hafter⟩ := moveFile_ok (next L x i) h.live_clean
        (fun q hq target hs => h.live_link q hq target (hvlinks q target hs))
        (hvlive ▸ h.live_dir) h.next_clean (by rw [hnode, if_pos rfl]) hparent (next_ne_live L x i)
      constructor
      · intro q hq hq'
        rw [hafter, if_neg hq, if_neg hq', hnode, if_neg hq']
        exact MadeDirs.below hmade q
      · intro q target hs
        rw [hafter] at hs
        by_cases hq : q = live L i
        · rw [if_pos hq] at hs
          cases hs
        · rw [if_neg hq] at hs
          by_cases hq' : q = next L x i
          · rw [if_pos hq'] at hs
            cases hs
          · rw [if_neg hq'] at hs
            exact hvlinks q target hs
      · exact iff_of_true hmoved ⟨⟨hmkdir, hopen⟩, hcopy, hmove⟩
      · intro _ c' hc'
        rw [hsame c' hc']
        exact ⟨m, by rw [hafter, if_pos rfl]⟩
      · intro hfalse
        rw [hmoved] at hfalse
        cases hfalse

theorem place_placed (h : Ready L x t i) : Placed L x i t (place L x i t) := by
  have hway : (live L i).dropLast <+: live L i := List.dropLast_prefix _
  have hclean := h.live_clean.of_ancestor hway
  have hlink := h.live_link.of_ancestor hway
  have hmade := makeDirs_made (Fault.inMkdirDestination (x.fault i.source)) hclean hlink
  unfold place
  rw [Command.and]
  by_cases hworks : (makeDirs (Fault.inMkdirDestination (x.fault i.source))
      (live L i).dropLast t).1 = true
  · rw [if_pos hworks]
    obtain ⟨hmkdir, hdir⟩ := makeDirs_true hclean hlink hworks
    exact copyMove_placed h hmade hdir hmkdir
  · rw [if_neg hworks]
    constructor
    · exact fun q _ _ => MadeDirs.below hmade q
    · exact fun q target hs => MadeDirs.links hmade hs
    · refine iff_of_false hworks fun hall => hworks ?_
      exact (makeDirs_true_iff hclean hlink).mpr hall.1
    · exact fun htrue => absurd htrue hworks
    · exact fun _ => MadeDirs.last hmade h.live_ne_nil

end Place

section RestoreFile

/-- What `restore_file` leaves. -/
structure Restored (L : Layout) (x : Call C) (i : Item) (t : Files C) (r : Bool × Files C) :
    Prop where
  others : ∀ q, q ≠ live L i → q ≠ next L x i → q ≠ backup L x i → r.2.node q = t.node q ∨
    (q <+: live L i ∨ q <+: backup L x i) ∧ t.node q = none ∧ r.2.node q = some .dir
  links : ∀ q target, r.2.node q = some (.symlink target) → t.node q = some (.symlink target)
  works : r.1 = true ↔ Works L x t i
  placed : r.1 = true → ∀ c, Holds t i.source c → Holds r.2 (live L i) c
  backed : r.1 = true → ∀ c, Holds t (live L i) c → Holds r.2 (backup L x i) c
  kept : r.1 = false → r.2.node (live L i) = t.node (live L i)
  older : ∀ c, Holds t (backup L x i) c → Holds r.2 (backup L x i) c

variable {r : Bool × Files C}

theorem BackedUp.node_eq (h : BackedUp L x i t r) {p : Path} (hp : ¬p <+: backup L x i) :
    r.2.node p = t.node p := by
  rcases h.others p fun heq => hp (heq ▸ List.prefix_rfl) with heq | ⟨hbelow, -⟩
  · exact heq
  · exact absurd hbelow hp

theorem BackedUp.holds (h : BackedUp L x i t r) {p : Path} {c : C} (hp : p ≠ backup L x i)
    (hc : Holds t p c) : Holds r.2 p c := by
  rcases h.others p hp with heq | ⟨-, hnone, -⟩
  · obtain ⟨m, hm⟩ := hc
    exact ⟨m, heq ▸ hm⟩
  · exact absurd hnone hc.file

theorem BackedUp.openWay_iff (h : BackedUp L x i t r) {p : Path} (hp : ¬backup L x i <+: p) :
    OpenWay r.2 p ↔ OpenWay t p := by
  have hnode : ∀ q, q <+: p → r.2.node q = t.node q ∨ t.node q = none ∧ r.2.node q = some .dir := by
    intro q hq
    rcases h.others q fun heq => hp (heq ▸ hq) with heq | ⟨-, hmade⟩
    · exact Or.inl heq
    · exact Or.inr hmade
  refine forall₂_congr fun q hq => ?_
  rcases hnode q hq with heq | ⟨hnone, hdir⟩
  · rw [heq]
  · rw [hnone, hdir]
    exact iff_of_true (Or.inl rfl) (Or.inr rfl)

theorem BackedUp.ready (h : BackedUp L x i t r) (hclear : Clear L x t i)
    (hsource : ∃ c, Holds t i.source c) : Ready L x r.2 i where
  source_clean := hclear.source_clean
  live_clean := hclear.live_clean
  next_clean := hclear.next_clean
  live_link q hq target hs := hclear.live_link q hq target (h.links q target hs)
  next_link q hq target hs := hclear.next_link q hq target (h.links q target hs)
  live_dir := h.node_eq hclear.live_apart.1 ▸ hclear.live_dir
  next_dir := h.node_eq hclear.next_apart.1 ▸ hclear.next_dir
  source_live := hclear.source_live
  source_next := hclear.source_next
  source := hsource.imp fun _ hc => h.holds hclear.source_backup hc

theorem restoreFile_restored (hdry : x.dryRun = false) (h : Clear L x t i) :
    Restored L x i t (restoreFile L x i t) := by
  have hisFile : t.isFile i.source = true ↔ ∃ c, Holds t i.source c :=
    h.source_link.isFile_iff h.source_clean
  unfold restoreFile
  by_cases hfile : t.isFile i.source = false
  · rw [if_pos hfile]
    have hnot : ¬∃ c, Holds t i.source c := by
      rw [← hisFile, hfile]
      exact Bool.false_ne_true
    constructor
    · exact fun q _ _ _ => Or.inl rfl
    · exact fun q target hs => hs
    · exact iff_of_false Bool.false_ne_true fun hworks => hnot hworks.source
    · exact fun _ c hc => absurd ⟨c, hc⟩ hnot
    · exact fun htrue => absurd htrue Bool.false_ne_true
    · exact fun _ => rfl
    · exact fun c hc => hc
  · rw [if_neg hfile, if_neg (by rw [hdry]; exact Bool.false_ne_true)]
    have hsource : ∃ c, Holds t i.source c := hisFile.mp (by simpa using hfile)
    have hbacked := backUp_backedUp h
    unfold Command.and
    by_cases hworks : (backUp L x i t).1 = true
    · rw [if_pos hworks]
      have hplaced := place_placed (hbacked.ready h hsource)
      have hbackup : (place L x i (backUp L x i t).2).2.node (backup L x i) =
          (backUp L x i t).2.node (backup L x i) := by
        have hlive : ¬backup L x i <+: live L i := h.live_apart.2
        rcases hplaced.others (backup L x i) (fun heq => hlive (heq ▸ List.prefix_rfl))
          (fun heq => h.next_apart.2 (heq ▸ List.prefix_rfl)) with heq | ⟨hbelow, -⟩
        · exact heq
        · exact absurd hbelow hlive
      have hlive : (backUp L x i t).2.node (live L i) = t.node (live L i) :=
        hbacked.node_eq h.live_apart.1
      constructor
      · intro q hq hq' hq''
        rcases hplaced.others q hq hq' with heq | ⟨hway, hnone, hdir⟩
        · rw [heq]
          rcases hbacked.others q hq'' with heq' | ⟨hway, hmade⟩
          · exact Or.inl heq'
          · exact Or.inr ⟨Or.inr hway, hmade⟩
        · rcases hbacked.others q hq'' with heq' | ⟨-, -, hdir'⟩
          · exact Or.inr ⟨Or.inl hway, heq' ▸ hnone, hdir⟩
          · rw [hnone] at hdir'
            cases hdir'
      · exact fun q target hs => hbacked.links q target (hplaced.links q target hs)
      · have hnotabove : ¬backup L x i <+: (live L i).dropLast := fun hbelow =>
          h.live_apart.2 (hbelow.trans (List.dropLast_prefix _))
        rw [hplaced.works, hbacked.openWay_iff hnotabove]
        constructor
        · rintro ⟨hdirectory, hcopies, hmoves⟩
          exact ⟨hsource, hbacked.works.mp hworks, hdirectory, hcopies, hmoves⟩
        · intro hall
          exact ⟨hall.directory, hall.copies, hall.moves⟩
      · exact fun htrue c hc => hplaced.placed htrue c (hbacked.holds h.source_backup hc)
      · rintro - c hc
        obtain ⟨m, hm⟩ := hbacked.backed hworks c hc
        exact ⟨m, hbackup ▸ hm⟩
      · intro hfalse
        rw [hplaced.kept hfalse, hlive]
      · intro c hc
        obtain ⟨m, hm⟩ := hbacked.kept c hc
        exact ⟨m, hbackup ▸ hm⟩
    · rw [if_neg hworks]
      constructor
      · intro q _ _ hq
        rcases hbacked.others q hq with heq | ⟨hway, hmade⟩
        · exact Or.inl heq
        · exact Or.inr ⟨Or.inr hway, hmade⟩
      · exact hbacked.links
      · exact iff_of_false hworks fun hall => hworks (hbacked.works.mpr hall.backs)
      · exact fun htrue => absurd htrue hworks
      · exact fun htrue => absurd htrue hworks
      · exact fun _ => hbacked.node_eq h.live_apart.1
      · exact hbacked.kept

end RestoreFile

end PlumosBubble.Reset
