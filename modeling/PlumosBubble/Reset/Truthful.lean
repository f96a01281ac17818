import PlumosBubble.Reset.Progress
import PlumosBubble.Transition.Run

/-! When a factory reset reports what it has done and loses nothing. A walk over a tree tells
nobody that a file has failed, and a second reset of the same second takes the same backups. -/

namespace PlumosBubble.Reset

open FileSystem Transition
open FileSystem.Tree (makeDirs makeDirs_made makeDirs_true_iff)

variable {C : Type*} {L : Layout} {x : Call C} {i j : Item} {t u : Files C}

section Law

/-- What a reset owes. -/
structure Truthful (L : Layout) (x : Call C) (t : Files C) : Prop where
  live : (reset L x t).exit = 0 → ∀ i ∈ requested L x t, ∀ c, t.content i.source = some c →
    (reset L x t).tree.content (live L i) = some c
  kept : ∀ i ∈ requested L x t, i.relative ∉ (reset L x t).restored →
    (reset L x t).tree.content (Reset.live L i) = t.content (Reset.live L i)
  goesOn : (reset L x t).started = true → ∀ i ∈ requested L x t, Works L x t i →
    ∀ c, t.content i.source = some c → (reset L x t).tree.content (Reset.live L i) = some c
  backed : ∀ i ∈ requested L x t, i.relative ∈ (reset L x t).restored →
    ∀ c, t.content (Reset.live L i) = some c →
      (reset L x t).tree.content (backup L x i) = some c

/-- No file of a tree fails, unless it is live already, or a file fails that is no part of one. -/
def Heard (L : Layout) (x : Call C) (t : Files C) : Prop :=
  (∀ i ∈ requested L x t, i.inTree = true →
    Works L x t i ∨ ∃ c, Holds t i.source c ∧ Holds t (live L i) c) ∨
  ∃ i ∈ requested L x t, i.inTree = false ∧ ¬Works L x t i

/-- A reset, or a change of anything but the backups. -/
inductive Event (C : Type*) where
  | reset (x : Call C)
  | edit

def Happens (L : Layout) (t : Files C) : Event C → Files C → Prop
  | .reset x, u => x.dryRun = false ∧ x.Lists t ∧ u = (reset L x t).tree
  | .edit, u => ∀ q, L.backups <+: q → u.node q = t.node q

/-- A step whose reset meets the condition. -/
def HappensWell (L : Layout) (t : Files C) (e : Event C) (u : Files C) : Prop :=
  Happens L t e u ∧ ∀ x, e = .reset x → Tidy L x t ∧ Heard L x t

end Law

section Reset

theorem targets_pairwise {ts : List Target} (h : targets L x t = some ts) :
    ts.Pairwise fun a _ => a ≠ .sa := by
  unfold targets at h
  split_ifs at h
  · cases h
    exact List.pairwise_singleton _ _
  · cases h
    exact List.pairwise_singleton _ _
  · cases h
    exact List.pairwise_singleton _ _
  · cases h
    apply List.Pairwise.filter
    decide

theorem singles_iff {ts : List Target} {P : Item → Prop} :
    (∀ i ∈ ts.flatMap (itemsOf L x), i.inTree = false → P i) ↔
      ∀ target ∈ ts, ∀ i ∈ singlesOf L target, P i := by
  constructor
  · intro h target htarget i hi
    refine h i (List.mem_flatMap.mpr ⟨target, htarget, List.mem_append_right _ hi⟩) ?_
    cases target with
    | ra => cases hi
    | pico => cases hi
    | sa =>
      rcases List.mem_cons.mp hi with rfl | hrest
      · rfl
      · rw [List.mem_singleton.mp hrest]
  · intro h i hi hsingle
    obtain ⟨target, htarget, hitem⟩ := List.mem_flatMap.mp hi
    rcases List.mem_append.mp hitem with htree | hone
    · obtain ⟨r, -, rfl⟩ := List.mem_map.mp htree
      cases hsingle
    · exact h target htarget i hone

theorem Progress.start (hmade : MadeDirs (backupBase L x) t u) : Progress L x t [] u [] where
  others q _ := (hmade q).imp_right fun h => ⟨Or.inl h.1, h.2⟩
  links _ _ hs := MadeDirs.links hmade hs
  printed p := by simp
  placed i hi := by cases hi
  kept i hi := by cases hi
  backed i hi := by cases hi
  older _ _ _ hc := hc.made hmade

theorem reset_cases (hdry : x.dryRun = false) (htidy : Tidy L x t) (hlists : x.Lists t) :
    ((reset L x t).exit ≠ 0 ∧ (reset L x t).started = false ∧ (reset L x t).restored = [] ∧
        MadeDirs (backupBase L x) t (reset L x t).tree) ∨
      Progress L x t (requested L x t) (reset L x t).tree (reset L x t).restored ∧
        ((reset L x t).exit = 0 ↔
          ∀ i ∈ requested L x t, i.inTree = false → Works L x t i) := by
  unfold reset
  cases htargets : targets L x t with
  | none => exact Or.inl ⟨Nat.succ_ne_zero _, rfl, rfl, .refl _ t⟩
  | some ts =>
    cases ts with
    | nil => exact Or.inl ⟨Nat.succ_ne_zero _, rfl, rfl, .refl _ t⟩
    | cons first others =>
      dsimp only
      by_cases hmissing : (first :: others).all (available L t) = false
      · rw [if_pos hmissing]
        exact Or.inl ⟨Nat.succ_ne_zero _, rfl, rfl, .refl _ t⟩
      rw [if_neg hmissing, hdry, if_neg Bool.false_ne_true]
      have hmade := makeDirs_made x.baseFault (backupBase_clean L x) htidy.base_link
      by_cases hbase : (makeDirs x.baseFault (backupBase L x) t).1 = false
      · rw [if_pos hbase]
        exact Or.inl ⟨Nat.succ_ne_zero _, rfl, rfl, hmade⟩
      rw [if_neg hbase]
      right
      have hall : requested L x t = [] ++ (first :: others).flatMap (itemsOf L x) := by
        rw [requested, htargets]
        rfl
      obtain ⟨hprogress, hstatus⟩ := foldl_restoreOr hdry htidy hlists (targets_pairwise htargets)
        hall (w := ⟨_, [], 0⟩) rfl (Progress.start hmade)
      refine ⟨hprogress, hstatus.trans ?_⟩
      rw [hall, List.nil_append]
      exact singles_iff.symm

theorem Holds.content {p : Path} {c : C} (h : Holds u p c) (hclean : Clean p) :
    u.content p = some c := by
  obtain ⟨m, hm⟩ := h
  unfold FileSystem.Tree.content
  rw [u.stat_of_node hclean hm (by simp)]

theorem relative_injective (htidy : Tidy L x t) (hi : i ∈ requested L x t)
    (hj : j ∈ requested L x t) (heq : i.relative = j.relative) : i = j := by
  by_contra hne
  have hapart : Apart (live L i) (live L j) :=
    htidy.separate hi hj hne (mem_places.mpr (Or.inl rfl)) (mem_places.mpr (Or.inl rfl))
  exact hapart.ne (by rw [live, live, heq])

theorem Tidy.holds (htidy : Tidy L x t) (hlists : x.Lists t) (hi : i ∈ requested L x t) {c : C} :
    (t.content i.source = some c → Holds t i.source c) ∧
      (t.content (live L i) = some c → Holds t (live L i) c) := by
  obtain ⟨hsource, hrelative, -⟩ := requested_clean hlists hi
  have hlive : live L i ∈ i.source :: places L x i :=
    List.mem_cons_of_mem _ (mem_places.mpr (Or.inl rfl))
  constructor
  · exact ((htidy.links i hi _ List.mem_cons_self).content_eq_some hsource).mp
  · exact ((htidy.links i hi _ hlive).content_eq_some (L.root_clean.append hrelative)).mp

theorem Tidy.content_eq (htidy : Tidy L x t) (hlists : x.Lists t) (hi : i ∈ requested L x t)
    (hlinks : ∀ q target, u.node q = some (.symlink target) → t.node q = some (.symlink target))
    (hnode : u.node (live L i) = t.node (live L i)) :
    u.content (live L i) = t.content (live L i) := by
  have hclean : Clean (live L i) := L.root_clean.append (requested_clean hlists hi).2.1
  have hlink : NoLink t (live L i) :=
    htidy.links i hi _ (List.mem_cons_of_mem _ (mem_places.mpr (Or.inl rfl)))
  have hlinku : NoLink u (live L i) := fun q hq target hs => hlink q hq target (hlinks q target hs)
  unfold FileSystem.Tree.content
  rw [hlink.stat_eq hclean, hlinku.stat_eq hclean, hnode]

theorem reset_backed (hdry : x.dryRun = false) (htidy : Tidy L x t) (hlists : x.Lists t) :
    (∀ i ∈ requested L x t, i.relative ∈ (reset L x t).restored →
      ∀ c, t.content (live L i) = some c → Holds (reset L x t).tree (backup L x i) c) ∧
    ∀ q c, L.backups <+: q → Holds t q c → Holds (reset L x t).tree q c := by
  rcases reset_cases hdry htidy hlists with ⟨-, -, hnone, hmade⟩ | ⟨hprogress, -⟩
  · refine ⟨fun i _ hi => ?_, fun q c _ hc => hc.made hmade⟩
    rw [hnone] at hi
    cases hi
  · refine ⟨fun i hi hprinted c hc => ?_, hprogress.older⟩
    obtain ⟨j, hj, hworks, heq⟩ := (hprogress.printed _).mp hprinted
    rw [relative_injective htidy hj hi heq] at hworks
    exact hprogress.backed i hi hworks c ((htidy.holds hlists hi).2 hc)

theorem reset_truthful (hdry : x.dryRun = false) (htidy : Tidy L x t) (hlists : x.Lists t)
    (hheard : Heard L x t) : Truthful L x t := by
  have hclean : ∀ i ∈ requested L x t, Clean (live L i) ∧ Clean (backup L x i) := fun i hi =>
    ⟨L.root_clean.append (requested_clean hlists hi).2.1,
      (backupBase_clean L x).append (requested_clean hlists hi).2.1⟩
  rcases reset_cases hdry htidy hlists with ⟨hexit, hstarted, hnone, hmade⟩ | ⟨hprogress, hexit⟩
  · constructor
    · exact fun hzero => absurd hzero hexit
    · intro i hi _
      apply htidy.content_eq hlists hi fun q target hs => MadeDirs.links hmade hs
      apply hmade.of_not_ancestor
      exact ((htidy.backups_live hi).symm.below (List.prefix_append _ _)).1
    · intro hstart
      rw [hstarted] at hstart
      cases hstart
    · intro i _ hi
      rw [hnone] at hi
      cases hi
  · have hplaced : ∀ i ∈ requested L x t, Works L x t i → ∀ c, t.content i.source = some c →
        (reset L x t).tree.content (live L i) = some c := fun i hi hworks c hc =>
      (hprogress.placed i hi hworks c ((htidy.holds hlists hi).1 hc)).content (hclean i hi).1
    have hkept : ∀ i ∈ requested L x t, ¬Works L x t i →
        (reset L x t).tree.content (live L i) = t.content (live L i) := fun i hi hfails =>
      htidy.content_eq hlists hi hprogress.links (hprogress.kept i hi hfails)
    constructor
    · intro hzero i hi c hc
      have hsingles := hexit.mp hzero
      by_cases hworks : Works L x t i
      · exact hplaced i hi hworks c hc
      have htree : i.inTree = true := by
        by_contra hsingle
        exact hworks (hsingles i hi (by simpa using hsingle))
      rcases hheard with hall | ⟨j, hj, hsingle, hfails⟩
      · rcases hall i hi htree with hworks' | ⟨c', hsource, hlive⟩
        · exact absurd hworks' hworks
        · rw [hkept i hi hworks, hlive.content (hclean i hi).1]
          rw [hsource.content (requested_clean hlists hi).1] at hc
          exact hc
      · exact absurd (hsingles j hj hsingle) hfails
    · intro i hi hprinted
      apply hkept i hi
      intro hworks
      exact hprinted ((hprogress.printed _).mpr ⟨i, hi, hworks, rfl⟩)
    · exact fun _ => hplaced
    · intro i hi hprinted c hc
      exact ((reset_backed hdry htidy hlists).1 i hi hprinted c hc).content (hclean i hi).2

end Reset

section DryRun

/-- The same call with `--dry-run`. -/
def Call.dry (x : Call C) : Call C := { x with dryRun := true }

/-- The script gets past its checks. -/
def Startable (L : Layout) (x : Call C) (t : Files C) : Prop :=
  ∃ ts, targets L x t = some ts ∧ ts ≠ [] ∧ ts.all (available L t) = true

theorem startable_of_exit (h : (reset L x t).exit = 0) : Startable L x t := by
  unfold reset at h
  split at h
  · cases h
  · cases h
  · rename_i first others htargets
    by_cases hmissing : (first :: others).all (available L t) = false
    · rw [if_pos hmissing] at h
      cases h
    · exact ⟨_, htargets, List.cons_ne_nil _ _, by simpa using hmissing⟩

theorem foldl_attempt_dryRun (hdry : x.dryRun = true) (items : List Item) (w : World C) :
    (items.foldl (attempt L x) w).tree = w.tree ∧
      ((items.foldl (attempt L x) w).status = 0 ↔
        w.status = 0 ∧ ∀ i ∈ items, w.tree.isFile i.source = true) := by
  induction items generalizing w with
  | nil => simp
  | cons i items ih =>
    have hone : (attempt L x w i).tree = w.tree ∧
        ((attempt L x w i).status = 0 ↔ w.status = 0 ∧ w.tree.isFile i.source = true) := by
      unfold attempt restoreFile
      cases hfile : w.tree.isFile i.source with
      | false => simp
      | true => simp [hdry]
    obtain ⟨htree, hstatus⟩ := ih (attempt L x w i)
    rw [hone.1] at htree hstatus
    rw [List.foldl_cons, hstatus, hone.2, List.forall_mem_cons, and_assoc]
    exact ⟨htree, Iff.rfl⟩

theorem restoreOr_dryRun (hdry : x.dryRun = true) (w : World C) (target : Target) :
    (restoreOr L x w target).tree = w.tree ∧ ((restoreOr L x w target).status = 0 ↔
      ∀ i ∈ singlesOf L target, w.tree.isFile i.source = true) := by
  have htree : ∀ p q w, (restoreTree L x p q w).2.tree = w.tree := fun p q w =>
    (foldl_attempt_dryRun hdry _ { w with status := 0 }).1
  obtain ⟨heq, -, hstatus⟩ :=
    restoreOr_eq (w := w) (Prod.mk.eta (p := restoreTarget L x target w)).symm
  rw [heq, hstatus]
  cases target with
  | ra => exact ⟨htree _ _ w, iff_of_true ⟨rfl, rfl⟩ fun i hi => by cases hi⟩
  | pico => exact ⟨htree _ _ w, iff_of_true ⟨rfl, rfl⟩ fun i hi => by cases hi⟩
  | sa =>
    obtain ⟨hsame, hzero⟩ := foldl_attempt_dryRun (L := L) hdry (singlesOf L .sa)
      (restoreTree L x (treeOf L .sa).1 (treeOf L .sa).2 { w with status := 0 }).2
    rw [htree] at hsame hzero
    refine ⟨hsame, (and_congr_left' decide_eq_true_iff).trans ?_⟩
    exact and_self_iff.trans (hzero.trans (and_iff_right rfl))

theorem foldl_restoreOr_dryRun (hdry : x.dryRun = true) {ts : List Target}
    (hlast : ts.Pairwise fun a _ => a ≠ .sa) {w : World C} (hw : w.status = 0) :
    (ts.foldl (restoreOr L x) w).tree = w.tree ∧ ((ts.foldl (restoreOr L x) w).status = 0 ↔
      ∀ target ∈ ts, ∀ i ∈ singlesOf L target, w.tree.isFile i.source = true) := by
  induction ts generalizing w with
  | nil => exact ⟨rfl, by simp [hw]⟩
  | cons target ts ih =>
    obtain ⟨hone, hstatus⟩ := restoreOr_dryRun (L := L) hdry w target
    obtain ⟨hfirst, hrest⟩ := List.pairwise_cons.mp hlast
    rw [List.foldl_cons, List.forall_mem_cons]
    cases ts with
    | nil => exact ⟨hone, by simpa using hstatus⟩
    | cons next ts =>
      have hnone : ∀ i ∈ singlesOf L target, w.tree.isFile i.source = true := by
        intro i hi
        cases target with
        | ra => cases hi
        | pico => cases hi
        | sa => exact absurd rfl (hfirst next List.mem_cons_self)
      obtain ⟨htree, hzero⟩ := ih hrest (hstatus.mpr hnone)
      rw [hone] at htree hzero
      exact ⟨htree, hzero.trans (and_iff_right hnone).symm⟩

/-- `--dry-run` leaves everything as it is, and fails only where a single file is missing. -/
theorem reset_dryRun (hdry : x.dryRun = true) : (reset L x t).tree = t ∧
    (Startable L x t → ((reset L x t).exit = 0 ↔
      ∀ i ∈ requested L x t, i.inTree = false → t.isFile i.source = true)) := by
  unfold reset Startable
  split
  · rename_i htargets
    exact ⟨rfl, by simp [htargets]⟩
  · rename_i htargets
    exact ⟨rfl, by simp [htargets]⟩
  · rename_i first others htargets
    by_cases hmissing : (first :: others).all (available L t) = false
    · rw [if_pos hmissing]
      refine ⟨rfl, ?_⟩
      rintro ⟨ts, hts, -, hall⟩
      cases htargets.symm.trans hts
      exact absurd hall (by simp [hmissing])
    rw [if_neg hmissing, hdry, if_pos rfl, if_neg (by simp)]
    obtain ⟨htree, hstatus⟩ := foldl_restoreOr_dryRun (L := L) hdry
      (targets_pairwise htargets) (w := ⟨t, [], 0⟩) rfl
    refine ⟨htree, fun _ => hstatus.trans ?_⟩
    rw [requested, htargets]
    exact singles_iff.symm

theorem started_of_startable (hdry : x.dryRun = false) (hbase : x.baseFault = none)
    (hway : OpenWay t (backupBase L x)) (hlink : NoLink t (backupBase L x))
    (h : Startable L x t) : (reset L x t).started = true := by
  obtain ⟨ts, hts, hne, hall⟩ := h
  obtain ⟨first, others, rfl⟩ := List.exists_cons_of_ne_nil hne
  have hmade : (makeDirs x.baseFault (backupBase L x) t).1 = true :=
    (makeDirs_true_iff (backupBase_clean L x) hlink).mpr ⟨hbase, hway⟩
  unfold reset
  rw [hts]
  dsimp only
  rw [if_neg (by simp [hall]), if_neg (by simp [hdry, hmade])]

end DryRun

theorem HappensWell.keeps {e : Event C} (h : HappensWell L t e u) {q : Path} {c : C}
    (hq : L.backups <+: q) (hc : Holds t q c) : Holds u q c := by
  obtain ⟨hhappens, hcondition⟩ := h
  cases e with
  | reset x =>
    obtain ⟨hdry, hlists, rfl⟩ := hhappens
    exact (reset_backed hdry (hcondition x rfl).1 hlists).2 q c hq hc
  | edit =>
    obtain ⟨m, hm⟩ := hc
    exact ⟨m, (hhappens q hq).trans hm⟩

/-- Where every reset meets the condition, each one is truthful, and what it has replaced is in its
backup ever after. -/
theorem resets_lose_nothing {L : Layout} {t u v : Files C} {x : Call C} {es : List (Event C)}
    (hreset : HappensWell L t (.reset x) u) (hrun : Run (HappensWell L) u es v) :
    Truthful L x t ∧ ∀ i ∈ requested L x t, i.relative ∈ (reset L x t).restored →
      ∀ c, t.content (live L i) = some c → v.content (backup L x i) = some c := by
  obtain ⟨⟨hdry, hlists, rfl⟩, hcondition⟩ := hreset
  obtain ⟨htidy, hheard⟩ := hcondition x rfl
  refine ⟨reset_truthful hdry htidy hlists hheard, fun i hi hprinted c hc => ?_⟩
  have hkept : Holds v (backup L x i) c := by
    refine hrun.keeps (I := fun v => Holds v (backup L x i) c)
      ((reset_backed hdry htidy hlists).1 i hi hprinted c hc) fun hu hstep => ?_
    exact hstep.keeps (backups_above L x i) hu
  exact hkept.content ((backupBase_clean L x).append (requested_clean hlists hi).2.1)

section Samples

def sampleLayout : Layout where
  root := names ["storage", "plumos"]
  factory := names ["storage", "plumos", "factory-defaults"]
  backups := names ["storage", "plumos", "backups", "factory-reset"]
  root_clean := by decide
  factory_clean := by decide
  backups_clean := by decide

/-- The factory content of `a` is 1, and 2 is live. -/
def sampleTree : Files ℕ :=
  match (do
    let t ← FileSystem.Tree.empty.mkdir (names ["storage"])
    let t ← t.mkdir (names ["storage", "plumos"])
    let t ← t.mkdir (names ["storage", "plumos", "factory-defaults"])
    let t ← t.mkdir (names ["storage", "plumos", "factory-defaults", "retroarch"])
    let t ← t.writeFile (names ["storage", "plumos", "factory-defaults", "retroarch", "a"]) 1 0o644
    let t ← t.mkdir (names ["storage", "plumos", "config"])
    let t ← t.mkdir (names ["storage", "plumos", "config", "retroarch"])
    t.writeFile (names ["storage", "plumos", "config", "retroarch", "a"]) 2 0o644
    : Except Errno (Files ℕ)) with
  | .ok t => t
  | .error _ => FileSystem.Tree.empty

/-- A reset of RetroArch at the time that `date` prints. -/
def sampleCall (stamp : String) (hstamp : stamp ≠ "..") (fault : Option (Fault ℕ)) (t : Files ℕ) :
    Call ℕ where
  argument := "ra".toList
  dryRun := false
  stamp := some stamp.toList
  stamp_clean name hname h := by
    cases hname
    exact hstamp (String.toList_inj.mp h)
  pid := 7
  baseFault := none
  fault _ := fault
  listing := find t

def sampleReset : Call ℕ := sampleCall "20240101-120000" (by decide) none sampleTree

def sampleAfter : Files ℕ := (reset sampleLayout sampleReset sampleTree).tree

def sampleItem : Item :=
  ⟨names ["storage", "plumos", "factory-defaults", "retroarch", "a"],
    names ["config", "retroarch", "a"], true⟩

def sampleNext : Call ℕ := sampleCall "20240101-120001" (by decide) none sampleAfter

theorem fresh_of_none (h : ∀ i ∈ requested L x t, t.node (backup L x i) = none) :
    ∀ i ∈ requested L x t, Fresh L x t i :=
  fun i hi _ _ => Or.inl (h i hi)

theorem heard_of_works {x : Call ℕ} {t : Files ℕ} (h : requested sampleLayout x t = [sampleItem])
    (hworks : Works sampleLayout x t sampleItem) : Heard sampleLayout x t := by
  refine Or.inl fun i hi _ => Or.inl ?_
  rw [h] at hi
  rwa [List.mem_singleton.mp hi]

theorem sampleReset_well :
    HappensWell sampleLayout sampleTree (.reset sampleReset) sampleAfter := by
  refine ⟨⟨rfl, find_lists _ _ rfl, rfl⟩, fun x hx => ?_⟩
  cases hx
  exact ⟨⟨by decide +kernel, by decide +kernel, by decide +kernel, by decide +kernel,
    by decide +kernel, fresh_of_none (by decide +kernel)⟩, heard_of_works (by decide +kernel)
      ⟨⟨1, 0o644, by decide +kernel⟩, fun _ => ⟨rfl, rfl, by decide +kernel⟩,
        ⟨rfl, by decide +kernel⟩, rfl, rfl⟩⟩

theorem sampleNext_well : HappensWell sampleLayout sampleAfter (.reset sampleNext)
    (reset sampleLayout sampleNext sampleAfter).tree := by
  refine ⟨⟨rfl, find_lists _ _ rfl, rfl⟩, fun x hx => ?_⟩
  cases hx
  exact ⟨⟨by decide +kernel, by decide +kernel, by decide +kernel, by decide +kernel,
    by decide +kernel, fresh_of_none (by decide +kernel)⟩, heard_of_works (by decide +kernel)
      ⟨⟨1, 0o644, by decide +kernel⟩, fun _ => ⟨rfl, rfl, by decide +kernel⟩,
        ⟨rfl, by decide +kernel⟩, rfl, rfl⟩⟩

theorem resets_lose_nothing_sample : Truthful sampleLayout sampleReset sampleTree ∧
    (reset sampleLayout sampleNext sampleAfter).tree.content
      (backup sampleLayout sampleReset sampleItem) = some 2 := by
  obtain ⟨htruthful, hbacked⟩ :=
    resets_lose_nothing sampleReset_well (Run.single sampleNext_well)
  exact ⟨htruthful, hbacked sampleItem (by decide +kernel) (by decide +kernel) 2
    (by decide +kernel)⟩

/-- The copy of the factory file fails. -/
def sampleFull : Call ℕ :=
  sampleCall "20240101-120000" (by decide) (some (.copyNext none)) sampleTree

/-- A second reset in the same second. -/
def sampleAgain : Call ℕ := sampleCall "20240101-120000" (by decide) none sampleAfter

def heldContent : FileSystem.Node ℕ → Option ℕ
  | .file content _ => some content
  | _ => none

/-- A reset whose copy fails reports success, and the second of two resets in one second leaves no
trace of the first content. -/
theorem resets_lose : (sampleFull.Lists sampleTree ∧ sampleReset.Lists sampleTree ∧
      sampleAgain.Lists sampleAfter) ∧
    ¬Truthful sampleLayout sampleFull sampleTree ∧
    sampleItem.relative ∈ (reset sampleLayout sampleReset sampleTree).restored ∧
    sampleTree.content (live sampleLayout sampleItem) = some 2 ∧
    ∀ p m, (reset sampleLayout sampleAgain sampleAfter).tree.node p ≠ some (.file 2 m) := by
  refine ⟨⟨find_lists _ _ rfl, find_lists _ _ rfl, find_lists _ _ rfl⟩, fun h => ?_,
    by decide +kernel, by decide +kernel, fun p m hp => ?_⟩
  · have hlive := h.live (by decide +kernel) sampleItem (by decide +kernel) 1 (by decide +kernel)
    revert hlive
    decide +kernel
  · have hall : ∀ p ∈ (reset sampleLayout sampleAgain sampleAfter).tree.support,
        ((reset sampleLayout sampleAgain sampleAfter).tree.node p).bind heldContent ≠ some 2 := by
      decide +kernel
    exact hall p (FileSystem.Tree.mem_support _ p (by simp [hp])) (by rw [hp]; rfl)

end Samples

end PlumosBubble.Reset
