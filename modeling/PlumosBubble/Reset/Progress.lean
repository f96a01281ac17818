import Mathlib.Data.List.Pairwise
import PlumosBubble.Reset.Restore

/-! The loops of a factory reset. The files that it writes, their temporary names, the factory trees
and the backups are kept apart, so that a file that is still to be restored is as it was, and what
is done with one stays. -/

namespace PlumosBubble.Reset

open FileSystem

variable {C : Type*} {L : Layout} {x : Call C} {i j : Item} {t u : Files C}

def places (L : Layout) (x : Call C) (i : Item) : List Path :=
  [live L i, next L x i, backup L x i]

/-- Nothing stands in the way of anything else. -/
structure Tidy (L : Layout) (x : Call C) (t : Files C) : Prop where
  apart : (L.factory :: L.backups :: ((requested L x t).map (live L) ++
    (requested L x t).map (next L x))).Pairwise Apart
  base_link : NoLink t (backupBase L x)
  links : ∀ i ∈ requested L x t, ∀ p ∈ i.source :: places L x i, NoLink t p
  live_dir : ∀ i ∈ requested L x t, t.node (live L i) ≠ some .dir
  next_dir : ∀ i ∈ requested L x t, t.node (next L x i) ≠ some .dir
  fresh : ∀ i ∈ requested L x t, Fresh L x t i

section Separate

theorem Apart.symm {p q : Path} (h : Apart p q) : Apart q p := ⟨h.2, h.1⟩

theorem Apart.ne {p q : Path} (h : Apart p q) : p ≠ q := fun heq => h.1 (heq ▸ List.prefix_rfl)

theorem Apart.below {p q r : Path} (h : Apart p q) (hr : q <+: r) : Apart p r := by
  constructor
  · intro hp
    rcases List.prefix_or_prefix_of_prefix hp hr with hle | hle
    · exact h.1 hle
    · exact h.2 hle
  · exact fun hp => h.2 (hr.trans hp)

theorem backups_above (L : Layout) (x : Call C) (i : Item) : L.backups <+: backup L x i := by
  rw [backup, backupBase, List.append_assoc]
  exact List.prefix_append _ _

theorem apart_backup (h : Apart (live L i) (live L j)) : Apart (backup L x i) (backup L x j) := by
  unfold Apart live at h
  unfold Apart backup
  rwa [List.prefix_append_right_inj, List.prefix_append_right_inj] at h ⊢

theorem mem_places {p : Path} :
    p ∈ places L x i ↔ p = live L i ∨ p = next L x i ∨ p = backup L x i := by
  simp [places]

namespace Tidy

variable (h : Tidy L x t)

include h

theorem lives : (requested L x t).Pairwise fun i j => Apart (live L i) (live L j) := by
  have hall := (List.pairwise_cons.mp (List.pairwise_cons.mp h.apart).2).2
  exact List.pairwise_map.mp (List.pairwise_append.mp hall).1

theorem nexts : (requested L x t).Pairwise fun i j => Apart (next L x i) (next L x j) := by
  have hall := (List.pairwise_cons.mp (List.pairwise_cons.mp h.apart).2).2
  exact List.pairwise_map.mp (List.pairwise_append.mp hall).2.1

theorem live_next (hi : i ∈ requested L x t) (hj : j ∈ requested L x t) :
    Apart (live L i) (next L x j) := by
  have hall := (List.pairwise_cons.mp (List.pairwise_cons.mp h.apart).2).2
  exact (List.pairwise_append.mp hall).2.2 _ (List.mem_map_of_mem hi) _ (List.mem_map_of_mem hj)

theorem backups_live (hi : i ∈ requested L x t) : Apart L.backups (live L i) :=
  (List.pairwise_cons.mp (List.pairwise_cons.mp h.apart).2).1 _
    (List.mem_append_left _ (List.mem_map_of_mem hi))

theorem backups_next (hi : i ∈ requested L x t) : Apart L.backups (next L x i) :=
  (List.pairwise_cons.mp (List.pairwise_cons.mp h.apart).2).1 _
    (List.mem_append_right _ (List.mem_map_of_mem hi))

theorem factory_backups : Apart L.factory L.backups :=
  (List.pairwise_cons.mp h.apart).1 _ List.mem_cons_self

theorem factory_place (hi : i ∈ requested L x t) {p : Path} (hp : p ∈ places L x i) :
    Apart L.factory p := by
  have hall := (List.pairwise_cons.mp h.apart).1
  rcases mem_places.mp hp with rfl | rfl | rfl
  · exact hall _ (List.mem_cons_of_mem _ (List.mem_append_left _ (List.mem_map_of_mem hi)))
  · exact hall _ (List.mem_cons_of_mem _ (List.mem_append_right _ (List.mem_map_of_mem hi)))
  · exact h.factory_backups.below (backups_above L x i)

theorem live_backup (hi : i ∈ requested L x t) (j : Item) : Apart (live L i) (backup L x j) :=
  (h.backups_live hi).symm.below (backups_above L x j)

theorem next_backup (hi : i ∈ requested L x t) (j : Item) : Apart (next L x i) (backup L x j) :=
  (h.backups_next hi).symm.below (backups_above L x j)

theorem separate (hi : i ∈ requested L x t) (hj : j ∈ requested L x t) (hne : i ≠ j) {p q : Path}
    (hp : p ∈ places L x i) (hq : q ∈ places L x j) : Apart p q := by
  have hsymm : ∀ f : Item → Path, Std.Symm fun i j => Apart (f i) (f j) :=
    fun _ => ⟨fun _ _ => Apart.symm⟩
  have hlive := hsymm (live L)
  have hnext := hsymm (next L x)
  have hlives : Apart (live L i) (live L j) := h.lives.forall hi hj hne
  rcases mem_places.mp hp with rfl | rfl | rfl
  · rcases mem_places.mp hq with rfl | rfl | rfl
    · exact hlives
    · exact h.live_next hi hj
    · exact h.live_backup hi j
  · rcases mem_places.mp hq with rfl | rfl | rfl
    · exact (h.live_next hj hi).symm
    · exact h.nexts.forall hi hj hne
    · exact h.next_backup hi j
  · rcases mem_places.mp hq with rfl | rfl | rfl
    · exact (h.live_backup hj i).symm
    · exact (h.next_backup hj i).symm
    · exact apart_backup hlives

theorem nodup : (requested L x t).Nodup :=
  h.lives.imp fun hapart heq => hapart.ne (congrArg (live L) heq)

end Tidy

end Separate

section Names

theorem names_clean {ss : List String} (h : ".." ∉ ss) : Clean (names ss) := by
  intro n hn hdots
  obtain ⟨s, hs, rfl⟩ := List.mem_map.mp hn
  have heq : s = ".." := String.toList_inj.mp hdots
  exact h (heq ▸ hs)

theorem treeOf_clean (L : Layout) (target : Target) :
    Clean (treeOf L target).1 ∧ Clean (treeOf L target).2 := by
  cases target with
  | ra => exact ⟨L.factory_clean.append (names_clean (by decide)), names_clean (by decide)⟩
  | pico => exact ⟨L.factory_clean.append (names_clean (by decide)), fun n hn => by cases hn⟩
  | sa => exact ⟨L.factory_clean.append (names_clean (by decide)), names_clean (by decide)⟩

theorem treeOf_ne_nil (L : Layout) (target : Target) : (treeOf L target).1 ≠ [] := by
  cases target <;> simp [treeOf, names]

theorem singlesOf_clean {target : Target} (hi : i ∈ singlesOf L target) :
    Clean i.source ∧ Clean i.relative ∧ i.relative ≠ [] := by
  cases target with
  | ra => cases hi
  | pico => cases hi
  | sa =>
    rcases List.mem_cons.mp hi with rfl | hrest
    · exact ⟨L.factory_clean.append (names_clean (by decide)), names_clean (by decide),
        List.cons_ne_nil _ _⟩
    · rw [List.mem_singleton.mp hrest]
      exact ⟨L.factory_clean.append (names_clean (by decide)), names_clean (by decide),
        List.cons_ne_nil _ _⟩

theorem treeItems_clean (hlists : x.Lists t) {target : Target}
    (hi : i ∈ treeItems x (treeOf L target).1 (treeOf L target).2) :
    Clean i.source ∧ Clean i.relative ∧ i.relative ≠ [] := by
  obtain ⟨r, hr, rfl⟩ := List.mem_map.mp hi
  obtain ⟨hsource, hdestination⟩ := treeOf_clean L target
  have hclean : Clean r := (((hlists _).2 r).mp hr).1
  refine ⟨hsource.append hclean, ?_, ?_⟩
  · dsimp only
    split_ifs
    · exact hdestination.append hsource
    · exact hdestination.append hclean
  · dsimp only
    split_ifs with hnil
    · exact fun h => treeOf_ne_nil L target (List.append_eq_nil_iff.mp h).2
    · exact fun h => hnil (List.append_eq_nil_iff.mp h).2

theorem requested_clean (hlists : x.Lists t) (hi : i ∈ requested L x t) :
    Clean i.source ∧ Clean i.relative ∧ i.relative ≠ [] := by
  obtain ⟨target, -, htarget⟩ := List.mem_flatMap.mp hi
  rcases List.mem_append.mp htarget with htree | hsingle
  · exact treeItems_clean hlists htree
  · exact singlesOf_clean hsingle

theorem factory_source (hi : i ∈ requested L x t) : L.factory <+: i.source := by
  obtain ⟨target, -, htarget⟩ := List.mem_flatMap.mp hi
  rcases List.mem_append.mp htarget with htree | hsingle
  · obtain ⟨r, -, rfl⟩ := List.mem_map.mp htree
    cases target with
    | ra => exact (List.prefix_append _ _).trans (List.prefix_append _ _)
    | pico => exact (List.prefix_append _ _).trans (List.prefix_append _ _)
    | sa => exact (List.prefix_append _ _).trans (List.prefix_append _ _)
  · cases target with
    | ra => cases hsingle
    | pico => cases hsingle
    | sa =>
      rcases List.mem_cons.mp hsingle with rfl | hrest
      · exact List.prefix_append _ _
      · rw [List.mem_singleton.mp hrest]
        exact List.prefix_append _ _

theorem backupBase_clean (L : Layout) (x : Call C) : Clean (backupBase L x) := by
  apply L.backups_clean.append
  intro n hn
  rw [List.mem_singleton.mp hn]
  cases hstamp : x.stamp with
  | none => decide
  | some name => exact x.stamp_clean name (by rw [hstamp]; exact rfl)

theorem next_clean (hclean : Clean (live L i)) (x : Call C) : Clean (next L x i) := by
  apply (hclean.of_ancestor (List.dropLast_prefix _)).append
  intro n hn
  rw [List.mem_singleton.mp hn]
  intro h
  have hlength := congrArg List.length h
  have hsuffix : ".factory-reset.".toList.length = 15 := by decide
  simp only [List.length_append, List.length_cons, List.length_nil] at hlength
  omega

end Names

section Progress

/-- What the restores of the files in `done` have come to, from the tree `t`. -/
structure Progress (L : Layout) (x : Call C) (t : Files C) (done : List Item) (u : Files C)
    (restored : List Path) : Prop where
  others : ∀ q, (∀ i ∈ done, q ∉ places L x i) → u.node q = t.node q ∨
    (q <+: backupBase L x ∨ ∃ i ∈ done, ∃ p ∈ places L x i, q <+: p) ∧
      t.node q = none ∧ u.node q = some .dir
  links : ∀ q target, u.node q = some (.symlink target) → t.node q = some (.symlink target)
  printed : ∀ p, p ∈ restored ↔ ∃ i ∈ done, Works L x t i ∧ i.relative = p
  placed : ∀ i ∈ done, Works L x t i → ∀ c, Holds t i.source c → Holds u (live L i) c
  kept : ∀ i ∈ done, ¬Works L x t i → u.node (live L i) = t.node (live L i)
  backed : ∀ i ∈ done, Works L x t i → ∀ c, Holds t (live L i) c → Holds u (backup L x i) c
  older : ∀ q c, L.backups <+: q → Holds t q c → Holds u q c

variable {done : List Item} {restored : List Path}

theorem Progress.place_eq (h : Progress L x t done u restored) (htidy : Tidy L x t)
    (hlists : x.Lists t) (hdone : ∀ j ∈ done, j ∈ requested L x t ∧ j ≠ i)
    (hi : i ∈ requested L x t) {p : Path} (hp : p ∈ places L x i) : u.node p = t.node p := by
  have hapart : ∀ j ∈ done, ∀ q ∈ places L x j, Apart p q := fun j hj q hq =>
    htidy.separate hi (hdone j hj).1 (hdone j hj).2.symm hp hq
  have hbase : ¬p <+: backupBase L x := by
    have habove : ∀ {q}, Apart L.backups q → ¬q <+: backupBase L x := fun hq =>
      (hq.symm.below (List.prefix_append _ _)).1
    rcases mem_places.mp hp with rfl | rfl | rfl
    · exact habove (htidy.backups_live hi)
    · exact habove (htidy.backups_next hi)
    · intro hbelow
      have hlength := hbelow.length_le
      have hrelative := List.length_pos_iff.mpr (requested_clean hlists hi).2.2
      rw [backup, List.length_append] at hlength
      omega
  rcases h.others p fun j hj hq => (hapart j hj p hq).ne rfl with heq | ⟨hway, -⟩
  · exact heq
  · rcases hway with hbelow | ⟨j, hj, q, hq, hbelow⟩
    · exact absurd hbelow hbase
    · exact absurd hbelow (hapart j hj q hq).1

theorem Progress.openWay_iff (h : Progress L x t done u restored) (htidy : Tidy L x t)
    (hdone : ∀ j ∈ done, j ∈ requested L x t ∧ j ≠ i) (hi : i ∈ requested L x t) {p : Path}
    (hp : p ∈ places L x i) : OpenWay u p.dropLast ↔ OpenWay t p.dropLast := by
  refine forall₂_congr fun q hq => ?_
  have hplaces : ∀ j ∈ done, q ∉ places L x j := by
    intro j hj hmem
    have hapart := htidy.separate hi (hdone j hj).1 (hdone j hj).2.symm hp hmem
    exact hapart.2 (hq.trans (List.dropLast_prefix p))
  rcases h.others q hplaces with heq | ⟨-, hnone, hdir⟩
  · rw [heq]
  · rw [hnone, hdir]
    exact iff_of_true (Or.inl rfl) (Or.inr rfl)

theorem Progress.source_iff (h : Progress L x t done u restored) (htidy : Tidy L x t)
    (hdone : ∀ j ∈ done, j ∈ requested L x t ∧ j ≠ i) (hi : i ∈ requested L x t) (c : C) :
    Holds u i.source c ↔ Holds t i.source c := by
  have hplaces : ∀ j ∈ done, i.source ∉ places L x j := fun j hj hmem =>
    (htidy.factory_place (hdone j hj).1 hmem).1 (factory_source hi)
  unfold Holds
  rcases h.others i.source hplaces with heq | ⟨-, hnone, hdir⟩
  · rw [heq]
  · rw [hnone, hdir]
    simp

theorem Progress.works_iff (h : Progress L x t done u restored) (htidy : Tidy L x t)
    (hlists : x.Lists t) (hdone : ∀ j ∈ done, j ∈ requested L x t ∧ j ≠ i)
    (hi : i ∈ requested L x t) : Works L x u i ↔ Works L x t i := by
  have hlive : live L i ∈ places L x i := mem_places.mpr (Or.inl rfl)
  have hbackup : backup L x i ∈ places L x i := mem_places.mpr (Or.inr (Or.inr rfl))
  have hnode : ∀ c, Holds u (live L i) c ↔ Holds t (live L i) c := by
    intro c
    rw [Holds, Holds, h.place_eq htidy hlists hdone hi hlive]
  have hwaylive := h.openWay_iff htidy hdone hi hlive
  have hwaybackup := h.openWay_iff htidy hdone hi hbackup
  constructor
  · rintro ⟨⟨c, hc⟩, hbacks, hdirectory, hcopies, hmoves⟩
    refine ⟨⟨c, (h.source_iff htidy hdone hi c).mp hc⟩, fun hlive => ?_, ?_, hcopies, hmoves⟩
    · rw [← hwaybackup]
      exact hbacks (hlive.imp fun c => (hnode c).mpr)
    · rwa [← hwaylive]
  · rintro ⟨⟨c, hc⟩, hbacks, hdirectory, hcopies, hmoves⟩
    refine ⟨⟨c, (h.source_iff htidy hdone hi c).mpr hc⟩, fun hlive => ?_, ?_, hcopies, hmoves⟩
    · rw [hwaybackup]
      exact hbacks (hlive.imp fun c => (hnode c).mp)
    · rwa [hwaylive]

theorem Progress.clear (h : Progress L x t done u restored) (htidy : Tidy L x t)
    (hlists : x.Lists t) (hdone : ∀ j ∈ done, j ∈ requested L x t ∧ j ≠ i)
    (hi : i ∈ requested L x t) : Clear L x u i := by
  have hplace : ∀ {p}, p ∈ places L x i → u.node p = t.node p := fun hp =>
    h.place_eq htidy hlists hdone hi hp
  have hlive : live L i ∈ places L x i := mem_places.mpr (Or.inl rfl)
  have hnext : next L x i ∈ places L x i := mem_places.mpr (Or.inr (Or.inl rfl))
  have hbackup : backup L x i ∈ places L x i := mem_places.mpr (Or.inr (Or.inr rfl))
  have hlink : ∀ p ∈ i.source :: places L x i, NoLink u p := fun p hp q hq target hs =>
    htidy.links i hi p hp q hq target (h.links q target hs)
  obtain ⟨hsource, hrelative, -⟩ := requested_clean hlists hi
  have hliveclean : Clean (live L i) := L.root_clean.append hrelative
  have hfactory : ∀ {p}, p ∈ places L x i → i.source ≠ p := fun hp heq =>
    (htidy.factory_place hi hp).1 (heq ▸ factory_source hi)
  constructor
  · exact hsource
  · exact hliveclean
  · exact next_clean hliveclean x
  · exact (backupBase_clean L x).append hrelative
  · exact hlink _ List.mem_cons_self
  · exact hlink _ (List.mem_cons_of_mem _ hlive)
  · exact hlink _ (List.mem_cons_of_mem _ hnext)
  · exact hlink _ (List.mem_cons_of_mem _ hbackup)
  · rw [hplace hlive]
    exact htidy.live_dir i hi
  · rw [hplace hnext]
    exact htidy.next_dir i hi
  · intro c hc
    unfold Holds at hc ⊢
    rw [hplace hlive] at hc
    rw [hplace hbackup]
    exact htidy.fresh i hi c hc
  · exact htidy.live_backup hi i
  · exact htidy.next_backup hi i
  · exact hfactory hlive
  · exact hfactory hnext
  · exact hfactory hbackup

theorem Restored.holds {r : Bool × Files C} (h : Restored L x i t r) {q : Path}
    (hq : q ∉ places L x i) {c : C} (hc : Holds t q c) : Holds r.2 q c := by
  rw [mem_places, not_or, not_or] at hq
  rcases h.others q hq.1 hq.2.1 hq.2.2 with heq | ⟨-, hnone, -⟩
  · obtain ⟨m, hm⟩ := hc
    exact ⟨m, heq ▸ hm⟩
  · exact absurd hnone hc.file

theorem Restored.place_eq {r : Bool × Files C} (h : Restored L x i t r) {q : Path}
    (hq : ∀ p ∈ places L x i, Apart q p) : r.2.node q = t.node q := by
  have hlive := hq _ (mem_places.mpr (Or.inl rfl))
  have hnext := hq _ (mem_places.mpr (Or.inr (Or.inl rfl)))
  have hbackup := hq _ (mem_places.mpr (Or.inr (Or.inr rfl)))
  rcases h.others q hlive.ne hnext.ne hbackup.ne with heq | ⟨hway, -⟩
  · exact heq
  · exact (hway.elim hlive.1 hbackup.1).elim

theorem Progress.step (h : Progress L x t done u restored) (hdry : x.dryRun = false)
    (htidy : Tidy L x t) (hlists : x.Lists t)
    (hdone : ∀ j ∈ done, j ∈ requested L x t ∧ j ≠ i) (hi : i ∈ requested L x t) :
    Progress L x t (done ++ [i]) (restoreFile L x i u).2
      (if (restoreFile L x i u).1 = true ∧ x.dryRun = false then restored ++ [i.relative]
        else restored) := by
  have hres := restoreFile_restored hdry (h.clear htidy hlists hdone hi)
  have hworks : (restoreFile L x i u).1 = true ↔ Works L x t i :=
    hres.works.trans (h.works_iff htidy hlists hdone hi)
  have hlive : live L i ∈ places L x i := mem_places.mpr (Or.inl rfl)
  have hliveeq : u.node (live L i) = t.node (live L i) :=
    h.place_eq htidy hlists hdone hi hlive
  have hapart : ∀ j ∈ done, ∀ q ∈ places L x j, ∀ p ∈ places L x i, Apart q p :=
    fun j hj q hq p hp => htidy.separate (hdone j hj).1 hi (hdone j hj).2 hq hp
  have hother : ∀ j ∈ done, ∀ q ∈ places L x j, q ∉ places L x i :=
    fun j hj q hq hmem => (hapart j hj q hq q hmem).ne rfl
  constructor
  · intro q hq
    have hdoneq : ∀ j ∈ done, q ∉ places L x j := fun j hj =>
      hq j (List.mem_append_left _ hj)
    have hiq := hq i (List.mem_append_right _ List.mem_cons_self)
    rw [mem_places, not_or, not_or] at hiq
    rcases h.others q hdoneq with heq | ⟨hway, hnone, hdir⟩
    · rcases hres.others q hiq.1 hiq.2.1 hiq.2.2 with heq' | ⟨hway, hnone, hdir⟩
      · exact Or.inl (heq'.trans heq)
      · refine Or.inr ⟨Or.inr ⟨i, List.mem_append_right _ List.mem_cons_self, ?_⟩,
          heq ▸ hnone, hdir⟩
        rcases hway with hbelow | hbelow
        · exact ⟨_, hlive, hbelow⟩
        · exact ⟨_, mem_places.mpr (Or.inr (Or.inr rfl)), hbelow⟩
    · refine Or.inr ⟨hway.imp_right ?_, hnone, ?_⟩
      · rintro ⟨j, hj, hrest⟩
        exact ⟨j, List.mem_append_left _ hj, hrest⟩
      · rcases hres.others q hiq.1 hiq.2.1 hiq.2.2 with heq' | ⟨-, hnone', -⟩
        · rw [heq', hdir]
        · rw [hdir] at hnone'
          cases hnone'
  · exact fun q target hs => h.links q target (hres.links q target hs)
  · intro p
    by_cases hi' : (restoreFile L x i u).1 = true
    · rw [if_pos ⟨hi', hdry⟩, List.mem_append, h.printed, List.mem_singleton]
      constructor
      · rintro (⟨j, hj, hrest⟩ | rfl)
        · exact ⟨j, List.mem_append_left _ hj, hrest⟩
        · exact ⟨i, List.mem_append_right _ List.mem_cons_self, hworks.mp hi', rfl⟩
      · rintro ⟨j, hj, hw, rfl⟩
        rcases List.mem_append.mp hj with hj | hj
        · exact Or.inl ⟨j, hj, hw, rfl⟩
        · exact Or.inr (by rw [List.mem_singleton.mp hj])
    · rw [if_neg fun hand => hi' hand.1, h.printed]
      constructor
      · rintro ⟨j, hj, hrest⟩
        exact ⟨j, List.mem_append_left _ hj, hrest⟩
      · rintro ⟨j, hj, hw, rfl⟩
        rcases List.mem_append.mp hj with hj | hj
        · exact ⟨j, hj, hw, rfl⟩
        · rw [List.mem_singleton.mp hj] at hw
          exact absurd (hworks.mpr hw) hi'
  · intro j hj hw c hc
    rcases List.mem_append.mp hj with hj | hj
    · exact hres.holds (hother j hj _ (mem_places.mpr (Or.inl rfl))) (h.placed j hj hw c hc)
    · rw [List.mem_singleton.mp hj] at hw hc ⊢
      exact hres.placed (hworks.mpr hw) c ((h.source_iff htidy hdone hi c).mpr hc)
  · intro j hj hw
    rcases List.mem_append.mp hj with hj | hj
    · rw [← h.kept j hj hw]
      exact hres.place_eq (hapart j hj _ (mem_places.mpr (Or.inl rfl)))
    · rw [List.mem_singleton.mp hj] at hw ⊢
      rw [hres.kept (by simpa using mt hworks.mp hw), hliveeq]
  · intro j hj hw c hc
    rcases List.mem_append.mp hj with hj | hj
    · exact hres.holds (hother j hj _ (mem_places.mpr (Or.inr (Or.inr rfl))))
        (h.backed j hj hw c hc)
    · rw [List.mem_singleton.mp hj] at hw hc ⊢
      refine hres.backed (hworks.mpr hw) c ?_
      rwa [Holds, hliveeq]
  · intro q c hq hc
    have hu := h.older q c hq hc
    by_cases hbackup : q = backup L x i
    · rw [hbackup] at hu ⊢
      exact hres.older c hu
    · refine hres.holds (fun hmem => ?_) hu
      rcases mem_places.mp hmem with rfl | rfl | rfl
      · exact (htidy.backups_live hi).1 hq
      · exact (htidy.backups_next hi).1 hq
      · exact hbackup rfl

end Progress

section Loops

variable {done items rest : List Item}

/-- The files of a target, in the order of their restores. -/
def itemsOf (L : Layout) (x : Call C) (target : Target) : List Item :=
  treeItems x (treeOf L target).1 (treeOf L target).2 ++ singlesOf L target

/-- The loop over some of the files; its `status` tells whether one has failed. -/
theorem foldl_attempt (hdry : x.dryRun = false) (htidy : Tidy L x t) (hlists : x.Lists t)
    (hall : requested L x t = done ++ (items ++ rest)) {w : World C}
    (h : Progress L x t done w.tree w.restored) :
    Progress L x t (done ++ items) (items.foldl (attempt L x) w).tree
        (items.foldl (attempt L x) w).restored ∧
      ((items.foldl (attempt L x) w).status = 0 ↔
        w.status = 0 ∧ ∀ i ∈ items, Works L x t i) := by
  induction items generalizing done w with
  | nil =>
    rw [List.append_nil]
    exact ⟨h, by simp⟩
  | cons i items ih =>
    have hi : i ∈ requested L x t := by
      rw [hall]
      exact List.mem_append_right _ List.mem_cons_self
    have hnodup := htidy.nodup
    rw [hall, List.nodup_append] at hnodup
    have hdone : ∀ j ∈ done, j ∈ requested L x t ∧ j ≠ i := by
      intro j hj
      refine ⟨?_, hnodup.2.2 j hj i List.mem_cons_self⟩
      rw [hall]
      exact List.mem_append_left _ hj
    have hworks : (restoreFile L x i w.tree).1 = true ↔ Works L x t i :=
      (restoreFile_restored hdry (h.clear htidy hlists hdone hi)).works.trans
        (h.works_iff htidy hlists hdone hi)
    have hstep : Progress L x t (done ++ [i]) (attempt L x w i).tree (attempt L x w i).restored :=
      h.step hdry htidy hlists hdone hi
    have hsplit : requested L x t = (done ++ [i]) ++ (items ++ rest) := by
      rw [hall, List.append_assoc]
      rfl
    obtain ⟨hprogress, hstatus⟩ := ih hsplit hstep
    rw [List.append_assoc] at hprogress
    refine ⟨hprogress, ?_⟩
    rw [List.foldl_cons, hstatus, List.forall_mem_cons, ← and_assoc]
    refine and_congr_left fun _ => ?_
    unfold attempt
    rw [← hworks]
    by_cases hi' : (restoreFile L x i w.tree).1 = true
    · simp [hi']
    · simp [hi']

theorem restoreTree_spec (hdry : x.dryRun = false) (htidy : Tidy L x t) (hlists : x.Lists t)
    {sourceRoot destination : Path}
    (hall : requested L x t = done ++ (treeItems x sourceRoot destination ++ rest)) {w : World C}
    (h : Progress L x t done w.tree w.restored) :
    Progress L x t (done ++ treeItems x sourceRoot destination)
        (restoreTree L x sourceRoot destination w).2.tree
        (restoreTree L x sourceRoot destination w).2.restored ∧
      (restoreTree L x sourceRoot destination w).1 = true ∧
      (restoreTree L x sourceRoot destination w).2.status = 0 :=
  ⟨(foldl_attempt (w := { w with status := 0 }) hdry htidy hlists hall h).1, rfl, rfl⟩

/-- `|| status=1`. -/
theorem restoreOr_eq {target : Target} {w v : World C} {ok : Bool}
    (h : restoreTarget L x target w = (ok, v)) :
    (restoreOr L x w target).tree = v.tree ∧ (restoreOr L x w target).restored = v.restored ∧
      ((restoreOr L x w target).status = 0 ↔ ok = true ∧ v.status = 0) := by
  unfold restoreOr
  rw [h]
  cases ok with
  | true => simp
  | false => simp

theorem restoreSa_spec (hdry : x.dryRun = false) (htidy : Tidy L x t) (hlists : x.Lists t)
    (hall : requested L x t = done ++ (itemsOf L x .sa ++ rest)) {w : World C}
    (h : Progress L x t done w.tree w.restored) :
    Progress L x t (done ++ itemsOf L x .sa) (restoreSa L x w).2.tree
        (restoreSa L x w).2.restored ∧
      ((restoreSa L x w).1 = true ∧ (restoreSa L x w).2.status = 0 ↔
        ∀ i ∈ singlesOf L .sa, Works L x t i) := by
  have hsplit : requested L x t = done ++ (treeItems x (treeOf L .sa).1 (treeOf L .sa).2 ++
      (singlesOf L .sa ++ rest)) := by
    rw [hall, itemsOf, List.append_assoc]
  obtain ⟨htree, hok, hstatus⟩ :=
    restoreTree_spec (w := { w with status := 0 }) hdry htidy hlists hsplit h
  have hrest : requested L x t = (done ++ treeItems x (treeOf L .sa).1 (treeOf L .sa).2) ++
      (singlesOf L .sa ++ rest) := by
    rw [hsplit, List.append_assoc]
  obtain ⟨hsingles, hsinglestatus⟩ := foldl_attempt hdry htidy hlists hrest htree
  rw [hstatus] at hsinglestatus
  unfold restoreSa
  dsimp only
  rw [if_pos hok]
  constructor
  · rw [itemsOf, ← List.append_assoc]
    exact hsingles
  · rw [decide_eq_true_iff, and_self, hsinglestatus]
    exact and_iff_right rfl

theorem restoreOr_spec (hdry : x.dryRun = false) (htidy : Tidy L x t) (hlists : x.Lists t)
    {target : Target} (hall : requested L x t = done ++ (itemsOf L x target ++ rest))
    {w : World C} (h : Progress L x t done w.tree w.restored) :
    Progress L x t (done ++ itemsOf L x target) (restoreOr L x w target).tree
        (restoreOr L x w target).restored ∧
      ((restoreOr L x w target).status = 0 ↔ ∀ i ∈ singlesOf L target, Works L x t i) := by
  obtain ⟨htree, hrestored, hstatus⟩ :=
    restoreOr_eq (w := w) (Prod.mk.eta (p := restoreTarget L x target w)).symm
  rw [htree, hrestored, hstatus]
  cases target with
  | ra =>
    have hnone : singlesOf L .ra = [] := rfl
    rw [itemsOf, hnone, List.append_nil] at hall ⊢
    obtain ⟨hprogress, hok, hzero⟩ := restoreTree_spec hdry htidy hlists hall h
    exact ⟨hprogress, iff_of_true ⟨hok, hzero⟩ fun i hi => by cases hi⟩
  | pico =>
    have hnone : singlesOf L .pico = [] := rfl
    rw [itemsOf, hnone, List.append_nil] at hall ⊢
    obtain ⟨hprogress, hok, hzero⟩ := restoreTree_spec hdry htidy hlists hall h
    exact ⟨hprogress, iff_of_true ⟨hok, hzero⟩ fun i hi => by cases hi⟩
  | sa => exact restoreSa_spec hdry htidy hlists hall h

/-- The loop over the targets; `sa` is the last of them. -/
theorem foldl_restoreOr (hdry : x.dryRun = false) (htidy : Tidy L x t) (hlists : x.Lists t)
    {targets : List Target} (hlast : targets.Pairwise fun a _ => a ≠ .sa)
    (hall : requested L x t = done ++ targets.flatMap (itemsOf L x)) {w : World C}
    (hstatus : w.status = 0) (h : Progress L x t done w.tree w.restored) :
    Progress L x t (requested L x t) (targets.foldl (restoreOr L x) w).tree
        (targets.foldl (restoreOr L x) w).restored ∧
      ((targets.foldl (restoreOr L x) w).status = 0 ↔
        ∀ target ∈ targets, ∀ i ∈ singlesOf L target, Works L x t i) := by
  induction targets generalizing done w with
  | nil =>
    rw [List.flatMap_nil, List.append_nil] at hall
    rw [hall]
    exact ⟨h, by simp [hstatus]⟩
  | cons target targets ih =>
    rw [List.flatMap_cons] at hall
    obtain ⟨hprogress, hone⟩ := restoreOr_spec hdry htidy hlists hall h
    obtain ⟨hfirst, hrest⟩ := List.pairwise_cons.mp hlast
    rw [List.foldl_cons]
    rw [← List.append_assoc] at hall
    by_cases hnil : targets = []
    · subst hnil
      rw [List.flatMap_nil, List.append_nil] at hall
      rw [hall, List.foldl_nil]
      exact ⟨hprogress, by rw [hone, List.forall_mem_singleton]⟩
    · obtain ⟨next, hnext⟩ := List.exists_mem_of_ne_nil _ hnil
      have hnone : ∀ i ∈ singlesOf L target, Works L x t i := by
        intro i hi
        cases target with
        | ra => cases hi
        | pico => cases hi
        | sa => exact absurd rfl (hfirst next hnext)
      obtain ⟨hfinal, hzero⟩ := ih hrest hall (hone.mpr hnone) hprogress
      refine ⟨hfinal, ?_⟩
      rw [hzero, List.forall_mem_cons]
      exact (and_iff_right hnone).symm

end Loops

end PlumosBubble.Reset
