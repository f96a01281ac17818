import Mathlib.Data.List.Nodup
import Mathlib.Data.List.Perm.Subperm
import PlumosBubble.FileSystem.Containment

/-! What paths name in a tree that lost nodes below a directory, or gained a few empty
directories anywhere. Losing nodes only makes paths fail. A path that names nothing still
names nothing a few components further down: what `mkdir -p` makes is no deeper than what
it was asked to make. -/

namespace PlumosBubble.FileSystem

open Crash

variable {C : Type*}

/-- `c` is `t` with at most `N` new directories. -/
def Grown (N : ℕ) (t c : Tree C) : Prop :=
  ∃ L : List Path, L.length ≤ N ∧
    ∀ q, c.node q = t.node q ∨ q ∈ L ∧ t.node q = none ∧ c.node q = some .dir

/-- Below `dest` the tree `c` has nodes of `t` only. -/
def Fewer (dest : Path) (t c : Tree C) : Prop :=
  ∀ q, dest <+: q → c.node q = none ∨ c.node q = t.node q

section Grown

variable {N M : ℕ} {t c d : Tree C}

theorem Grown.refl (N : ℕ) (t : Tree C) : Grown N t t := ⟨[], by simp, fun _ => Or.inl rfl⟩

theorem Grown.trans (h : Grown N t c) (h' : Grown M c d) : Grown (N + M) t d := by
  obtain ⟨L, hL, hc⟩ := h
  obtain ⟨L', hL', hd⟩ := h'
  refine ⟨L ++ L', by simp; omega, fun q => ?_⟩
  cases hd q with
  | inl hdq =>
    rw [hdq]
    exact (hc q).imp id fun hcq => ⟨List.mem_append_left _ hcq.1, hcq.2⟩
  | inr hdq =>
    have htq : t.node q = none := by
      cases hc q with
      | inl hcq => rw [← hcq]; exact hdq.2.1
      | inr hcq => exact hcq.2.1
    exact Or.inr ⟨List.mem_append_right _ hdq.1, htq, hdq.2.2⟩

theorem Grown.mono (h : Grown N t c) (hN : N ≤ M) : Grown M t c := by
  obtain ⟨L, hL, hc⟩ := h
  exact ⟨L, hL.trans hN, hc⟩

theorem Grown.of_mkdir {p : Path} (h : t.mkdir p = .ok c) : Grown 1 t c := by
  unfold Tree.mkdir at h
  split at h
  · rename_i q _
    obtain ⟨-, hnone, -, hq⟩ := Tree.create_cases h
    refine ⟨[q], by simp, fun r => ?_⟩
    by_cases hr : r = q
    · subst hr
      exact Or.inr ⟨by simp, hnone, by rw [hq, if_pos rfl]⟩
    · exact Or.inl (by rw [hq, if_neg hr])
  · cases h

theorem Grown.dir (h : Grown N t c) {q : Path} (hq : t.node q = some .dir) :
    c.node q = some .dir := by
  obtain ⟨L, -, hc⟩ := h
  cases hc q with
  | inl hcq => rw [hcq, hq]
  | inr hcq => exact hcq.2.2

theorem Grown.depth (h : Grown N t c) {q r : Path} (hq : t.node q = none)
    (hr : c.node (q ++ r) ≠ none) : r.length + 1 ≤ N := by
  obtain ⟨L, hL, hc⟩ := h
  -- the paths from `q` down to `q ++ r`, by their length
  have hsub : ((List.range (r.length + 1)).map fun k => q ++ r.take k) ⊆ L := by
    intro p hp
    obtain ⟨k, -, rfl⟩ := List.mem_map.mp hp
    have hnone : t.node (q ++ r.take k) = none := by
      by_cases he : r.take k = []
      · rwa [he, List.append_nil]
      · exact t.eq_none_of_ancestor (List.prefix_append q _) (by simpa using he) (by simp [hq])
    have hex : c.node (q ++ r.take k) ≠ none := by
      by_cases he : r.take k = r
      · rwa [he]
      · have hpre : q ++ r.take k <+: q ++ r := by
          rw [List.prefix_append_right_inj]
          exact List.take_prefix k r
        simp [c.dir_of_ancestor hpre (fun h => he (List.append_cancel_left h)) hr]
    cases hc (q ++ r.take k) with
    | inl hcq => exact absurd (hcq.trans hnone) hex
    | inr hcq => exact hcq.1
  have hnodup : ((List.range (r.length + 1)).map fun k => q ++ r.take k).Nodup := by
    refine List.Nodup.map_on (fun j hj k hk he => ?_) List.nodup_range
    have hlen := congrArg List.length (List.append_cancel_left he)
    simp only [List.length_take, List.mem_range] at hlen hj hk
    omega
  have hlen := (List.subperm_of_subset hnodup hsub).length_le
  rw [List.length_map, List.length_range] at hlen
  omega

/-- Where `b` exists, `mkdir -p` makes a directory for each further component at most. -/
theorem wp_mkdirParents_grown {b r : Path} (hb : t.mkdir b = .error .eexist) :
    wp (mkdirParents (b ++ r)) (fun _ c => Grown r.length t c) (fun _ _ => True)
      (fun _ => True) t := by
  obtain ⟨s, rfl⟩ : ∃ s : List Name, r = s.reverse := ⟨r.reverse, by simp⟩
  have hexist : ∀ (p : Path) (N : ℕ) (c : Tree C), Grown N t c →
      wp (mkdirExistOk p) (fun _ d => Grown (N + 1) t d) (fun _ _ => True) (fun _ => True) c := by
    intro p N c hc
    rw [mkdirExistOk, wp_handle]
    refine wp_step (fun d hd => ⟨trivial, hc.trans (.of_mkdir hd)⟩) fun e he => ?_
    rw [wp_bind, wp_read]
    split_ifs
    · exact (wp_pure _).mpr (hc.mono (by omega))
    · exact (wp_raise _).mpr trivial
  rw [mkdirParents, List.reverse_append, List.reverse_reverse]
  induction s with
  | nil =>
    have hstat : wp (do
        let isDir ← Prog.read (·.isDir b)
        if isDir then pure () else Prog.raise Errno.eexist) (fun _ c => Grown 0 t c)
        (fun _ _ => True) (fun _ => True) t := by
      rw [wp_bind, wp_read]
      split_ifs
      · exact (wp_pure _).mpr (.refl _ _)
      · exact (wp_raise _).mpr trivial
    cases hrev : b.reverse with
    | nil =>
      obtain rfl : b = [] := List.reverse_eq_nil_iff.mp hrev
      rw [List.nil_append, mkdirParentsRev, mkdirExistOk, wp_handle, wp_step_error hb]
      simpa using hstat
    | cons n up =>
      have hbr : (n :: up).reverse = b := by rw [← hrev, List.reverse_reverse]
      rw [List.nil_append, mkdirParentsRev, wp_handle, hbr, wp_step_error hb, if_neg (by simp)]
      exact hstat
  | cons n up ih =>
    rw [List.cons_append, mkdirParentsRev, wp_handle, List.length_reverse, List.length_cons]
    rw [List.length_reverse] at ih
    refine wp_step (fun d hd => ⟨trivial, (Grown.of_mkdir hd).mono (by omega)⟩) fun e he => ?_
    split_ifs
    · rw [wp_bind]
      exact wp_mono ih (fun _ c hc => hexist _ _ c hc) (fun _ _ h => h) (fun _ h => h)
    · rw [wp_bind, wp_read]
      split_ifs
      · exact (wp_pure _).mpr (.refl _ _)
      · exact (wp_raise _).mpr trivial

end Grown

namespace Tree

variable {N links : ℕ} {t c : Tree C} {dest cur todo tail q : Path}

theorem walk_new (h : Grown N t c) (hcur : t.node cur = none) (hclean : Clean todo) :
    (∃ e, c.walk false cur todo = .failed e) ∨ c.walk false cur todo = .arrived (cur ++ todo) := by
  induction todo generalizing cur with
  | nil => exact Or.inr (by simp [walk])
  | cons n rest ih =>
    obtain ⟨L, -, hc⟩ := id h
    have hnone : t.node (cur ++ [n]) = none :=
      t.eq_none_of_ancestor (List.prefix_append cur [n]) (by simp) (by simp [hcur])
    have hclean' : Clean rest := fun m hm => hclean m (by simp [hm])
    rw [walk, if_neg (hclean n (by simp))]
    cases hc (cur ++ [n]) with
    | inl hcn =>
      rw [hcn, hnone]
      dsimp only
      by_cases hr : rest = []
      · rw [if_pos hr, hr]
        exact Or.inr rfl
      · rw [if_neg hr]
        exact Or.inl ⟨_, rfl⟩
    | inr hcn =>
      rw [hcn.2.2]
      simpa using ih hnone hclean'

/-- A walk in the grown tree that goes on for `tail`: it fails, ends at nothing, or walks in
the old tree as well, which then reaches something. -/
theorem walk_grown (h : Grown N t c) (hcur : t.node cur = some .dir) (hclean : Clean (todo ++ tail))
    (hN : N ≤ tail.length) (htail : tail ≠ []) :
    (∃ p, t.walk false cur todo = .arrived p ∧ t.node p ≠ none) ∨
      (∃ e, c.walk false cur (todo ++ tail) = .failed e) ∨
      (∃ p, c.walk false cur (todo ++ tail) = .arrived p ∧ c.node p = none) ∨
      ∃ d target rest, c.walk false cur (todo ++ tail) = .link d target (rest ++ tail) ∧
        t.walk false cur todo = .link d target rest := by
  induction todo generalizing cur with
  | nil => exact Or.inl ⟨cur, by simp [walk], by simp [hcur]⟩
  | cons n rest ih =>
    obtain ⟨L, -, hc⟩ := id h
    have hn : n ≠ ['.', '.'] := hclean n (by simp)
    have hclean' : Clean (rest ++ tail) := fun m hm => hclean m (List.mem_cons_of_mem _ hm)
    have hmore : rest ++ tail ≠ [] := by simp [htail]
    rw [List.cons_append, walk, walk, if_neg hn, if_neg hn]
    cases hc (cur ++ [n]) with
    | inl hcn =>
      rw [hcn]
      cases hv : t.node (cur ++ [n]) with
      | none => exact Or.inr (Or.inl ⟨.enoent, by simp [htail]⟩)
      | some v =>
        cases v with
        | file content mode => exact Or.inr (Or.inl ⟨.enotdir, by simp [htail]⟩)
        | symlink target =>
          dsimp only
          by_cases hr : rest = []
          · exact Or.inl ⟨cur ++ [n], by simp [hr], by simp [hv]⟩
          · refine Or.inr (Or.inr (Or.inr ⟨cur, target, rest, ?_, ?_⟩))
            · rw [if_neg (by simp [htail])]
            · rw [if_neg (by simp [hr])]
        | dir => exact ih hv hclean'
    | inr hcn =>
      rw [hcn.2.2, hcn.2.1]
      dsimp only
      refine Or.inr ?_
      cases walk_new h hcn.2.1 hclean' with
      | inl hw => exact Or.inl hw
      | inr hw =>
        refine Or.inr (Or.inl ⟨_, hw, ?_⟩)
        by_contra hex
        have hdeep := h.depth hcn.2.1 hex
        rw [List.length_append] at hdeep
        omega

/-- What is found `tail` further down in the grown tree was found up here in the old one. -/
theorem found_of_grown (h : Grown N t c) (hstay : LinksStay dest t) (hin : dest <+: cur)
    (hcur : t.node cur = some .dir) (hclean : Clean (todo ++ tail)) (hN : N ≤ tail.length)
    (htail : tail ≠ []) (hres : c.resolveFrom false links cur (todo ++ tail) = .ok q)
    (hq : c.node q ≠ none) :
    ∃ p, t.resolveFrom false links cur todo = .ok p ∧ t.node p ≠ none := by
  induction links generalizing cur todo with
  | zero =>
    rw [resolveFrom] at hres ⊢
    rcases walk_grown h hcur hclean hN htail with ⟨p, hp, hn⟩ | ⟨e, he⟩ | ⟨p, hp, hn⟩ |
      ⟨d, target, rest, hc, -⟩
    · exact ⟨p, by rw [hp], hn⟩
    · simp [he] at hres
    · rw [hp] at hres
      cases hres
      exact absurd hn hq
    · simp [hc] at hres
  | succ links ih =>
    rw [resolveFrom] at hres ⊢
    rcases walk_grown h hcur hclean hN htail with ⟨p, hp, hn⟩ | ⟨e, he⟩ | ⟨p, hp, hn⟩ |
      ⟨d, target, rest, hc, ht⟩
    · exact ⟨p, by rw [hp], hn⟩
    · simp [he] at hres
    · rw [hp] at hres
      cases hres
      exact absurd hn hq
    · have hw := t.walk_inside false hin (hclean.of_ancestor (List.prefix_append _ _))
      rw [ht] at hw
      obtain ⟨hd, ⟨n, hn⟩, hrest⟩ := hw
      obtain ⟨hrel, htarget⟩ := hstay _ target (hd.trans (List.prefix_append _ _)) hn
      have hdir : t.node d = some .dir := t.parent_dir d n (by simp [hn])
      have htailClean : Clean tail := fun m hm => hclean m (List.mem_append_right _ hm)
      rw [hc] at hres
      rw [ht]
      dsimp only at hres ⊢
      rw [if_neg hrel, ← List.append_assoc] at hres
      rw [if_neg hrel]
      exact ih hd hdir ((htarget.append hrest).append htailClean) hres

theorem walk_fewer (h : Fewer dest t c) (hin : dest <+: cur) (hclean : Clean todo) :
    c.walk false cur todo = t.walk false cur todo ∨ (∃ e, c.walk false cur todo = .failed e) ∨
      ∃ p, c.walk false cur todo = .arrived p ∧ c.node p = none := by
  induction todo generalizing cur with
  | nil => exact Or.inl (by simp [walk])
  | cons n rest ih =>
    have hin' : dest <+: cur ++ [n] := hin.trans (List.prefix_append _ _)
    rw [walk, walk, if_neg (hclean n (by simp)), if_neg (hclean n (by simp))]
    cases h _ hin' with
    | inl hcn =>
      rw [hcn]
      refine Or.inr ?_
      by_cases hr : rest = []
      · exact Or.inr ⟨cur ++ [n], by simp [hr], hcn⟩
      · exact Or.inl ⟨.enoent, by simp [hr]⟩
    | inr hcn =>
      rw [hcn]
      cases hv : t.node (cur ++ [n]) with
      | none => exact Or.inl rfl
      | some v =>
        cases v with
        | dir => exact ih hin' fun m hm => hclean m (by simp [hm])
        | file content mode => exact Or.inl rfl
        | symlink target => exact Or.inl rfl

theorem found_of_fewer (h : Fewer dest t c) (hstay : LinksStay dest t) (hin : dest <+: cur)
    (hclean : Clean todo) (hres : c.resolveFrom false links cur todo = .ok q)
    (hq : c.node q ≠ none) : t.resolveFrom false links cur todo = .ok q := by
  induction links generalizing cur todo with
  | zero =>
    rw [resolveFrom] at hres ⊢
    rcases walk_fewer h hin hclean with hw | ⟨e, he⟩ | ⟨p, hp, hn⟩
    · rwa [hw] at hres
    · simp [he] at hres
    · rw [hp] at hres
      cases hres
      exact absurd hn hq
  | succ links ih =>
    rw [resolveFrom] at hres ⊢
    rcases walk_fewer h hin hclean with hw | ⟨e, he⟩ | ⟨p, hp, hn⟩
    · rw [hw] at hres
      cases hcase : t.walk false cur todo with
      | arrived p => simpa [hcase] using hres
      | failed e => simp [hcase] at hres
      | link d target rest =>
        have hin' := t.walk_inside false hin hclean
        rw [hcase] at hin' hres
        obtain ⟨hd, ⟨n, hn⟩, hrest⟩ := hin'
        obtain ⟨hrel, htarget⟩ := hstay _ target (hd.trans (List.prefix_append _ _)) hn
        dsimp only at hres ⊢
        rw [if_neg hrel] at hres ⊢
        exact ih hd (htarget.append hrest) hres
    · simp [he] at hres
    · rw [hp] at hres
      cases hres
      exact absurd hn hq

theorem walk_strict {follow : Bool} (hin : dest <+: cur) (hclean : Clean todo) (hne : todo ≠ [])
    {p : Path} (h : t.walk follow cur todo = .arrived p) : dest <+: p.dropLast ∧ p ≠ [] := by
  induction todo generalizing cur with
  | nil => exact absurd rfl hne
  | cons n rest ih =>
    have hdone : dest <+: (cur ++ [n]).dropLast ∧ cur ++ [n] ≠ [] := by simpa using hin
    rw [walk, if_neg (hclean n (by simp))] at h
    split at h
    · split_ifs at h
      cases h
      exact hdone
    · by_cases hr : rest = []
      · rw [hr, walk] at h
        cases h
        exact hdone
      · exact ih (hin.trans (List.prefix_append _ _)) (fun m hm => hclean m (by simp [hm])) hr h
    · split_ifs at h
      cases h
      exact hdone
    · split_ifs at h
      cases h
      exact hdone

theorem rest_of_link {d rest : Path} {target : List Char}
    (h : t.walk false cur todo = .link d target rest) : rest ≠ [] := by
  induction todo generalizing cur with
  | nil => simp [walk] at h
  | cons n more ih =>
    rw [walk] at h
    split at h
    · exact ih h
    · split at h
      · split_ifs at h
      · exact ih h
      · split_ifs at h
      · split_ifs at h with hr
        cases h
        simpa using hr

theorem resolveFrom_strict (hstay : LinksStay dest t) (hin : dest <+: cur) (hclean : Clean todo)
    (hne : todo ≠ []) (h : t.resolveFrom false links cur todo = .ok q) :
    dest <+: q.dropLast ∧ q ≠ [] := by
  induction links generalizing cur todo with
  | zero =>
    rw [resolveFrom] at h
    split at h
    · rename_i p hp
      cases h
      exact walk_strict hin hclean hne hp
    · cases h
    · cases h
  | succ links ih =>
    have hw := t.walk_inside false hin hclean
    rw [resolveFrom] at h
    split at h
    · rename_i p hp
      cases h
      exact walk_strict hin hclean hne hp
    · cases h
    · rename_i d target rest hp
      rw [hp] at hw
      obtain ⟨hd, ⟨n, hn⟩, hrest⟩ := hw
      obtain ⟨hrel, htarget⟩ := hstay _ target (hd.trans (List.prefix_append _ _)) hn
      rw [if_neg hrel] at h
      exact ih hd (htarget.append hrest) (by simp [rest_of_link hp]) h

/-- `lstat` of what a longer path reaches in the grown tree. -/
theorem lstat_of_grown (h : Grown N t c) (hstay : LinksStay dest t) (hdest : t.node dest = some .dir)
    (hclean : Clean (dest ++ (todo ++ tail))) (hN : N ≤ tail.length) (htail : tail ≠ [])
    (hres : c.resolve false (dest ++ (todo ++ tail)) = .ok q) (hq : c.node q ≠ none) :
    t.lstat (dest ++ todo) ≠ none := by
  have hd : Clean dest := hclean.of_ancestor (List.prefix_append _ _)
  have hmore : Clean (todo ++ tail) := fun n hn => hclean n (List.mem_append_right _ hn)
  rw [c.resolve_below false hd (h.dir hdest)] at hres
  obtain ⟨p, hp, hn⟩ := found_of_grown h hstay List.prefix_rfl hdest hmore hN htail hres hq
  rwa [lstat, t.resolve_below false hd hdest, hp]

theorem resolve_of_fewer (h : Fewer dest t c) (hstay : LinksStay dest t)
    (ht : t.node dest = some .dir) (hc : c.node dest = some .dir) (hclean : Clean (dest ++ todo))
    (hres : c.resolve false (dest ++ todo) = .ok q) (hq : c.node q ≠ none) :
    t.resolve false (dest ++ todo) = .ok q ∧ t.node q = c.node q := by
  have hd : Clean dest := hclean.of_ancestor (List.prefix_append _ _)
  have hmore : Clean todo := fun n hn => hclean n (List.mem_append_right _ hn)
  rw [c.resolve_below false hd hc] at hres
  have hfound := found_of_fewer h hstay List.prefix_rfl hmore hres hq
  have hin := t.resolveFrom_inside false hstay 40 List.prefix_rfl hmore hfound
  refine ⟨by rw [t.resolve_below false hd ht, hfound], ?_⟩
  cases h q hin with
  | inl hcq => exact absurd hcq hq
  | inr hcq => exact hcq.symm

theorem lstat_of_fewer (h : Fewer dest t c) (hstay : LinksStay dest t)
    (ht : t.node dest = some .dir) (hc : c.node dest = some .dir) (hclean : Clean (dest ++ todo))
    (hn : t.lstat (dest ++ todo) = none) : c.lstat (dest ++ todo) = none := by
  rw [lstat] at hn ⊢
  cases hres : c.resolve false (dest ++ todo) with
  | error e => rfl
  | ok q =>
    dsimp only
    by_contra hq
    obtain ⟨hfound, hnode⟩ := resolve_of_fewer h hstay ht hc hclean hres hq
    rw [hfound] at hn
    exact hq (hnode.symm.trans hn)

theorem rename_moved {src dst : Path} (hclean : Clean dst) (hlink : NoLinkAbove t dst)
    (h : t.rename src dst = .ok c) :
    ∃ s, t.resolve false src = .ok s ∧ t.node s ≠ none ∧
      (s = dst ∨ ∀ p, c.node p = t.moved s dst p) := by
  unfold rename at h
  split at h
  · cases h
  · rename_i s hs
    split at h
    · cases h
    · rename_i d hd
      rw [t.eq_of_resolve hclean hlink hd] at h
      obtain ⟨hnone, ⟨hsame, -⟩ | ⟨-, -, -, -, hnode⟩⟩ := t.renameResolved_cases h
      · exact ⟨s, hs, hnone, Or.inl hsame⟩
      · exact ⟨s, hs, hnone, Or.inr hnode⟩

theorem rename_source {src dst : Path} (h : t.rename src dst = .ok c) :
    ∃ s, t.resolve false src = .ok s ∧ t.node s ≠ none := by
  unfold rename at h
  split at h
  · cases h
  · rename_i s hs
    split at h
    · cases h
    · exact ⟨s, hs, (t.renameResolved_cases h).1⟩

end Tree

end PlumosBubble.FileSystem
