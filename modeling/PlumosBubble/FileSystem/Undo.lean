import PlumosBubble.FileSystem.Programs

/-! Replacing paths so that they can be put back. Each path has a place outside the live
tree where its old node is kept. What a half-done replacement or a half-done undoing
leaves satisfies one invariant, `Recoverable`, from which the old nodes can be read off:
a path whose old node is not in its keeping place still has it. -/

namespace PlumosBubble.FileSystem

variable {C : Type*}

/-- A live path and the place that keeps its old node. -/
structure Slot where
  live : Path
  saved : Path

/-- Slots for a tree `pre` in which no live path is a directory or behind a link. `own`
holds where the old nodes are kept and nowhere else on the way to or below a live path;
keeping places nest as the live paths do. -/
structure Layout (pre : Tree C) (own : Path → Prop) (slots : List Slot) : Prop where
  cleanLive : ∀ s ∈ slots, Clean s.live
  cleanSaved : ∀ s ∈ slots, Clean s.saved
  outside : ∀ s ∈ slots, ∀ q q', s.live <+: q → q' <+: q → ¬ own q'
  inside : ∀ s ∈ slots, own s.saved
  apart : ∀ s ∈ slots, ∀ s' ∈ slots, ∀ q, q <+: s.saved → ¬ s'.live <+: q
  nested : ∀ s ∈ slots, ∀ s' ∈ slots, (s.saved <+: s'.saved ↔ s.live <+: s'.live)
  replaceable : ∀ s ∈ slots, pre.node s.live ≠ some .dir
  linkFree : ∀ s ∈ slots, NoLinkAbove pre s.live

/-- Away from the live paths the tree is `pre` but for directories made on the way to
one; what existed at a live path is there or in its keeping place. -/
structure Recoverable (pre : Tree C) (own : Path → Prop) (slots : List Slot) (t : Tree C) :
    Prop where
  frame : ∀ q, ¬ own q → (∀ s ∈ slots, ¬ s.live <+: q) →
    t.node q = pre.node q ∨
      pre.node q = none ∧ t.node q = some .dir ∧ ∃ s ∈ slots, q <+: s.live
  kept : ∀ s ∈ slots, pre.node s.live ≠ none →
    t.node s.saved = pre.node s.live ∨ t.node s.live = pre.node s.live ∧ t.node s.saved = none
  noLink : ∀ s ∈ slots, NoLinkAbove t s.live
  wayToSaved : ∀ s ∈ slots, pre.node s.live ≠ none → OpenWay t s.saved.dropLast

namespace Layout

variable {pre : Tree C} {own : Path → Prop} {slots : List Slot} {s s' : Slot}

theorem not_own_live (L : Layout pre own slots) (hs : s ∈ slots) : ¬ own s.live :=
  L.outside s hs _ _ List.prefix_rfl List.prefix_rfl

theorem saved_ne_live (L : Layout pre own slots) (hs : s ∈ slots) (hs' : s' ∈ slots) :
    s.saved ≠ s'.live :=
  fun h => L.not_own_live hs' (h ▸ L.inside s hs)

theorem live_eq (L : Layout pre own slots) (hs : s ∈ slots) (hex : pre.node s'.live ≠ none)
    (h : s.live <+: s'.live) : s.live = s'.live := by
  by_contra hne
  exact L.replaceable s hs (pre.dir_of_ancestor h hne hex)

theorem saved_eq (L : Layout pre own slots) (hs : s ∈ slots) (hs' : s' ∈ slots)
    (h : s.live = s'.live) : s.saved = s'.saved := by
  have h1 := (L.nested s hs s' hs').mpr (h ▸ List.prefix_rfl)
  have h2 := (L.nested s' hs' s hs).mpr (h ▸ List.prefix_rfl)
  exact h1.eq_of_length_le h2.length_le

theorem live_eq_of_saved (L : Layout pre own slots) (hs : s ∈ slots) (hs' : s' ∈ slots)
    (h : s.saved = s'.saved) : s.live = s'.live := by
  have h1 := (L.nested s hs s' hs').mp (h ▸ List.prefix_rfl)
  have h2 := (L.nested s' hs' s hs).mp (h ▸ List.prefix_rfl)
  exact h1.eq_of_length_le h2.length_le

theorem saved_not_on_way (L : Layout pre own slots) (hs : s ∈ slots) (hs' : s' ∈ slots)
    (hex : pre.node s'.live ≠ none) : ¬ s.saved <+: s'.saved.dropLast := by
  intro h
  have hlive := L.live_eq hs hex
    ((L.nested s hs s' hs').mp (h.trans (List.dropLast_prefix _)))
  have hne : s'.saved ≠ [] := by
    intro hn
    have hin := L.inside s' hs'
    rw [hn] at hin
    exact L.outside s' hs' _ _ List.prefix_rfl List.nil_prefix hin
  have hlen := h.length_le
  rw [L.saved_eq hs hs' hlive, List.length_dropLast] at hlen
  have := List.length_pos_iff.mpr hne
  omega

end Layout

namespace Recoverable

variable {pre t c : Tree C} {own : Path → Prop} {slots : List Slot} {s : Slot}

theorem start (L : Layout pre own slots) (hsaved : ∀ s ∈ slots, pre.node s.saved = none)
    (hway : ∀ s ∈ slots, OpenWay pre s.saved.dropLast) : Recoverable pre own slots pre :=
  ⟨fun _ _ _ => Or.inl rfl, fun s hs _ => Or.inr ⟨rfl, hsaved s hs⟩, L.linkFree,
    fun s hs _ => hway s hs⟩

theorem congr (L : Layout pre own slots) (h : Recoverable pre own slots t)
    (hown : ∀ q, ¬ own q → c.node q = t.node q)
    (hsaved : ∀ s ∈ slots, ∀ q, q <+: s.saved → c.node q = t.node q) :
    Recoverable pre own slots c := by
  constructor
  · intro q hq hlive
    rw [hown q hq]
    exact h.frame q hq hlive
  · intro s hs hex
    rw [hsaved s hs _ List.prefix_rfl, hown _ (L.not_own_live hs)]
    exact h.kept s hs hex
  · intro s hs q hq hne
    rw [hown q (L.outside s hs _ _ List.prefix_rfl hq)]
    exact h.noLink s hs q hq hne
  · intro s hs hex q hq
    rw [hsaved s hs q (hq.trans (List.dropLast_prefix _))]
    exact h.wayToSaved s hs hex q hq

theorem parent_dir (L : Layout pre own slots) (h : Recoverable pre own slots t) (hs : s ∈ slots)
    (hex : pre.node s.live ≠ none) : t.node s.live.dropLast = some .dir := by
  have hd := pre.parent_dir' hex
  have hpre : s.live.dropLast <+: s.live := List.dropLast_prefix _
  have hlive : ∀ s' ∈ slots, ¬ s'.live <+: s.live.dropLast := by
    intro s' hs' hp
    by_cases he : s'.live = s.live.dropLast
    · exact L.replaceable s' hs' (he ▸ hd)
    · exact L.replaceable s' hs' (pre.dir_of_ancestor hp he (by simp [hd]))
  cases h.frame _ (L.outside s hs _ _ List.prefix_rfl hpre) hlive with
  | inl h => rw [h, hd]
  | inr h => simp [hd] at h

theorem pruned (L : Layout pre own slots) (h : Recoverable pre own slots t) (hs : s ∈ slots)
    (hkeep : pre.node s.live ≠ none → t.node s.saved = pre.node s.live)
    (hc : Pruned s.live t c) : Recoverable pre own slots c := by
  have hnot : ∀ q, ¬ s.live <+: q → c.node q = t.node q := fun q hq =>
    (hc q).resolve_right fun h => hq h.1
  have hsaved : ∀ s' ∈ slots, ∀ q, q <+: s'.saved → c.node q = t.node q := fun s' hs' q hq =>
    hnot q (L.apart s' hs' s hs q hq)
  constructor
  · intro q hq hlive
    rw [hnot q (hlive s hs)]
    exact h.frame q hq hlive
  · intro s' hs' hex
    rw [hsaved s' hs' _ List.prefix_rfl]
    by_cases hp : s.live <+: s'.live
    · have he := L.live_eq hs hex hp
      rw [← he] at hex ⊢
      exact Or.inl (L.saved_eq hs hs' he ▸ hkeep hex)
    · rw [hnot _ hp]
      exact h.kept s' hs' hex
  · intro s' hs' q hq hne target hl
    cases hc q with
    | inl hcq => exact h.noLink s' hs' q hq hne target (hcq ▸ hl)
    | inr hcq => simp [hcq.2] at hl
  · intro s' hs' hex q hq
    rw [hsaved s' hs' q (hq.trans (List.dropLast_prefix _))]
    exact h.wayToSaved s' hs' hex q hq

theorem relocated (L : Layout pre own slots) (h : Recoverable pre own slots t) (hs : s ∈ slots)
    (hother : ∀ q, q ≠ s.live → q ≠ s.saved → c.node q = t.node q)
    (hpair : c.node s.saved = pre.node s.live ∧ c.node s.live = none ∨
      c.node s.live = pre.node s.live ∧ c.node s.saved = none) :
    Recoverable pre own slots c := by
  have hne_own : ∀ q, ¬ own q → q ≠ s.saved := fun q hq he => hq (he ▸ L.inside s hs)
  constructor
  · intro q hq hlive
    have hql : q ≠ s.live := fun he => hlive s hs (he ▸ List.prefix_rfl)
    rw [hother q hql (hne_own q hq)]
    exact h.frame q hq hlive
  · intro s' hs' hex'
    by_cases he : s'.live = s.live
    · rw [he, L.saved_eq hs' hs he]
      exact hpair.imp (·.1) id
    · have hsv : s'.saved ≠ s.saved := fun h => he (L.live_eq_of_saved hs' hs h)
      rw [hother _ (L.saved_ne_live hs' hs) hsv, hother _ he (hne_own _ (L.not_own_live hs'))]
      exact h.kept s' hs' hex'
  · intro s' hs' q hq hne target hl
    have hqo : ¬ own q := L.outside s' hs' _ _ List.prefix_rfl hq
    by_cases he : q = s.live
    · subst he
      cases hpair with
      | inl hp => simp [hp.2] at hl
      | inr hp => exact L.linkFree s' hs' _ hq hne target (hp.1 ▸ hl)
    · rw [hother q he (hne_own q hqo)] at hl
      exact h.noLink s' hs' q hq hne target hl
  · intro s' hs' hex' q hq
    have hq' : q <+: s'.saved := hq.trans (List.dropLast_prefix _)
    have h1 : q ≠ s.live := fun he => L.apart s' hs' s hs q hq' (he ▸ List.prefix_rfl)
    have h2 : q ≠ s.saved := fun he => L.saved_not_on_way hs hs' hex' (he ▸ hq)
    rw [hother q h1 h2]
    exact h.wayToSaved s' hs' hex' q hq

theorem madeSavedDirs (L : Layout pre own slots) (h : Recoverable pre own slots t) (hs : s ∈ slots)
    (hex : pre.node s.live ≠ none)
    (hown : ∀ q, q <+: s.saved.dropLast → t.node q = none → own q)
    (hc : MadeDirs s.saved.dropLast t c) : Recoverable pre own slots c := by
  have hsame : ∀ q, ¬ own q → c.node q = t.node q := by
    intro q hq
    cases hc q with
    | inl h => exact h
    | inr h => exact absurd (hown q h.1 h.2.1) hq
  constructor
  · intro q hq hlive
    rw [hsame q hq]
    exact h.frame q hq hlive
  · intro s' hs' hex'
    rw [hsame _ (L.not_own_live hs'),
      hc.of_not_ancestor (L.saved_not_on_way hs' hs hex)]
    exact h.kept s' hs' hex'
  · intro s' hs' q hq hne
    rw [hsame q (L.outside s' hs' _ _ List.prefix_rfl hq)]
    exact h.noLink s' hs' q hq hne
  · intro s' hs' hex' q hq
    cases hc q with
    | inl hcq => rw [hcq]; exact h.wayToSaved s' hs' hex' q hq
    | inr hcq => exact Or.inl hcq.2.2

theorem madeLiveDirs (L : Layout pre own slots) (h : Recoverable pre own slots t) (hs : s ∈ slots)
    (hc : MadeDirs s.live.dropLast t c) : Recoverable pre own slots c := by
  have hway : ∀ q, q <+: s.live.dropLast → q <+: s.live := fun q hq =>
    hq.trans (List.dropLast_prefix _)
  have hsaved : ∀ s' ∈ slots, ∀ q, q <+: s'.saved → c.node q = t.node q ∨
      c.node q = some .dir := by
    intro s' _ q _
    exact (hc q).imp id (·.2.2)
  constructor
  · intro q hq hlive
    cases hc q with
    | inl hcq => rw [hcq]; exact h.frame q hq hlive
    | inr hcq =>
      refine Or.inr ⟨?_, hcq.2.2, s, hs, hway q hcq.1⟩
      cases h.frame q hq hlive with
      | inl hf => rw [← hf]; exact hcq.2.1
      | inr hf => exact hf.1
  · intro s' hs' hex
    have hkeep : c.node s'.saved = t.node s'.saved := hc.of_not_ancestor fun hp =>
      L.outside s hs _ _ List.prefix_rfl (hway _ hp) (L.inside s' hs')
    rw [hkeep]
    cases h.kept s' hs' hex with
    | inl hk => exact Or.inl hk
    | inr hk => exact Or.inr ⟨by rw [hc.of_ne_none (by rw [hk.1]; exact hex), hk.1], hk.2⟩
  · intro s' hs' q hq hne target hl
    cases hc q with
    | inl hcq => exact h.noLink s' hs' q hq hne target (hcq ▸ hl)
    | inr hcq => simp [hcq.2.2] at hl
  · intro s' hs' hex q hq
    cases hsaved s' hs' q (hq.trans (List.dropLast_prefix _)) with
    | inl hcq => rw [hcq]; exact h.wayToSaved s' hs' hex q hq
    | inr hcq => exact Or.inl hcq

theorem installed (L : Layout pre own slots) (h : Recoverable pre own slots t) (hs : s ∈ slots)
    {src : Path} (hown : ∀ q, src <+: q → own q)
    (hsrc : ∀ s' ∈ slots, ∀ q, q <+: s'.saved → ¬ src <+: q)
    (hkeep : pre.node s.live ≠ none → t.node s.saved = pre.node s.live)
    (hlink : ∀ s' ∈ slots, ∀ r, s.live ++ r <+: s'.live → s.live ++ r ≠ s'.live →
      ∀ target, t.node (src ++ r) ≠ some (.symlink target))
    (hc : ∀ q, c.node q = t.moved src s.live q) : Recoverable pre own slots c := by
  have hnot : ∀ q, ¬ s.live <+: q → ¬ src <+: q → c.node q = t.node q := by
    intro q h1 h2
    rw [hc, Tree.moved, if_neg h1, if_neg h2]
  have hsaved : ∀ s' ∈ slots, ∀ q, q <+: s'.saved → c.node q = t.node q := fun s' hs' q hq =>
    hnot q (L.apart s' hs' s hs q hq) (hsrc s' hs' q hq)
  constructor
  · intro q hq hlive
    rw [hnot q (hlive s hs) fun hp => hq (hown q hp)]
    exact h.frame q hq hlive
  · intro s' hs' hex
    rw [hsaved s' hs' _ List.prefix_rfl]
    by_cases hp : s.live <+: s'.live
    · have he := L.live_eq hs hex hp
      rw [← he] at hex ⊢
      exact Or.inl (L.saved_eq hs hs' he ▸ hkeep hex)
    · rw [hnot _ hp fun hp => L.not_own_live hs' (hown _ hp)]
      exact h.kept s' hs' hex
  · intro s' hs' q hq hne target hl
    by_cases hp : s.live <+: q
    · obtain ⟨r, rfl⟩ := hp
      rw [hc, Tree.moved, if_pos (List.prefix_append _ _), List.drop_left] at hl
      exact hlink s' hs' r hq hne target hl
    · rw [hnot q hp fun hp => L.outside s' hs' _ _ List.prefix_rfl hq (hown q hp)] at hl
      exact h.noLink s' hs' q hq hne target hl
  · intro s' hs' hex q hq
    rw [hsaved s' hs' q (hq.trans (List.dropLast_prefix _))]
    exact h.wayToSaved s' hs' hex q hq

end Recoverable

end PlumosBubble.FileSystem
