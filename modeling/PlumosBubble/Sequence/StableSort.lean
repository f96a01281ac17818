import Mathlib.Data.List.Sort

/-! What a stable sort leaves of the order of a list: items that compare equal stay in their
order, and nothing else is seen. Two lists that agree on all classes of equal items are sorted to
one list. -/

namespace PlumosBubble.Sequence

variable {α : Type*} {le : α → α → Bool}

/-- A comparison that says of any two items which of them may come first. -/
structure Comparison (le : α → α → Bool) : Prop where
  trans : ∀ a b c, le a b = true → le b c = true → le a c = true
  total : ∀ a b, (le a b || le b a) = true

/-- The items compare equal. -/
def tied (le : α → α → Bool) (a b : α) : Bool := le a b && le b a

theorem tied_iff {a b : α} : tied le a b = true ↔ le a b = true ∧ le b a = true := by
  simp [tied]

namespace Comparison

variable (h : Comparison le)

include h

theorem refl (a : α) : le a a = true := by simpa using h.total a a

theorem tied_self (a : α) : tied le a a = true := tied_iff.mpr ⟨h.refl a, h.refl a⟩

theorem tied_of_tied {a b c : α} (hb : tied le a b = true) (hc : tied le a c = true) :
    tied le b c = true := by
  obtain ⟨hab, hba⟩ := tied_iff.mp hb
  obtain ⟨hac, hca⟩ := tied_iff.mp hc
  exact tied_iff.mpr ⟨h.trans _ _ _ hba hac, h.trans _ _ _ hca hab⟩

theorem filter_tied_mergeSort (a : α) (l : List α) :
    (l.mergeSort le).filter (tied le a) = l.filter (tied le a) := by
  have hsorted : (l.filter (tied le a)).Pairwise fun x y => le x y = true := by
    rw [List.pairwise_filter]
    refine List.pairwise_of_forall fun x y hx hy => ?_
    exact (tied_iff.mp (h.tied_of_tied hx hy)).1
  have hsublist : (l.filter (tied le a)).Sublist (l.mergeSort le) :=
    List.sublist_mergeSort h.trans h.total hsorted List.filter_sublist
  have hfilter := hsublist.filter (tied le a)
  rw [List.filter_filter] at hfilter
  simp only [Bool.and_self] at hfilter
  refine (hfilter.eq_of_length ?_).symm
  exact ((List.mergeSort_perm l le).filter (tied le a)).length_eq.symm

theorem eq_of_sorted {l l' : List α} (hl : l.Pairwise fun x y => le x y = true)
    (hl' : l'.Pairwise fun x y => le x y = true)
    (hties : ∀ a, l.filter (tied le a) = l'.filter (tied le a)) : l = l' := by
  have hmem : ∀ {xs ys : List α}, (∀ a, xs.filter (tied le a) = ys.filter (tied le a)) →
      ∀ {x}, x ∈ xs → x ∈ ys := by
    intro xs ys hfilter x hx
    have hx' : x ∈ xs.filter (tied le x) := List.mem_filter.mpr ⟨hx, h.tied_self x⟩
    rw [hfilter] at hx'
    exact (List.mem_filter.mp hx').1
  induction l generalizing l' with
  | nil =>
    cases l' with
    | nil => rfl
    | cons y ys => exact absurd (hmem (fun a => (hties a).symm) List.mem_cons_self) List.not_mem_nil
  | cons x xs ih =>
    cases l' with
    | nil => exact absurd (hmem hties List.mem_cons_self) List.not_mem_nil
    | cons y ys =>
      have hhead : ∀ {x y : α} {xs : List α}, (x :: xs).Pairwise (fun x y => le x y = true) →
          y ∈ x :: xs → le x y = true := by
        intro x y xs hsorted hy
        rcases List.mem_cons.mp hy with rfl | hy
        · exact h.refl _
        · exact (List.pairwise_cons.mp hsorted).1 _ hy
      have hxy : tied le x y = true := tied_iff.mpr
        ⟨hhead hl (hmem (fun a => (hties a).symm) List.mem_cons_self),
          hhead hl' (hmem hties List.mem_cons_self)⟩
      have hfirst := hties x
      rw [List.filter_cons_of_pos (h.tied_self x), List.filter_cons_of_pos hxy] at hfirst
      obtain ⟨rfl, -⟩ := List.cons.inj hfirst
      rw [ih (List.pairwise_cons.mp hl).2 (List.pairwise_cons.mp hl').2 fun a => ?_]
      have ha := hties a
      simp only [List.filter_cons] at ha
      split_ifs at ha with htied
      · exact (List.cons.inj ha).2
      · exact ha

theorem mergeSort_congr {l l' : List α}
    (hties : ∀ a, l.filter (tied le a) = l'.filter (tied le a)) :
    l.mergeSort le = l'.mergeSort le := by
  refine h.eq_of_sorted (List.pairwise_mergeSort h.trans h.total l)
    (List.pairwise_mergeSort h.trans h.total l') fun a => ?_
  rw [h.filter_tied_mergeSort, h.filter_tied_mergeSort, hties]

theorem filter_tied_perm {l l' : List α} (hperm : l.Perm l')
    (hstrict : l.Pairwise fun x y => tied le x y = false) (a : α) :
    l.filter (tied le a) = l'.filter (tied le a) := by
  have hfilter := hperm.filter (tied le a)
  have hstrict' : (l.filter (tied le a)).Pairwise fun x y => tied le x y = false :=
    hstrict.filter _
  cases hl : l.filter (tied le a) with
  | nil =>
    rw [hl] at hfilter
    exact hfilter.nil_eq
  | cons x xs =>
    cases xs with
    | nil =>
      rw [hl] at hfilter
      exact List.singleton_perm.mp hfilter
    | cons y xs =>
      have hmem : ∀ z ∈ x :: y :: xs, tied le a z = true := by
        intro z hz
        rw [← hl] at hz
        exact (List.mem_filter.mp hz).2
      rw [hl] at hstrict'
      have hne := (List.pairwise_cons.mp hstrict').1 y List.mem_cons_self
      rw [h.tied_of_tied (hmem x (by simp)) (hmem y (by simp))] at hne
      cases hne

theorem mergeSort_flatten {bs bs' : List (List α)}
    (hblocks : List.Forall₂ (fun b b' => b.Perm b' ∧
      b.Pairwise fun x y => tied le x y = false) bs bs') :
    bs.flatten.mergeSort le = bs'.flatten.mergeSort le := by
  refine h.mergeSort_congr fun a => ?_
  induction hblocks with
  | nil => rfl
  | cons hblock _ ih =>
    rw [List.flatten_cons, List.flatten_cons, List.filter_append, List.filter_append, ih,
      h.filter_tied_perm hblock.1 hblock.2]

end Comparison

/-- First by one comparison, and where it is tied by another. -/
def lexLe (le le' : α → α → Bool) (a b : α) : Bool := if tied le a b then le' a b else le a b

theorem Comparison.comap {β : Type*} (h : Comparison le) (f : β → α) :
    Comparison fun a b => le (f a) (f b) :=
  ⟨fun _ _ _ => h.trans _ _ _, fun _ _ => h.total _ _⟩

theorem Comparison.lex {le' : α → α → Bool} (h : Comparison le) (h' : Comparison le') :
    Comparison (lexLe le le') := by
  have hle : ∀ {a b}, lexLe le le' a b = true ↔
      le a b = true ∧ (le b a = true → le' a b = true) := by
    intro a b
    unfold lexLe
    split_ifs with htied
    · obtain ⟨hab, hba⟩ := tied_iff.mp htied
      simp [hab, hba]
    · rw [tied_iff, not_and] at htied
      exact ⟨fun hab => ⟨hab, fun hba => absurd hba (htied hab)⟩, And.left⟩
  constructor
  · intro a b c hab hbc
    rw [hle] at hab hbc ⊢
    refine ⟨h.trans _ _ _ hab.1 hbc.1, fun hca => ?_⟩
    exact h'.trans _ _ _ (hab.2 (h.trans _ _ _ hbc.1 hca)) (hbc.2 (h.trans _ _ _ hca hab.1))
  · intro a b
    rw [Bool.or_eq_true, hle, hle]
    have htotal := h.total a b
    have htotal' := h'.total a b
    rw [Bool.or_eq_true] at htotal htotal'
    tauto

theorem tied_lex {le' : α → α → Bool} {a b : α} :
    tied (lexLe le le') a b = true ↔ tied le a b = true ∧ tied le' a b = true := by
  have hsymm : tied le b a = tied le a b := Bool.and_comm _ _
  rw [tied_iff]
  unfold lexLe
  rw [hsymm]
  by_cases h : tied le a b = true
  · simp [h, tied_iff]
  · rw [if_neg h, if_neg h, ← tied_iff]
    simp [h]

theorem not_nodup_of_pairs {a b : α} {l : List α} (hne : a ≠ b) (hab : [a, b].Sublist l)
    (hba : [b, a].Sublist l) : ¬l.Nodup := by
  intro hnodup
  induction l with
  | nil => exact absurd (List.sublist_nil.mp hab) (List.cons_ne_nil _ _)
  | cons c l ih =>
    obtain ⟨hc, hnodup⟩ := List.nodup_cons.mp hnodup
    have hmem : ∀ {x y : α}, [x, y].Sublist l → x ∈ l ∧ y ∈ l := by
      intro x y hsublist
      exact ⟨hsublist.subset (by simp), hsublist.subset (by simp)⟩
    rcases List.sublist_cons_iff.mp hab with hab' | ⟨r, hr, hrest⟩
    · rcases List.sublist_cons_iff.mp hba with hba' | ⟨r', hr', -⟩
      · exact ih hab' hba' hnodup
      · have hcb := (List.cons.inj hr').1
        exact hc (hcb ▸ (hmem hab').2)
    · have hca := (List.cons.inj hr).1
      rcases List.sublist_cons_iff.mp hba with hba' | ⟨r', hr', -⟩
      · exact hc (hca ▸ (hmem hba').2)
      · exact hne (hca.trans (List.cons.inj hr').1.symm)

end PlumosBubble.Sequence
