import Mathlib.Data.List.Basic
import Mathlib.Data.List.Infix

/-! The pieces of a list between the occurrences of a separator, told by what the list
contains, starts with and ends with. -/

namespace PlumosBubble.Sequence

variable {α : Type*} {a : α}

theorem separated_induction [DecidableEq α] (a : α) {motive : List α → Prop}
    (single : ∀ s, a ∉ s → motive s)
    (cons : ∀ piece s, a ∉ piece → motive s → motive (piece ++ a :: s)) (s : List α) :
    motive s := by
  induction hn : s.length using Nat.strong_induction_on generalizing s with
  | _ n ih =>
    by_cases hmem : a ∈ s
    · obtain ⟨piece, rest, rfl, hpiece⟩ := List.eq_append_cons_of_mem hmem
      refine cons piece rest hpiece (ih rest.length ?_ rest rfl)
      rw [← hn, List.length_append, List.length_cons]
      omega
    · exact single s hmem

theorem prefix_separated {w piece s : List α} (hw : a ∉ w) (hpiece : a ∉ piece) :
    w ++ [a] <+: piece ++ a :: s ↔ w = piece := by
  induction w generalizing piece with
  | nil =>
    cases piece with
    | nil => simp
    | cons x piece =>
      simp only [List.nil_append, List.cons_append, List.cons_prefix_cons, reduceCtorEq,
        iff_false, not_and]
      rintro rfl
      simp at hpiece
  | cons y w ih =>
    cases piece with
    | nil =>
      simp only [List.nil_append, List.cons_append, List.cons_prefix_cons, reduceCtorEq,
        iff_false, not_and]
      rintro rfl
      simp at hw
    | cons x piece =>
      simp only [List.cons_append, List.cons_prefix_cons, List.cons.injEq]
      rw [ih (fun h => hw (List.mem_cons_of_mem _ h)) fun h => hpiece (List.mem_cons_of_mem _ h)]

theorem infix_separated {w piece s : List α} (hw : a ∉ w) (hpiece : a ∉ piece) :
    w ++ [a] <:+: piece ++ a :: s ↔ w <:+ piece ∨ w ++ [a] <:+: s := by
  induction piece with
  | nil =>
    have hhead := prefix_separated (s := s) hw List.not_mem_nil
    rw [List.nil_append] at hhead ⊢
    rw [List.infix_cons_iff, hhead, List.suffix_nil]
  | cons x piece ih =>
    have hhead := prefix_separated (s := s) hw hpiece
    rw [List.cons_append] at hhead ⊢
    rw [List.infix_cons_iff, hhead, ih fun h => hpiece (List.mem_cons_of_mem _ h),
      List.suffix_cons_iff, or_assoc]

theorem cons_infix_separated {w piece s : List α} (hpiece : a ∉ piece) :
    a :: w <:+: piece ++ a :: s ↔ w <+: s ∨ a :: w <:+: s := by
  induction piece with
  | nil => rw [List.nil_append, List.infix_cons_iff, List.cons_prefix_cons, and_iff_right rfl]
  | cons x piece ih =>
    have hx : a ≠ x := fun h => hpiece (h ▸ List.mem_cons_self)
    rw [List.cons_append, List.infix_cons_iff, List.cons_prefix_cons,
      ih fun h => hpiece (List.mem_cons_of_mem _ h)]
    simp only [hx, false_and, false_or]

theorem cons_suffix_separated {w piece s : List α} (hpiece : a ∉ piece) :
    a :: w <:+ piece ++ a :: s ↔ w = s ∨ a :: w <:+ s := by
  induction piece with
  | nil => rw [List.nil_append, List.suffix_cons_iff, List.cons.injEq, and_iff_right rfl]
  | cons x piece ih =>
    have hx : a ≠ x := fun h => hpiece (h ▸ List.mem_cons_self)
    rw [List.cons_append, List.suffix_cons_iff, ih fun h => hpiece (List.mem_cons_of_mem _ h)]
    simp only [List.cons.injEq, hx, false_and, false_or]

theorem prefix_piece {w piece s : List α} (hw : a ∉ w) :
    w <+: piece ++ a :: s ↔ w <+: piece := by
  constructor
  · intro h
    rcases List.prefix_or_prefix_of_prefix h (List.prefix_append piece (a :: s)) with hin | hout
    · exact hin
    · obtain ⟨rest, rfl⟩ := hout
      rw [List.prefix_append_right_inj] at h
      rcases List.prefix_cons_iff.mp h with rfl | ⟨t, rfl, -⟩
      · simp
      · simp at hw
  · exact fun h => h.trans (List.prefix_append _ _)

theorem not_infix_of_not_mem {w s : List α} (hw : a ∈ w) (hs : a ∉ s) : ¬w <:+: s :=
  fun h => hs (h.subset hw)

section Pieces

variable [DecidableEq α]

theorem splitOn_separated {piece : List α} (hpiece : a ∉ piece) (s : List α) :
    (piece ++ a :: s).splitOn a = piece :: s.splitOn a :=
  List.splitOn_append_cons_self_of_not_mem hpiece s

theorem not_mem_of_mem_splitOn {piece s : List α} (h : piece ∈ s.splitOn a) : a ∉ piece := by
  induction s using separated_induction a with
  | single s hs =>
    rw [List.splitOn_eq_singleton hs, List.mem_singleton] at h
    rwa [h]
  | cons first s hfirst ih =>
    rw [splitOn_separated hfirst] at h
    rcases List.mem_cons.mp h with rfl | h
    · exact hfirst
    · exact ih h

theorem mem_splitOn_iff {w : List α} (hw : a ∉ w) (s : List α) :
    w ∈ s.splitOn a ↔
      s = w ∨ w ++ [a] <+: s ∨ a :: w <:+ s ∨ a :: (w ++ [a]) <:+: s := by
  induction s using separated_induction a with
  | single s hs =>
    rw [List.splitOn_eq_singleton hs, List.mem_singleton]
    constructor
    · rintro rfl
      exact Or.inl rfl
    · rintro (rfl | hstart | hend | hmid)
      · rfl
      · exact absurd (hstart.subset (by simp)) hs
      · exact absurd (hend.subset (by simp)) hs
      · exact absurd (hmid.subset (by simp)) hs
  | cons piece s hpiece ih =>
    rw [splitOn_separated hpiece, List.mem_cons, ih, prefix_separated hw hpiece,
      cons_suffix_separated hpiece, cons_infix_separated hpiece]
    have hwhole : piece ++ a :: s ≠ w := by
      rintro rfl
      simp at hw
    simp only [hwhole, false_or, eq_comm (a := s)]
    tauto

theorem infix_iff_exists_suffix {w : List α} (hw : a ∉ w) (s : List α) :
    w ++ [a] <:+: s ↔ ∃ piece ∈ (s.splitOn a).dropLast, w <:+ piece := by
  induction s using separated_induction a with
  | single s hs =>
    rw [List.splitOn_eq_singleton hs]
    simp only [List.dropLast_singleton, List.not_mem_nil, false_and, exists_false, iff_false]
    exact not_infix_of_not_mem (by simp) hs
  | cons piece s hpiece ih =>
    rw [infix_separated hw hpiece, ih, splitOn_separated hpiece,
      List.dropLast_cons_of_ne_nil (List.splitOn_ne_nil a s)]
    simp only [List.mem_cons, exists_eq_or_imp]

theorem prefix_iff_head {w : List α} (hw : a ∉ w) (s : List α) :
    w <+: s ↔ ∃ piece ∈ (s.splitOn a).head?, w <+: piece := by
  induction s using separated_induction a with
  | single s hs => simp [List.splitOn_eq_singleton hs]
  | cons piece s hpiece ih => simp [splitOn_separated hpiece, prefix_piece hw]

theorem infix_iff_exists_prefix {w : List α} (hw : a ∉ w) (s : List α) :
    a :: w <:+: s ↔ ∃ piece ∈ (s.splitOn a).tail, w <+: piece := by
  induction s using separated_induction a with
  | single s hs =>
    rw [List.splitOn_eq_singleton hs]
    simp only [List.tail_cons, List.not_mem_nil, false_and, exists_false, iff_false]
    exact not_infix_of_not_mem List.mem_cons_self hs
  | cons piece s hpiece ih =>
    rw [cons_infix_separated hpiece, ih, prefix_iff_head hw, splitOn_separated hpiece,
      List.tail_cons]
    cases h : s.splitOn a with
    | nil => exact absurd h (List.splitOn_ne_nil a s)
    | cons first rest => simp

end Pieces

end PlumosBubble.Sequence
