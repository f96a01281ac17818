import Mathlib.Data.List.Perm.Basic
import Mathlib.Data.List.Dedup
import PlumosBubble.Sequence.KeepNew

/-! Of a list with keys, the first item of each key. Where the items of one key are as good as
each other, the order of the list does not matter. -/

namespace PlumosBubble.Sequence

variable {α κ : Type*} [DecidableEq κ] (key : α → κ)

/-- The first items of the keys that have not been seen. -/
def firsts (seen : List κ) : List α → List α
  | [] => []
  | x :: xs => if key x ∈ seen then firsts seen xs else x :: firsts (key x :: seen) xs

/-- The same, block by block. -/
def firstsIn (seen : List κ) : List (List α) → List (List α)
  | [] => []
  | b :: bs => firsts key seen b :: firstsIn (seen ++ b.map key) bs

variable {key} {seen seen' : List κ} {xs : List α} {x : α}

theorem firsts_congr (h : ∀ k, k ∈ seen ↔ k ∈ seen') (xs : List α) :
    firsts key seen xs = firsts key seen' xs := by
  induction xs generalizing seen seen' with
  | nil => rfl
  | cons x xs ih =>
    have hcons : ∀ k, k ∈ key x :: seen ↔ k ∈ key x :: seen' := by
      intro k
      rw [List.mem_cons, List.mem_cons, h]
    simp only [firsts, h, ih h, ih hcons]

theorem firsts_append (xs ys : List α) :
    firsts key seen (xs ++ ys) = firsts key seen xs ++ firsts key (seen ++ xs.map key) ys := by
  induction xs generalizing seen with
  | nil => simp [firsts]
  | cons x xs ih =>
    rw [List.cons_append, firsts, firsts]
    split_ifs with hx
    · rw [ih]
      congr 1
      apply firsts_congr
      intro k
      simp only [List.map_cons, List.mem_append, List.mem_cons]
      constructor
      · rintro (hk | hk)
        · exact Or.inl hk
        · exact Or.inr (Or.inr hk)
      · rintro (hk | rfl | hk)
        · exact Or.inl hk
        · exact Or.inl hx
        · exact Or.inr hk
    · rw [ih, List.cons_append]
      congr 2
      apply firsts_congr
      intro k
      simp only [List.map_cons, List.mem_append, List.mem_cons]
      tauto

theorem firsts_flatten (bs : List (List α)) :
    firsts key seen bs.flatten = (firstsIn key seen bs).flatten := by
  induction bs generalizing seen with
  | nil => rfl
  | cons b bs ih =>
    rw [List.flatten_cons, firsts_append, ih]
    rfl

theorem mem_of_mem_firsts (h : x ∈ firsts key seen xs) : x ∈ xs ∧ key x ∉ seen := by
  induction xs generalizing seen with
  | nil => cases h
  | cons y xs ih =>
    rw [firsts] at h
    split_ifs at h with hy
    · exact ⟨List.mem_cons_of_mem _ (ih h).1, (ih h).2⟩
    · rcases List.mem_cons.mp h with rfl | h
      · exact ⟨List.mem_cons_self, hy⟩
      · obtain ⟨hmem, hnot⟩ := ih h
        exact ⟨List.mem_cons_of_mem _ hmem, fun hseen => hnot (List.mem_cons_of_mem _ hseen)⟩

theorem exists_mem_firsts (hx : x ∈ xs) (hseen : key x ∉ seen) :
    ∃ y ∈ firsts key seen xs, key y = key x := by
  induction xs generalizing seen with
  | nil => cases hx
  | cons y xs ih =>
    rw [firsts]
    rcases List.mem_cons.mp hx with rfl | hx
    · rw [if_neg hseen]
      exact ⟨x, List.mem_cons_self, rfl⟩
    · split_ifs with hy
      · exact ih hx hseen
      · by_cases hsame : key x = key y
        · exact ⟨y, List.mem_cons_self, hsame.symm⟩
        · obtain ⟨z, hz, hkey⟩ := ih hx fun h => (List.mem_cons.mp h).elim hsame hseen
          exact ⟨z, List.mem_cons_of_mem _ hz, hkey⟩

theorem nodup_firsts (xs : List α) : ((firsts key seen xs).map key).Nodup := by
  induction xs generalizing seen with
  | nil => exact List.nodup_nil
  | cons x xs ih =>
    rw [firsts]
    split_ifs with hx
    · exact ih
    · rw [List.map_cons, List.nodup_cons]
      refine ⟨fun hmem => ?_, ih⟩
      obtain ⟨y, hy, hkey⟩ := List.mem_map.mp hmem
      exact (mem_of_mem_firsts hy).2 (hkey ▸ List.mem_cons_self)

theorem firsts_cons (hseen : key x ∉ seen) :
    firsts key seen (x :: xs) = x :: firsts key (key x :: seen) xs := by
  rw [firsts, if_neg hseen]

theorem eq_of_mem_firsts {y : α} (hx : x ∈ firsts key seen xs) (hy : y ∈ firsts key seen xs)
    (h : key x = key y) : x = y :=
  List.inj_on_of_nodup_map (nodup_firsts xs) hx hy h

/-- Where sameness is equality of keys, a list built by `keepNew` has the first items. -/
theorem keepNew_eq_firsts {same : α → α → Bool} {kept : List α}
    (h : ∀ x ∈ kept ++ xs, ∀ y ∈ kept ++ xs, same x y = true ↔ key x = key y) :
    keepNew same kept xs = kept ++ firsts key (kept.map key) xs := by
  induction xs generalizing kept with
  | nil => simp [firsts]
  | cons x xs ih =>
    have hany : kept.any (same x) = true ↔ key x ∈ kept.map key := by
      rw [List.any_eq_true, List.mem_map]
      refine exists_congr fun y => and_congr_right fun hy => ?_
      rw [h x (by simp) y (by simp [hy]), eq_comm]
    rw [keepNew_cons, firsts]
    by_cases hx : key x ∈ kept.map key
    · rw [addNew_of_any (hany.mpr hx), if_pos hx]
      exact ih fun y hy z hz => h y (by simp at hy ⊢; tauto) z (by simp at hz ⊢; tauto)
    · rw [addNew_of_not_any (fun hmem => hx (hany.mp hmem)), if_neg hx, ih fun y hy z hz =>
        h y (by simpa using hy) z (by simpa using hz), List.append_assoc, List.singleton_append]
      congr 2
      apply firsts_congr
      intro k
      simp only [List.map_append, List.map_cons, List.map_nil, List.mem_append, List.mem_cons,
        List.not_mem_nil, or_false]
      exact or_comm

/-- Two lists with the same items up to their order, read by `e` and by `e'`: where the items of
a key are all read as one row, the first items are read as the same rows. -/
theorem firsts_map_perm {β ρ : Type*} {l l' : List β} {e e' : β → α}
    {row : α → ρ} (hperm : l.Perm l') (hkey : ∀ f ∈ l, key (e' f) = key (e f))
    (hrow : ∀ f ∈ l, ∀ g ∈ l, key (e f) ∉ seen → key (e g) = key (e f) →
      row (e' g) = row (e f)) :
    ((firsts key seen (l.map e)).map row).Perm ((firsts key seen (l'.map e')).map row) := by
  have hmem : ∀ f, f ∈ l' ↔ f ∈ l := fun f => hperm.mem_iff.symm
  have hsame : ∀ f ∈ l, ∀ g ∈ l, key (e f) ∉ seen → key (e g) = key (e f) →
      row (e g) = row (e f) := by
    intro f hf g hg hseen hfg
    rw [← hrow g hg g hg (hfg ▸ hseen) rfl, hrow f hf g hg hseen hfg]
  -- keys with their rows, each key once
  have hpairs : ((firsts key seen (l.map e)).map fun x => (key x, row x)).Perm
      ((firsts key seen (l'.map e')).map fun x => (key x, row x)) := by
    have hnodup : ∀ xs : List α, ((firsts key seen xs).map fun x => (key x, row x)).Nodup := by
      intro xs
      apply List.Nodup.of_map Prod.fst
      rw [List.map_map]
      exact nodup_firsts xs
    rw [List.perm_ext_iff_of_nodup (hnodup _) (hnodup _)]
    rintro ⟨k, r⟩
    simp only [List.mem_map, Prod.mk.injEq]
    constructor
    · rintro ⟨x, hx, rfl, rfl⟩
      obtain ⟨hxmem, hxseen⟩ := mem_of_mem_firsts hx
      obtain ⟨f, hf, rfl⟩ := List.mem_map.mp hxmem
      have hf' : e' f ∈ l'.map e' := List.mem_map_of_mem ((hmem f).mpr hf)
      have hseen' : key (e' f) ∉ seen := by
        rw [hkey f hf]
        exact hxseen
      obtain ⟨y, hy, hkeys⟩ := exists_mem_firsts hf' hseen'
      obtain ⟨g, hg, rfl⟩ := List.mem_map.mp (mem_of_mem_firsts hy).1
      have hgl := (hmem g).mp hg
      have hgf : key (e g) = key (e f) := by
        rw [← hkey g hgl, hkeys, hkey f hf]
      exact ⟨e' g, hy, by rw [hkey g hgl, hgf], hrow f hf g hgl hxseen hgf⟩
    · rintro ⟨x, hx, rfl, rfl⟩
      obtain ⟨hxmem, hxseen⟩ := mem_of_mem_firsts hx
      obtain ⟨f, hf, rfl⟩ := List.mem_map.mp hxmem
      have hfl := (hmem f).mp hf
      rw [hkey f hfl] at hxseen
      obtain ⟨y, hy, hkeys⟩ := exists_mem_firsts (List.mem_map_of_mem hfl) hxseen
      obtain ⟨g, hg, rfl⟩ := List.mem_map.mp (mem_of_mem_firsts hy).1
      refine ⟨e g, hy, by rw [hkeys, hkey f hfl], ?_⟩
      rw [hsame f hfl g hg hxseen hkeys, hrow f hfl f hfl hxseen rfl]
  have hsnd := hpairs.map Prod.snd
  rwa [List.map_map, List.map_map] at hsnd

end PlumosBubble.Sequence
