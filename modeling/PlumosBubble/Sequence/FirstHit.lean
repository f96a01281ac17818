import Mathlib.Data.List.Find

/-! The first hit of a search over a list, with and without some of the items. -/

namespace PlumosBubble.Sequence

variable {α β : Type*}

theorem forall_split_cons {P : List α → α → List α → Prop} {z : α} {zs : List α} :
    (∀ before x after, z :: zs = before ++ x :: after → P before x after) ↔
      P [] z zs ∧ ∀ before x after, zs = before ++ x :: after → P (z :: before) x after := by
  constructor
  · intro h
    refine ⟨h [] z zs rfl, ?_⟩
    rintro before x after rfl
    exact h (z :: before) x after rfl
  · rintro ⟨hhead, htail⟩ before x after heq
    cases before with
    | nil =>
      obtain ⟨rfl, rfl⟩ := List.cons.inj heq
      exact hhead
    | cons y before =>
      obtain ⟨rfl, hrest⟩ := List.cons.inj heq
      exact htail before x after hrest

/-- Searching with and without the items in `p` gives the same exactly if no such item is
the first hit, or the first hit of the others behind it is the same. -/
theorem findSome?_eq_without_iff {f g : α → Option β} {p : α → Prop}
    (hg : ∀ x, (p x ∧ g x = none) ∨ (¬p x ∧ g x = f x)) (xs : List α) :
    xs.findSome? f = xs.findSome? g ↔
      ∀ before x after, xs = before ++ x :: after → p x → (∀ y ∈ before, f y = none) →
        f x = none ∨ f x = after.findSome? g := by
  induction xs with
  | nil => simp
  | cons z zs ih =>
    rw [forall_split_cons, List.findSome?_cons, List.findSome?_cons]
    have htail : f z = none → ((∀ before x after, zs = before ++ x :: after → p x →
        (∀ y ∈ z :: before, f y = none) → f x = none ∨ f x = after.findSome? g) ↔
          zs.findSome? f = zs.findSome? g) := by
      intro hz
      rw [ih]
      simp only [List.forall_mem_cons, hz, true_and]
    have hvacuous : ∀ v, f z = some v → ∀ before x after, zs = before ++ x :: after → p x →
        (∀ y ∈ z :: before, f y = none) → f x = none ∨ f x = after.findSome? g := by
      intro v hv before x after _ _ hnone
      have hz := hnone z List.mem_cons_self
      simp [hv] at hz
    cases hf : f z with
    | none =>
      have hgz : g z = none := by
        rcases hg z with ⟨-, h⟩ | ⟨-, h⟩
        · exact h
        · rw [h, hf]
      simp only [hgz, htail hf, true_or, implies_true, true_and]
    | some v =>
      rcases hg z with ⟨hp, hgz⟩ | ⟨hp, hgz⟩
      · simp only [hgz, hp, List.not_mem_nil, false_implies, implies_true, forall_true_left,
          reduceCtorEq, false_or, and_iff_left (hvacuous v hf)]
      · simp only [hgz, hf, hp, false_implies, true_and]
        exact ⟨fun _ => hvacuous v hf, fun _ => trivial⟩

/-- Where all that `q` holds of are hits of `p`, the first hit of `p` is the first one of `q`
exactly if every hit of `p` alone comes behind one of `q`. -/
theorem find?_eq_find?_iff {p q : α → Bool} (hpq : ∀ x, q x = true → p x = true) (xs : List α) :
    xs.find? q = xs.find? p ↔
      ∀ before x after, xs = before ++ x :: after → p x = true → q x = false →
        ∃ y ∈ before, q y = true := by
  induction xs with
  | nil => simp
  | cons z zs ih =>
    rw [forall_split_cons, List.find?_cons, List.find?_cons]
    cases hq : q z with
    | true =>
      have hp := hpq z hq
      simp only [hp, true_iff]
      exact ⟨fun _ h => absurd h (by simp), fun before x after _ _ _ => ⟨z, by simp, hq⟩⟩
    | false =>
      cases hp : p z with
      | true =>
        simp only [List.not_mem_nil, false_and, exists_false, imp_false, not_true_eq_false,
          iff_false]
        intro h
        have hz := List.find?_some h
        rw [hq] at hz
        cases hz
      | false =>
        simp only [Bool.false_eq_true, false_implies, true_and, ih, List.mem_cons,
          exists_eq_or_imp, hq, false_or]

theorem find?_take_filter {κ : Type*} {key : α → κ} {p chosen : α → Bool} {n : ℕ} {xs : List α}
    (hsame : ∀ x y, key x = key y → p x = p y)
    (hchosen : ∀ x ∈ xs, p x = true → chosen x = true ∧
      ∃ y ∈ (xs.filter chosen).take n, key y = key x) :
    ((xs.filter chosen).take n).find? p = xs.find? p := by
  have hall : (xs.filter chosen).find? p = xs.find? p := by
    rw [List.find?_filter]
    apply List.find?_congr
    intro x hx
    cases hp : p x with
    | true => simp [(hchosen x hx hp).1]
    | false => simp
  have hsplit := List.take_append_drop n (xs.filter chosen)
  rw [← hall, ← hsplit, List.find?_append, hsplit]
  cases htable : ((xs.filter chosen).take n).find? p with
  | some y => rfl
  | none =>
    cases hrest : ((xs.filter chosen).drop n).find? p with
    | none => rfl
    | some x =>
      have hpx := List.find?_some hrest
      have hx := (List.mem_filter.mp
        (List.mem_of_mem_drop (List.mem_of_find?_eq_some hrest))).1
      obtain ⟨-, y, hy, hkey⟩ := hchosen x hx hpx
      have hpy := List.find?_eq_none.mp htable y hy
      rw [hsame y x hkey] at hpy
      exact absurd hpx hpy

end PlumosBubble.Sequence
