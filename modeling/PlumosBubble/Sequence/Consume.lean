import PlumosBubble.Sequence.FirstHit

/-! A loop that takes its items from an input which its body may read too: an item can lose those
behind it. -/

namespace PlumosBubble.Sequence

variable {σ α β : Type*}

/-- What may be left of an input: all of it, or less. -/
def Left (xs rest : List α) : Prop := rest = xs ∨ rest.length < xs.length

namespace Left

variable {xs ys zs : List α}

theorem all (xs : List α) : Left xs xs := Or.inl rfl

theorem length_le (h : Left xs ys) : ys.length ≤ xs.length := by
  rcases h with rfl | hless
  · exact Nat.le_refl _
  · exact Nat.le_of_lt hless

theorem eq_of_length_le (h : Left xs ys) (hle : xs.length ≤ ys.length) : ys = xs := by
  rcases h with hsame | hless
  · exact hsame
  · omega

theorem trans (h : Left xs ys) (h' : Left ys zs) : Left xs zs := by
  rcases h with rfl | hless
  · exact h'
  · exact Or.inr (Nat.lt_of_le_of_lt h'.length_le hless)

end Left

/-- The items that are reached, each with what comes out of it. `out` also tells what is left of
the input, and `next` the state behind the item. -/
def consume (next : σ → α → σ) (out : σ → α → List α → β × List α) :
    ℕ → σ → List α → List (α × β)
  | 0, _, _ => []
  | _ + 1, _, [] => []
  | fuel + 1, s, x :: rest =>
    (x, (out s x rest).1) :: consume next out fuel (next s x) (out s x rest).2

variable {next : σ → α → σ} {out : σ → α → List α → β × List α}

theorem length_consume_le (hout : ∀ s x rest, Left rest (out s x rest).2) (fuel : ℕ) (s : σ)
    (xs : List α) : (consume next out fuel s xs).length ≤ xs.length := by
  induction fuel generalizing s xs with
  | zero => exact Nat.zero_le _
  | succ fuel ih =>
    cases xs with
    | nil => exact Nat.le_refl _
    | cons x rest =>
      exact Nat.succ_le_succ ((ih (next s x) (out s x rest).2).trans (hout s x rest).length_le)

/-- Every item is reached, and gives what `own` says, exactly if each gives this in the state
behind those before it, and leaves the input alone. -/
theorem consume_eq_map_iff {own : α → β} (hout : ∀ s x rest, Left rest (out s x rest).2)
    {fuel : ℕ} {xs : List α} (hfuel : xs.length ≤ fuel) (s : σ) :
    consume next out fuel s xs = xs.map (fun x => (x, own x)) ↔
      ∀ before x after, xs = before ++ x :: after →
        out (before.foldl next s) x after = (own x, after) := by
  induction fuel generalizing s xs with
  | zero =>
    rw [List.length_eq_zero_iff.mp (Nat.le_zero.mp hfuel)]
    simp [consume]
  | succ fuel ih =>
    cases xs with
    | nil => simp [consume]
    | cons x rest =>
      have hrest : rest.length ≤ fuel := Nat.le_of_succ_le_succ hfuel
      have htail := ih hrest (next s x)
      rw [forall_split_cons (P := fun before x after =>
        out (before.foldl next s) x after = (own x, after))]
      simp only [consume, List.map_cons, List.cons.injEq, Prod.mk.injEq, true_and,
        List.foldl_nil, List.foldl_cons]
      rw [← htail]
      constructor
      · rintro ⟨hown, hmap⟩
        have hlength : (consume next out fuel (next s x) (out s x rest).2).length ≤ _ :=
          length_consume_le hout fuel (next s x) (out s x rest).2
        rw [hmap, List.length_map] at hlength
        have hsame := (hout s x rest).eq_of_length_le hlength
        refine ⟨Prod.ext hown hsame, ?_⟩
        rwa [hsame] at hmap
      · rintro ⟨hx, hmap⟩
        rw [hx]
        exact ⟨rfl, hmap⟩

end PlumosBubble.Sequence
