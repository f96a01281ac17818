import Mathlib.Data.List.Basic

/-! Actions on a store of cells that each change a region of it, every cell by what that
cell holds alone. What a sequence of such actions leaves in a cell depends on those of them
that have the cell in their region, and on their order. -/

namespace PlumosBubble.Sequence

variable {ι α κ : Type*}

/-- An action on a region, cell by cell. -/
structure Local (act : (ι → α) → ι → α) (region : ι → Bool) : Prop where
  outside : ∀ b i, region i = false → act b i = b i
  inside : ∀ b b' i, b i = b' i → act b i = act b' i

/-- Take the actions in their order. -/
def runAll (act : κ → (ι → α) → ι → α) (ks : List κ) (b : ι → α) : ι → α :=
  ks.foldl (fun b k => act k b) b

theorem Local.id (region : ι → Bool) : Local (fun b : ι → α => b) region :=
  ⟨fun _ _ _ => rfl, fun _ _ _ h => h⟩

theorem Local.comp {act act' : (ι → α) → ι → α} {region : ι → Bool} (h : Local act region)
    (h' : Local act' region) : Local (fun b => act' (act b)) region where
  outside b i hi := by rw [h'.outside _ _ hi, h.outside _ _ hi]
  inside b b' i hb := h'.inside _ _ _ (h.inside _ _ _ hb)

variable {act : κ → (ι → α) → ι → α}

theorem runAll_append (ks ks' : List κ) (b : ι → α) :
    runAll act (ks ++ ks') b = runAll act ks' (runAll act ks b) := List.foldl_append

variable {region : κ → ι → Bool}

theorem runAll_congr {ks : List κ} (h : ∀ k ∈ ks, Local (act k) (region k)) {b b' : ι → α}
    {i : ι} (hb : b i = b' i) : runAll act ks b i = runAll act ks b' i := by
  induction ks generalizing b b' with
  | nil => exact hb
  | cons k ks ih =>
    apply ih fun k' hk' => h k' (List.mem_cons_of_mem _ hk')
    exact (h k List.mem_cons_self).inside _ _ _ hb

theorem runAll_filter {ks : List κ} (h : ∀ k ∈ ks, Local (act k) (region k)) (b : ι → α)
    (i : ι) : runAll act ks b i = runAll act (ks.filter (region · i)) b i := by
  induction ks generalizing b with
  | nil => rfl
  | cons k ks ih =>
    have hrest : ∀ k' ∈ ks, Local (act k') (region k') :=
      fun k' hk' => h k' (List.mem_cons_of_mem _ hk')
    cases hk : region k i with
    | true =>
      have hfilter : (k :: ks).filter (region · i) = k :: ks.filter (region · i) :=
        List.filter_cons_of_pos hk
      rw [hfilter]
      exact ih hrest (act k b)
    | false =>
      have hfilter : (k :: ks).filter (region · i) = ks.filter (region · i) :=
        List.filter_cons_of_neg (by simp [hk])
      rw [hfilter, ← ih hrest b]
      exact runAll_congr hrest ((h k List.mem_cons_self).outside b i hk)

variable (region) in
theorem runAll_eq_of_filter_eq {ks ks' : List κ} (h : ∀ k ∈ ks, Local (act k) (region k))
    (h' : ∀ k ∈ ks', Local (act k) (region k))
    (hsame : ∀ i, ks.filter (region · i) = ks'.filter (region · i)) (b : ι → α) :
    runAll act ks b = runAll act ks' b := by
  funext i
  rw [runAll_filter h, runAll_filter h', hsame]

theorem Local.foldl {σ : Type*} {step : σ → κ → σ} {write : σ → κ → (ι → α) → ι → α}
    {ks : List κ} {cells : ι → Bool} (h : ∀ s, ∀ k ∈ ks, Local (write s k) cells) (s : σ) :
    Local (fun b => (ks.foldl (fun (p : (ι → α) × σ) k => (write p.2 k p.1, step p.2 k))
      (b, s)).1) cells := by
  induction ks generalizing s with
  | nil => exact Local.id cells
  | cons k ks ih =>
    exact (h s k List.mem_cons_self).comp
      (ih (fun s k' hk' => h s k' (List.mem_cons_of_mem _ hk')) (step s k))

end PlumosBubble.Sequence
