import PlumosBubble.Cpufreq.Launchers

/-! The launchers that run are a stack: each is started by the program of the one below it. What
each owes is the governors it has found; one that has not applied its policy, or has restored
them, owes nothing. -/

namespace PlumosBubble.Cpufreq

open Scripts Cpus

variable {N G : Type}

section Invariant

variable (x : Setup N G) (initial : N → G)

/-- What is known of a launcher that runs. -/
structure CellOk (c : Cell N G) : Prop where
  applied : c.applied = true →
    c.snapshotActive = true ∧ c.saved = some (x.cpus.lines c.before) ∧ x.cpus.Readable
  saved : c.snapshotActive = true → ∀ target, c.saved = some target →
    target = x.cpus.lines c.before
  listed : x.cpus.Listed c.before

/-- The governors that a launcher leaves to the one below it are those it has found, unless it
has still to restore them. -/
def Owes (level : N → G) (c : Cell N G) : Prop :=
  c.applied = false → x.cpus.Agree level c.before

def Levels (cell : ℕ → Cell N G) : (N → G) → List ℕ → Prop
  | level, [] => x.cpus.Agree level initial
  | level, i :: is => Owes x level (cell i) ∧ Levels cell (cell i).before is

/-- Each launcher is started by the program of the next one, the last one from outside. -/
def Stacked (cell : ℕ → Cell N G) : List ℕ → Prop
  | [] => True
  | i :: is => x.host i = is.head? ∧ (∀ j ∈ is.head?, (cell j).program = true) ∧ Stacked cell is

structure Inv (s : State N G) : Prop where
  nodup : s.running.Nodup
  stacked : Stacked x s.cell s.running
  levels : Levels x initial s.cell s.governor s.running
  programs : ∀ i, (s.cell i).program = true → i ∈ s.running
  cells : ∀ i ∈ s.running, CellOk x (s.cell i)
  listed : x.cpus.Listed s.governor

/-- What an invocation counts on: its program may end, the rest of it is its own. -/
def Rely : Option ℕ → State N G → State N G → Prop
  | some i, s, t => (t.cell i = s.cell i ∨ t.cell i = (s.cell i).ended) ∧
    (i ∈ t.running ↔ i ∈ s.running)
  | none, _, _ => True

theorem rely_refl (i : Option ℕ) (s : State N G) : Rely i s s := by
  cases i with
  | none => trivial
  | some i => exact ⟨Or.inl rfl, Iff.rfl⟩

theorem rely_trans {i : Option ℕ} {s t u : State N G} (h : Rely i s t) (h' : Rely i t u) :
    Rely i s u := by
  cases i with
  | none => trivial
  | some i =>
    obtain ⟨hcell, hmem⟩ := h
    obtain ⟨hcell', hmem'⟩ := h'
    refine ⟨?_, hmem'.trans hmem⟩
    rcases hcell' with hcell' | hcell' <;> rw [hcell']
    · exact hcell
    · rcases hcell with hcell | hcell <;> rw [hcell]
      · exact Or.inr rfl
      · exact Or.inr rfl

/-- An invocation keeps the invariant, and what the others count on. -/
def protocol : Protocol (Option ℕ) (State N G) where
  inv := Inv x initial
  rely := Rely
  guar i s t := Inv x initial t ∧ ∀ j, j ≠ i → Rely j s t
  rely_refl := rely_refl
  rely_trans := rely_trans
  keeps _ h := h.1
  others hij _ h := h.2 _ (Ne.symm hij)

end Invariant

section Stack

variable {x : Setup N G} {initial level : N → G} {cell cell' : ℕ → Cell N G} {i j : ℕ}
  {is : List ℕ}

theorem Stacked.below (h : Stacked x cell (j :: is)) (hi : i ∈ is) :
    (cell i).program = true := by
  induction is generalizing j with
  | nil => cases hi
  | cons k is ih =>
    obtain ⟨-, hprogram, hrest⟩ := h
    rcases List.mem_cons.mp hi with rfl | hi
    · exact hprogram i rfl
    · exact ih hrest hi

theorem Stacked.hosts (h : Stacked x cell (j :: is)) (hi : i ∈ is) :
    ∃ k ∈ j :: is, x.host k = some i := by
  induction is generalizing j with
  | nil => cases hi
  | cons k is ih =>
    obtain ⟨hhost, -, hrest⟩ := h
    rcases List.mem_cons.mp hi with rfl | hi
    · exact ⟨j, List.mem_cons_self, hhost⟩
    · obtain ⟨m, hm, hm'⟩ := ih hrest hi
      exact ⟨m, List.mem_cons_of_mem j hm, hm'⟩

theorem Stacked.outermost (h : Stacked x cell (j :: is)) : ∃ k ∈ j :: is, x.host k = none := by
  induction is generalizing j with
  | nil => exact ⟨j, List.mem_cons_self, h.1⟩
  | cons k is ih =>
    obtain ⟨m, hm, hm'⟩ := ih h.2.2
    exact ⟨m, List.mem_cons_of_mem j hm, hm'⟩

theorem Stacked.congr (h : Stacked x cell is)
    (hprogram : ∀ k ∈ is, ∀ j, x.host k = some j → (cell j).program = true →
      (cell' j).program = true) : Stacked x cell' is := by
  induction is with
  | nil => trivial
  | cons k is ih =>
    obtain ⟨hhost, hhead, hrest⟩ := h
    refine ⟨hhost, fun j hj => ?_, ih hrest fun m hm => hprogram m (List.mem_cons_of_mem k hm)⟩
    exact hprogram k List.mem_cons_self j (hhost.trans hj) (hhead j hj)

theorem Levels.congr (h : Levels x initial cell level is)
    (hcell : ∀ k ∈ is, (cell' k).before = (cell k).before ∧
      ((cell' k).applied = false → (cell k).applied = false)) :
    Levels x initial cell' level is := by
  induction is generalizing level with
  | nil => exact h
  | cons k is ih =>
    obtain ⟨howes, hrest⟩ := h
    obtain ⟨hbefore, happlied⟩ := hcell k List.mem_cons_self
    refine ⟨fun hno => ?_, ?_⟩
    · rw [hbefore]
      exact howes (happlied hno)
    · rw [hbefore]
      exact ih hrest fun m hm => hcell m (List.mem_cons_of_mem k hm)

theorem Levels.agree {level' : N → G} (h : Levels x initial cell level is)
    (hagree : x.cpus.Agree level' level) : Levels x initial cell level' is := by
  cases is with
  | nil => exact agree_trans hagree h
  | cons k is => exact ⟨fun hno => agree_trans hagree (h.1 hno), h.2⟩

end Stack

section Steps

variable {x : Setup N G} {initial : N → G} {s : State N G} {i : ℕ}
  {f : Cell N G → Cell N G}

theorem vacant_iff : vacant x i s = true ↔ ∀ j ∈ s.running, x.host j ≠ some i := by
  unfold vacant
  rw [List.all_eq_true]
  exact forall_congr' fun j => imp_congr_right fun _ => decide_eq_true_iff

@[simp] theorem setCell_self : (s.setCell i f).cell i = f (s.cell i) := Function.update_self ..

theorem setCell_of_ne {j : ℕ} (h : j ≠ i) : (s.setCell i f).cell j = s.cell j :=
  Function.update_of_ne h ..

theorem Inv.top (h : Inv x initial s) (hi : i ∈ s.running) (hfree : (s.cell i).program = false) :
    ∃ rest, s.running = i :: rest := by
  have hstacked := h.stacked
  revert hi hstacked
  generalize s.running = running
  intro hi hstacked
  cases running with
  | nil => cases hi
  | cons j rest =>
    rcases List.mem_cons.mp hi with rfl | hi
    · exact ⟨rest, rfl⟩
    · have hprogram := hstacked.below hi
      rw [hfree] at hprogram
      cases hprogram

theorem Inv.setCell (h : Inv x initial s) (hrun : i ∈ s.running ∨ (f (s.cell i)).program = false)
    (hok : i ∈ s.running → CellOk x (f (s.cell i)))
    (hbefore : (f (s.cell i)).before = (s.cell i).before)
    (happlied : (f (s.cell i)).applied = false → (s.cell i).applied = false)
    (hprogram : (s.cell i).program = true → (f (s.cell i)).program = false →
      vacant x i s = true) : Inv x initial (s.setCell i f) where
  nodup := h.nodup
  stacked := by
    refine h.stacked.congr fun k hk j hj hthere => ?_
    by_cases hji : j = i
    · subst hji
      rw [setCell_self]
      by_contra hgone
      exact vacant_iff.mp (hprogram hthere (Bool.eq_false_iff.mpr hgone)) k hk hj
    · rw [setCell_of_ne hji]
      exact hthere
  levels := by
    refine h.levels.congr fun k _ => ?_
    by_cases hki : k = i
    · subst hki
      rw [setCell_self]
      exact ⟨hbefore, happlied⟩
    · rw [setCell_of_ne hki]
      exact ⟨rfl, id⟩
  programs j hj := by
    by_cases hji : j = i
    · subst hji
      rw [setCell_self] at hj
      rcases hrun with hrun | hno
      · exact hrun
      · rw [hj] at hno
        cases hno
    · rw [setCell_of_ne hji] at hj
      exact h.programs j hj
  cells j hj := by
    by_cases hji : j = i
    · subst hji
      rw [setCell_self]
      exact hok hj
    · rw [setCell_of_ne hji]
      exact h.cells j hj
  listed := h.listed

theorem rely_setCell (j : Option ℕ) (hj : j ≠ some i) : Rely j s (s.setCell i f) := by
  cases j with
  | none => trivial
  | some j => exact ⟨Or.inl (setCell_of_ne fun h => hj (congrArg some h)), Iff.rfl⟩

theorem guar_setCell (h : Inv x initial s) (hi : i ∈ s.running) (hok : CellOk x (f (s.cell i)))
    (hbefore : (f (s.cell i)).before = (s.cell i).before)
    (happlied : (f (s.cell i)).applied = false → (s.cell i).applied = false)
    (hprogram : (s.cell i).program = true → (f (s.cell i)).program = false →
      vacant x i s = true) :
    (protocol x initial).guar (some i) s (s.setCell i f) :=
  ⟨h.setCell (Or.inl hi) (fun _ => hok) hbefore happlied hprogram, rely_setCell⟩

theorem guar_write {now : N → G} (h : Inv x initial s) (hi : i ∈ s.running)
    (hfree : (s.cell i).program = false) (hok : CellOk x (f (s.cell i)))
    (hbefore : (f (s.cell i)).before = (s.cell i).before)
    (hprogram : (f (s.cell i)).program = false) (howes : Owes x now (f (s.cell i)))
    (hlisted : x.cpus.Listed now) :
    (protocol x initial).guar (some i) s ({ s with governor := now }.setCell i f) := by
  obtain ⟨rest, hrest⟩ := h.top hi hfree
  have hstacked := h.stacked
  have hlevels := h.levels
  have hnodup := h.nodup
  rw [hrest] at hstacked hlevels hnodup
  have hnot : ∀ k ∈ rest, k ≠ i := fun k hk hki => (List.nodup_cons.mp hnodup).1 (hki ▸ hk)
  refine ⟨⟨h.nodup, ?_, ?_, fun j hj => ?_, fun j hj => ?_, hlisted⟩, fun j hj => ?_⟩
  · refine h.stacked.congr fun k _ j _ hthere => ?_
    by_cases hji : j = i
    · subst hji
      rw [hfree] at hthere
      cases hthere
    · rw [setCell_of_ne hji]
      exact hthere
  · change Levels x initial _ now s.running
    rw [hrest]
    refine ⟨?_, ?_⟩
    · rw [setCell_self]
      exact howes
    · rw [setCell_self]
      change Levels x initial _ (f (s.cell i)).before rest
      rw [hbefore]
      refine hlevels.2.congr fun k hk => ?_
      rw [setCell_of_ne (hnot k hk)]
      exact ⟨rfl, id⟩
  · by_cases hji : j = i
    · subst hji
      exact hi
    · rw [setCell_of_ne hji] at hj
      exact h.programs j hj
  · by_cases hji : j = i
    · subst hji
      rw [setCell_self]
      exact hok
    · rw [setCell_of_ne hji]
      exact h.cells j hj
  · cases j with
    | none => trivial
    | some j => exact ⟨Or.inl (setCell_of_ne fun h => hj (congrArg some h)), Iff.rfl⟩

theorem CellOk.start (saved : Option (List (N × G))) {before : N → G}
    (hlisted : x.cpus.Listed before) : CellOk x (.start saved before) :=
  ⟨(fun h => by cases h), (fun h => by cases h), hlisted⟩

theorem guar_start (h : Inv x initial s) (hi : i ∉ s.running) (hmay : mayStart x i s = true) :
    (protocol x initial).guar (some i) s (s.start i) := by
  unfold mayStart at hmay
  rw [Bool.and_eq_true, List.all_eq_true] at hmay
  obtain ⟨hhosted, halone⟩ := hmay
  have hother : ∀ j ∈ s.running, x.host j ≠ x.host i := fun j hj => of_decide_eq_true (halone j hj)
  have hcell : ∀ j, j ≠ i → (s.start i).cell j = s.cell j := fun j hj => Function.update_of_ne hj ..
  have hself : (s.start i).cell i = .start (s.cell i).saved s.governor := Function.update_self ..
  have hne : ∀ j ∈ s.running, j ≠ i := fun j hj hji => hi (hji ▸ hj)
  have hhead : x.host i = s.running.head? ∧ ∀ j ∈ s.running.head?, (s.cell j).program = true := by
    have hstacked := h.stacked
    unfold hosted at hhosted
    cases hhost : x.host i with
    | none =>
      cases hrunning : s.running with
      | nil => exact ⟨rfl, (fun j hj => by cases hj)⟩
      | cons k is =>
        rw [hrunning] at hstacked hother
        obtain ⟨m, hm, hm'⟩ := hstacked.outermost
        exact absurd (hm'.trans hhost.symm) (hother m hm)
    | some k =>
      rw [hhost] at hhosted hother
      have hk := h.programs k hhosted
      cases hrunning : s.running with
      | nil =>
        rw [hrunning] at hk
        cases hk
      | cons m is =>
        rw [hrunning] at hk hstacked hother
        rcases List.mem_cons.mp hk with rfl | hk
        · exact ⟨rfl, fun j hj => by cases hj; exact hhosted⟩
        · obtain ⟨l, hl, hl'⟩ := hstacked.hosts hk
          exact absurd hl' (hother l hl)
  refine ⟨⟨List.nodup_cons.mpr ⟨hi, h.nodup⟩, ⟨hhead.1, fun j hj => ?_, ?_⟩, ⟨?_, ?_⟩,
    fun j hj => ?_, fun j hj => ?_, h.listed⟩, fun j hj => ?_⟩
  · rw [hcell j (hne j (List.mem_of_mem_head? hj))]
    exact hhead.2 j hj
  · refine h.stacked.congr fun k hk j hj hthere => ?_
    rw [hcell j (hne j (h.programs j hthere))]
    exact hthere
  · rw [hself]
    exact fun _ policy _ => rfl
  · rw [hself]
    refine Levels.congr h.levels fun k hk => ?_
    rw [hcell k (hne k hk)]
    exact ⟨rfl, id⟩
  · by_cases hji : j = i
    · rw [hji]
      exact List.mem_cons_self
    · rw [hcell j hji] at hj
      exact List.mem_cons_of_mem i (h.programs j hj)
  · by_cases hji : j = i
    · rw [hji, hself]
      exact CellOk.start _ h.listed
    · rw [hcell j hji]
      exact h.cells j ((List.mem_cons.mp hj).resolve_left hji)
  · cases j with
    | none => trivial
    | some j =>
      have hji : j ≠ i := fun h => hj (congrArg some h)
      refine ⟨Or.inl (hcell j hji), ?_⟩
      change j ∈ i :: s.running ↔ j ∈ s.running
      rw [List.mem_cons]
      exact or_iff_right hji

theorem guar_leave (h : Inv x initial s) (hi : i ∈ s.running)
    (hfree : (s.cell i).program = false) (happlied : (s.cell i).applied = false) :
    (protocol x initial).guar (some i) s (s.leave i) := by
  obtain ⟨rest, hrest⟩ := h.top hi hfree
  have hleave : s.running.erase i = rest := by rw [hrest, List.erase_cons_head]
  have hstacked := h.stacked
  have hlevels := h.levels
  have hnodup := h.nodup
  have hprograms := h.programs
  have hcells := h.cells
  rw [hrest] at hstacked hlevels hnodup hprograms hcells
  unfold State.leave
  rw [hleave]
  refine ⟨⟨(List.nodup_cons.mp hnodup).2, hstacked.2.2, hlevels.2.agree (hlevels.1 happlied),
    fun j hj => ?_, fun j hj => hcells j (List.mem_cons_of_mem i hj), h.listed⟩, fun j hj => ?_⟩
  · rcases List.mem_cons.mp (hprograms j hj) with rfl | hmem
    · rw [hfree] at hj
      cases hj
    · exact hmem
  · cases j with
    | none => trivial
    | some j =>
      refine ⟨Or.inl rfl, ?_⟩
      change j ∈ rest ↔ j ∈ s.running
      rw [hrest, List.mem_cons]
      exact (or_iff_right fun h => hj (congrArg some h)).symm

theorem guar_endProgram (h : Inv x initial s) (hvacant : vacant x i s = true) :
    (protocol x initial).guar none s (s.endProgram i) := by
  refine ⟨h.setCell (Or.inr rfl) (fun hi => ?_) rfl id fun _ _ => hvacant, fun j hj => ?_⟩
  · have hok := h.cells i hi
    exact ⟨hok.applied, hok.saved, hok.listed⟩
  · cases j with
    | none => exact absurd rfl hj
    | some j =>
      refine ⟨?_, Iff.rfl⟩
      by_cases hji : j = i
      · subst hji
        exact Or.inr setCell_self
      · exact Or.inl (setCell_of_ne hji)

end Steps

end PlumosBubble.Cpufreq
