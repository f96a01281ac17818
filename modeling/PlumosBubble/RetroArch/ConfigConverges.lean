import PlumosBubble.RetroArch.ConfigMerge

/-! What a run of `plumos-retroarch-config-merge` leaves: the lines of the config with the old
defaults replaced that the marker selects, and the factory's lines for the keys that it lacked. A
run again leaves it alone, and so does one that is stopped and started again. -/

namespace PlumosBubble.RetroArch

open Crash
open Update (Text)

/-- A factory that is none of the old ones: each key is listed once, none of the lines that a
migration looks for is there, and the hash selects none. -/
structure Setup.Modern (x : Setup) : Prop where
  unique : (x.factory.records.filterMap keyOf).Nodup
  menu : oldMenu ∉ x.factory.records
  screenshot : oldScreenshot ∉ x.factory.records
  aspect : oldAspect ∉ x.factory.records
  hash : x.sha256 x.factory ∉ [function2MenuFactory, preV90sFullFactory, fixedAspectFactory]

section Rewriting

variable {x : Setup} {marker : Option Doc} {g : Generation} {d : Doc} {line : Text}

theorem keyOf_replace : keyOf (x.replace g line) = keyOf line := by
  cases g with
  | function2Menu => exact keyOf_replaceMenu
  | preV90s => exact keyOf_replaceDefault
  | fixedAspect => exact keyOf_replaceAspect

theorem replace_ne_nil (hg : g ≠ .preV90s) (h : line ≠ []) : x.replace g line ≠ [] := by
  cases g with
  | function2Menu =>
    show replaceMenu line ≠ []
    unfold replaceMenu
    split_ifs
    · decide +kernel
    · decide +kernel
    · exact h
  | preV90s => exact absurd rfl hg
  | fixedAspect =>
    show replaceAspect line ≠ []
    unfold replaceAspect
    split_ifs
    · decide +kernel
    · exact h

theorem migrated_of_none (h : x.generation marker = none) : x.migrated marker d = d := by
  unfold Setup.migrated
  rw [h]

theorem migrated_of_not_pending (h : x.generation marker = some g)
    (hpending : x.pending g d.records = false) : x.migrated marker d = d := by
  unfold Setup.migrated
  rw [h]
  exact if_neg (Bool.eq_false_iff.mp hpending)

theorem records_migrated (h : x.generation marker = some g)
    (hpending : x.pending g d.records = true) :
    (x.migrated marker d).records = d.records.map (x.replace g) := by
  unfold Setup.migrated
  rw [h]
  dsimp only
  rw [if_pos hpending]
  split_ifs with hg
  · rw [hg, Doc.records_printed rfl]
    rfl
  · exact Doc.records_map fun _ => replace_ne_nil hg

theorem not_pending_migrated (h : x.generation marker = some g) :
    x.pending g (x.migrated marker d).records = false := by
  cases hpending : x.pending g d.records with
  | false => rwa [migrated_of_not_pending h hpending]
  | true =>
    rw [records_migrated h hpending]
    cases g with
    | function2Menu =>
      have hno : oldMenu ∉ d.records.map replaceMenu := fun hmem => by
        obtain ⟨line, -, hline⟩ := List.mem_map.mp hmem
        exact replaceMenu_ne_oldMenu hline
      simp [Setup.pending, Setup.foundMenu, Setup.replace, hno]
    | preV90s =>
      simp only [Setup.pending, Setup.replace, List.any_map, List.any_eq_false,
        Function.comp_apply, decide_eq_true_eq, not_not]
      exact fun line _ => replaceDefault_idem
    | fixedAspect =>
      have hno : oldAspect ∉ d.records.map replaceAspect := fun hmem => by
        obtain ⟨line, -, hline⟩ := List.mem_map.mp hmem
        exact replaceAspect_ne_oldAspect hline
      simp [Setup.pending, Setup.foundAspect, Setup.replace, hno]

theorem pending_of_mem (hx : x.Modern) {lines more : List Text}
    (hmore : ∀ line ∈ more, line ∈ lines ∨ line = [] ∨ line ∈ x.factory.records)
    (h : x.pending g more = true) : x.pending g lines = true := by
  have hold : ∀ line, line ≠ [] → line ∉ x.factory.records → line ∈ more → line ∈ lines :=
    fun line hne hno hmem => by
      rcases hmore line hmem with hin | hnil | hfactory
      · exact hin
      · exact absurd hnil hne
      · exact absurd hfactory hno
  cases g with
  | function2Menu =>
    simp only [Setup.pending, Setup.foundMenu, Bool.and_eq_true, List.contains_iff_mem] at h ⊢
    exact ⟨hold _ (by decide +kernel) hx.menu h.1, hold _ (by decide +kernel) hx.screenshot h.2⟩
  | preV90s =>
    simp only [Setup.pending, List.any_eq_true, decide_eq_true_eq] at h ⊢
    obtain ⟨line, hline, hchange⟩ := h
    refine ⟨line, ?_, hchange⟩
    rcases hmore line hline with hin | rfl | hfactory
    · exact hin
    · exact absurd rfl hchange
    · refine absurd ?_ hchange
      cases hkey : keyOf line with
      | none =>
        unfold Setup.replaceDefault RetroArch.replaceDefault
        rw [hkey]
      | some key =>
        exact replaceDefault_factory hkey (lineOf_of_mem hx.unique hfactory hkey)
  | fixedAspect =>
    simp only [Setup.pending, Setup.foundAspect, List.contains_iff_mem] at h ⊢
    exact hold _ (by decide +kernel) hx.aspect h

theorem not_pending_factory (hx : x.Modern) : x.pending g x.factory.records = false := by
  refine Bool.eq_false_iff.mpr fun h => ?_
  have hnone : x.pending g [] = true :=
    pending_of_mem hx (fun line hline => Or.inr (Or.inr hline)) h
  cases g <;> simp [Setup.pending, Setup.foundMenu, Setup.foundAspect] at hnone

theorem migrated_factory (hx : x.Modern) : x.migrated marker x.factory = x.factory := by
  cases h : x.generation marker with
  | none => exact migrated_of_none h
  | some g => exact migrated_of_not_pending h (not_pending_factory hx)

theorem migrated_idem : x.migrated marker (x.migrated marker d) = x.migrated marker d := by
  cases h : x.generation marker with
  | none => rw [migrated_of_none h]
  | some g => exact migrated_of_not_pending h (not_pending_migrated h)

end Rewriting

section Merging

variable {x : Setup} {marker : Option Doc} {d : Doc} {line : Text} {key : Text}

theorem records_merged : (x.merged d).records = d.records ++
    (if x.added d ≠ [] ∧ d.rest = [] then [[]] else []) ++ x.added d := by
  unfold Setup.merged
  by_cases hnone : x.added d = []
  · rw [if_pos hnone, if_neg fun h => h.1 hnone, hnone, List.append_nil, List.append_nil]
  · rw [if_neg hnone, Doc.records_printed rfl]
    unfold Doc.newline Doc.records
    by_cases hrest : d.rest = []
    · simp [hrest, hnone]
    · simp [hrest]

theorem mem_merged (h : line ∈ (x.merged d).records) :
    line ∈ d.records ∨ line = [] ∨ line ∈ x.factory.records := by
  rw [records_merged, List.mem_append, List.mem_append] at h
  rcases h with (hin | hblank) | hadded
  · exact Or.inl hin
  · split_ifs at hblank
    · exact Or.inr (Or.inl (List.mem_singleton.mp hblank))
    · cases hblank
  · exact Or.inr (Or.inr (mem_missing.mp hadded).1)

theorem added_merged : x.added (x.merged d) = [] := by
  refine missing_eq_nil.mpr fun line hline key hkey => ?_
  cases hpresent : present d.records key with
  | true =>
    refine present_of_sublist (fun other hother => ?_) hpresent
    rw [records_merged, List.append_assoc]
    exact List.mem_append_left _ hother
  | false =>
    refine present_eq_true.mpr ⟨line, ?_, hkey⟩
    rw [records_merged]
    exact List.mem_append_right _ (mem_missing.mpr ⟨hline, key, hkey, hpresent⟩)

theorem merged_idem : x.merged (x.merged d) = x.merged d := if_pos added_merged

theorem merged_factory : x.merged x.factory = x.factory := by
  refine if_pos (missing_eq_nil.mpr fun line hline key hkey => ?_)
  exact present_eq_true.mpr ⟨line, hline, hkey⟩

theorem migrated_merged (hx : x.Modern) :
    x.migrated marker (x.merged (x.migrated marker d)) = x.merged (x.migrated marker d) := by
  cases h : x.generation marker with
  | none => exact migrated_of_none h
  | some g =>
    refine migrated_of_not_pending h (Bool.eq_false_iff.mpr fun hpending => ?_)
    have hfirst := pending_of_mem hx (fun line hline => mem_merged hline) hpending
    rw [not_pending_migrated h] at hfirst
    cases hfirst

end Merging

section Results

variable {x : Setup} {marker : Option Doc} {c d : Doc}

/-- A run makes the first Bubble factory of no other config. -/
def Setup.Clear (x : Setup) (marker : Option Doc) (c : Doc) : Prop :=
  ∀ d, d = x.migrated marker c ∨ d = x.result marker c → x.sha256 d = legacyBubble →
    x.sha256 c = legacyBubble

/-- The configs that a run passes through, with its own last. -/
def Setup.Passes (x : Setup) (marker : Option Doc) (c d : Doc) : Prop :=
  d = c ∨ d = x.result marker c ∨ x.sha256 c ≠ legacyBubble ∧ d = x.migrated marker c

theorem mark_newMarker : Setup.mark (some x.newMarker) = some (x.sha256 x.factory) := rfl

theorem generation_newMarker (hx : x.Modern) : x.generation (some x.newMarker) = none := by
  have hhash := hx.hash
  simp only [List.mem_cons, List.not_mem_nil, or_false, not_or] at hhash
  unfold Setup.generation
  rw [mark_newMarker, if_neg fun h => hhash.1 (Option.some.inj h),
    if_neg fun h => hhash.2.1 (Option.some.inj h.2), if_neg fun h => hhash.2.2 (Option.some.inj h)]

theorem result_legacy (h : x.sha256 d = legacyBubble) : x.result marker d = x.factory := if_pos h

theorem result_newMarker (hx : x.Modern) (h : x.sha256 d = legacyBubble → d = x.factory) :
    x.result (some x.newMarker) d = d := by
  unfold Setup.result
  by_cases hlegacy : x.sha256 d = legacyBubble
  · rw [if_pos hlegacy, h hlegacy]
  · rw [if_neg hlegacy, if_pos ⟨generation_newMarker hx, mark_newMarker⟩]

theorem result_passes (hx : x.Modern) (hclear : x.Clear marker c) (h : x.Passes marker c d) :
    x.result marker d = x.result marker c := by
  by_cases hlegacy : x.sha256 c = legacyBubble
  · have hresult : x.result marker c = x.factory := result_legacy hlegacy
    rcases h with rfl | rfl | ⟨hnot, -⟩
    · rfl
    · rw [hresult]
      unfold Setup.result
      split_ifs
      · rfl
      · rfl
      · rw [migrated_factory hx, merged_factory]
    · exact absurd hlegacy hnot
  · have hother : ∀ d, d = x.migrated marker c ∨ d = x.result marker c →
        x.sha256 d ≠ legacyBubble := fun d hd hsame => hlegacy (hclear d hd hsame)
    by_cases hdone : x.generation marker = none ∧
        Setup.mark marker = some (x.sha256 x.factory)
    · have hsame : ∀ d, x.sha256 d ≠ legacyBubble → x.result marker d = d := fun d hd => by
        unfold Setup.result
        rw [if_neg hd, if_pos hdone]
      rcases h with rfl | rfl | ⟨-, rfl⟩
      · rfl
      · rw [hsame c hlegacy]
        exact hsame c hlegacy
      · rw [migrated_of_none hdone.1]
    · have hresult : ∀ d, x.sha256 d ≠ legacyBubble →
          x.result marker d = x.merged (x.migrated marker d) := fun d hd => by
        unfold Setup.result
        rw [if_neg hd, if_neg hdone]
      rcases h with rfl | rfl | ⟨-, rfl⟩
      · rfl
      · rw [hresult _ (hother _ (Or.inr rfl)), hresult c hlegacy, migrated_merged hx, merged_idem]
      · rw [hresult _ (hother _ (Or.inl rfl)), hresult c hlegacy, migrated_idem]

end Results

section Runs

variable {x : Setup} {f s : Files} {c : Doc} {marker : Option Doc}

/-- The config and the marker. -/
def Has (c : Doc) (marker : Option Doc) (f : Files) : Prop :=
  f.file .config = c ∧ f.marker = marker

theorem wp_writeNext {slot : Slot} {d : Doc} {Q : Unit → Files → Prop} {E : Unit → Files → Prop}
    {C : Files → Prop} : wp (writeNext slot d) Q E C s ↔
      C { s with next := Function.update s.next slot d } ∧
        Q () { s with next := Function.update s.next slot d } := wp_step_ok (E := E) rfl

theorem wp_moveNext {slot : Slot} {Q : Unit → Files → Prop} {E : Unit → Files → Prop}
    {C : Files → Prop} : wp (moveNext slot) Q E C s ↔
      C { s with
        file := Function.update s.file slot (s.next slot)
        next := Function.update s.next slot Doc.empty } ∧
      Q () { s with
        file := Function.update s.file slot (s.next slot)
        next := Function.update s.next slot Doc.empty } := wp_step_ok (E := E) rfl

theorem wp_moveConfig {d : Doc} {E : Unit → Files → Prop} {C : Files → Prop}
    (hnext : s.next .config = d) (hmarker : s.marker = marker) (hC : ∀ t, Has d marker t → C t) :
    wp (moveNext .config) (fun _ => Has d marker) E C s := by
  have hfile : Function.update s.file .config (s.next .config) .config = d :=
    (Function.update_self Slot.config _ s.file).trans hnext
  rw [wp_moveNext]
  exact ⟨hC _ ⟨hfile, hmarker⟩, hfile, hmarker⟩

theorem wp_writeMarkerNext {d : Doc} {Q : Unit → Files → Prop} {E : Unit → Files → Prop}
    {C : Files → Prop} : wp (writeMarkerNext d) Q E C s ↔
      C { s with markerNext := d } ∧ Q () { s with markerNext := d } := wp_step_ok (E := E) rfl

theorem wp_moveMarkerNext {Q : Unit → Files → Prop} {E : Unit → Files → Prop} {C : Files → Prop} :
    wp moveMarkerNext Q E C s ↔
      C { s with marker := some s.markerNext, markerNext := Doc.empty } ∧
        Q () { s with marker := some s.markerNext, markerNext := Doc.empty } :=
  wp_step_ok (E := E) rfl

theorem wp_backUp {slot : Slot} (hslot : slot ≠ .config) (h : Has c marker s)
    {E : Unit → Files → Prop} :
    wp (backUp slot) (fun _ t => Has c marker t ∧ t.next .config = s.next .config) E
      (Has c marker) s := by
  unfold backUp
  rw [wp_bind, wp_read]
  split_ifs
  · exact (wp_pure ()).mpr ⟨h, rfl⟩
  · unfold atomicCopy
    rw [wp_bind, wp_writeNext, wp_moveNext]
    have hfile : ∀ d, Function.update s.file slot d .config = c := fun d => by
      rw [Function.update_of_ne (Ne.symm hslot)]
      exact h.1
    refine ⟨h, ⟨hfile _, h.2⟩, ⟨hfile _, h.2⟩, ?_⟩
    show Function.update (Function.update s.next slot _) slot Doc.empty .config = s.next .config
    rw [Function.update_of_ne (Ne.symm hslot), Function.update_of_ne (Ne.symm hslot)]

theorem wp_mergeMissingKeys (h : Has c marker s) {E : Unit → Files → Prop} :
    wp x.mergeMissingKeys (fun _ => Has (x.merged c) marker) E
      (fun t => Has c marker t ∨ Has (x.merged c) marker t) s := by
  obtain ⟨rfl, rfl⟩ := h
  unfold Setup.mergeMissingKeys
  simp only [wp_bind, wp_read, wp_writeNext]
  refine ⟨Or.inl ⟨rfl, rfl⟩, Or.inl ⟨rfl, rfl⟩, Or.inl ⟨rfl, rfl⟩, ?_⟩
  by_cases hnone : x.added (s.file .config) = []
  · have hmerged : x.merged (s.file .config) = s.file .config := if_pos hnone
    have hlength : ¬0 < (x.added (s.file .config)).length := by simp [hnone]
    rw [hmerged]
    show wp (if 0 < (x.added (s.file .config)).length then _ else _) _ _ _ _
    rw [if_neg hlength]
    unfold dropNext
    rw [wp_writeNext]
    exact ⟨Or.inl ⟨rfl, rfl⟩, rfl, rfl⟩
  · have hmerged : x.merged (s.file .config) =
        (s.file .config).newline.printed (x.added (s.file .config)) := if_neg hnone
    show wp (if 0 < (x.added (s.file .config)).length then _ else _) _ _ _ _
    rw [if_pos (List.length_pos_iff.mpr hnone), hmerged]
    exact wp_moveConfig (by simp) rfl fun _ => Or.inr

theorem wp_migrateLines {found : List Text → Bool} {replace : Text → Text} {slot : Slot}
    (hslot : slot ≠ .config) (h : Has c marker s) {E : Unit → Files → Prop} {d : Doc}
    (hd : d = if found c.records = true then c.map replace else c) :
    wp (Setup.migrateLines found replace slot) (fun _ => Has d marker) E
      (fun t => Has c marker t ∨ Has d marker t) s := by
  obtain ⟨rfl, rfl⟩ := h
  unfold Setup.migrateLines
  simp only [wp_bind, wp_read]
  by_cases hfound : found (s.file .config).records = true
  · rw [if_pos hfound] at hd
    show wp (if found (s.file .config).records = true then _ else _) _ _ _ _
    rw [if_pos hfound, wp_bind]
    refine wp_mono (wp_backUp hslot ⟨rfl, rfl⟩) (fun _ t ht => ?_) (fun _ _ he => he)
      (fun _ ht => Or.inl ht)
    rw [wp_bind, wp_writeNext, hd]
    refine ⟨Or.inl ht.1, wp_moveConfig ?_ ht.1.2 fun _ => Or.inr⟩
    simp
  · rw [if_neg hfound] at hd
    show wp (if found (s.file .config).records = true then _ else _) _ _ _ _
    rw [if_neg hfound, wp_pure, hd]
    exact ⟨rfl, rfl⟩

theorem wp_migratePreV90sDefaults (h : Has c marker s) {E : Unit → Files → Prop} {d : Doc}
    (hd : d = if x.pending .preV90s c.records = true then
      Doc.empty.printed (c.records.map x.replaceDefault) else c) :
    wp x.migratePreV90sDefaults (fun _ => Has d marker) E
      (fun t => Has c marker t ∨ Has d marker t) s := by
  obtain ⟨rfl, rfl⟩ := h
  unfold Setup.migratePreV90sDefaults
  simp only [wp_bind, wp_read, wp_writeNext]
  refine ⟨Or.inl ⟨rfl, rfl⟩, ?_⟩
  have hcount : 0 < (s.file .config).records.countP (fun line => x.replaceDefault line ≠ line) ↔
      x.pending .preV90s (s.file .config).records = true := by
    rw [List.countP_pos_iff]
    simp [Setup.pending]
  by_cases hpending : x.pending .preV90s (s.file .config).records = true
  · rw [if_pos hpending] at hd
    show wp (if 0 < (s.file .config).records.countP _ then _ else _) _ _ _ _
    rw [if_pos (hcount.mpr hpending), wp_bind]
    refine wp_mono (wp_backUp (by decide) ⟨rfl, rfl⟩) (fun _ t ht => ?_) (fun _ _ he => he)
      (fun _ ht => Or.inl ht)
    rw [hd]
    refine wp_moveConfig (ht.2.trans ?_) ht.1.2 fun _ => Or.inr
    simp
  · rw [if_neg hpending] at hd
    show wp (if 0 < (s.file .config).records.countP _ then _ else _) _ _ _ _
    rw [if_neg fun h => hpending (hcount.mp h)]
    unfold dropNext
    rw [wp_writeNext, hd]
    exact ⟨Or.inl ⟨rfl, rfl⟩, rfl, rfl⟩

theorem wp_atomicCopy (h : Has c marker s) {d : Doc} {E : Unit → Files → Prop} :
    wp (atomicCopy d .config) (fun _ => Has d marker) E
      (fun t => Has c marker t ∨ Has d marker t) s := by
  unfold atomicCopy
  rw [wp_bind, wp_writeNext]
  exact ⟨Or.inl h, wp_moveConfig (by simp) h.2 fun _ => Or.inr⟩

/-- The states of a run before its marker. -/
def Before (x : Setup) (c : Doc) (marker : Option Doc) (f : Files) : Prop :=
  x.Passes marker c (f.file .config) ∧ f.marker = marker

theorem before_of_has {d : Doc} (h : Has d marker s) (hd : x.Passes marker c d) :
    Before x c marker s := ⟨by rwa [h.1], h.2⟩

theorem wp_migration {m : Prog Files Unit Unit} {E : Unit → Files → Prop}
    (hlegacy : x.sha256 c ≠ legacyBubble)
    (hresult : x.result marker c = x.merged (x.migrated marker c))
    (hm : wp m (fun _ => Has (x.migrated marker c) marker) E
      (fun t => Has c marker t ∨ Has (x.migrated marker c) marker t) s) :
    wp (m >>= fun _ => x.mergeMissingKeys) (fun _ => Has (x.result marker c) marker) E
      (Before x c marker) s := by
  have hmigrated : ∀ t, Has (x.migrated marker c) marker t → Before x c marker t := fun t ht =>
    before_of_has ht (Or.inr (Or.inr ⟨hlegacy, rfl⟩))
  rw [wp_bind, hresult]
  refine wp_mono hm (fun _ t ht => ?_) (fun _ _ he => he) fun t ht => ?_
  · refine wp_mono (wp_mergeMissingKeys ht) (fun _ _ hu => hu) (fun _ _ he => he) fun u hu => ?_
    rcases hu with hu | hu
    · exact hmigrated u hu
    · exact before_of_has hu (Or.inr (Or.inl hresult.symm))
  · rcases ht with ht | ht
    · exact before_of_has ht (Or.inl rfl)
    · exact hmigrated t ht

theorem wp_updateConfig (hsize : (f.file .config).hasSize = true) {E : Unit → Files → Prop} :
    wp (x.updateConfig f) (fun _ => Has (x.result f.marker (f.file .config)) f.marker) E
      (Before x (f.file .config) f.marker) f := by
  have hstart : Has (f.file .config) f.marker f := ⟨rfl, rfl⟩
  unfold Setup.updateConfig
  by_cases hlegacy : x.sha256 (f.file .config) = legacyBubble
  · rw [if_pos (Or.inr hlegacy), result_legacy hlegacy]
    refine wp_mono (wp_atomicCopy hstart) (fun _ _ ht => ht) (fun _ _ he => he) fun t ht => ?_
    rcases ht with ht | ht
    · exact before_of_has ht (Or.inl rfl)
    · exact before_of_has ht (Or.inr (Or.inl (result_legacy hlegacy).symm))
  · rw [if_neg (by simp [hsize, hlegacy])]
    have hmigrates : ∀ g, x.generation f.marker = some g →
        x.result f.marker (f.file .config) =
          x.merged (x.migrated f.marker (f.file .config)) := fun g hg => by
      unfold Setup.result
      rw [if_neg hlegacy, if_neg (by simp [hg])]
    split
    · rename_i hg
      refine wp_migration hlegacy (hmigrates _ hg) (wp_migrateLines (by decide) hstart ?_)
      unfold Setup.migrated
      rw [hg]
      rfl
    · rename_i hg
      refine wp_migration hlegacy (hmigrates _ hg) (wp_migratePreV90sDefaults hstart ?_)
      unfold Setup.migrated
      rw [hg]
      rfl
    · rename_i hg
      refine wp_migration hlegacy (hmigrates _ hg) (wp_migrateLines (by decide) hstart ?_)
      unfold Setup.migrated
      rw [hg]
      rfl
    · rename_i hg
      by_cases hdone : Setup.mark f.marker = some (x.sha256 x.factory)
      · have hresult : x.result f.marker (f.file .config) = f.file .config := by
          unfold Setup.result
          rw [if_neg hlegacy, if_pos ⟨hg, hdone⟩]
        rw [if_pos hdone, wp_pure, hresult]
        exact hstart
      · have hresult : x.result f.marker (f.file .config) = x.merged (f.file .config) := by
          unfold Setup.result
          rw [if_neg hlegacy, if_neg fun h => hdone h.2, migrated_of_none hg]
        rw [if_neg hdone, hresult]
        refine wp_mono (wp_mergeMissingKeys hstart) (fun _ _ ht => ht) (fun _ _ he => he)
          fun t ht => ?_
        rcases ht with ht | ht
        · exact before_of_has ht (Or.inl rfl)
        · exact before_of_has ht (Or.inr (Or.inl hresult.symm))

theorem wp_run (hfactory : x.factory.hasSize = true)
    (hsize : (f.file .config).hasSize = true) :
    wp x.run (fun _ => Has (x.result f.marker (f.file .config)) (some x.newMarker))
      (fun _ _ => False)
      (fun t => Before x (f.file .config) f.marker t ∨
        Has (x.result f.marker (f.file .config)) (some x.newMarker) t) f := by
  unfold Setup.run
  rw [wp_bind, wp_read]
  show wp (if x.factory.hasSize = false then _ else _) _ _ _ _
  rw [if_neg (by simp [hfactory]), wp_bind]
  refine wp_mono (wp_updateConfig hsize) (fun _ t ht => ?_) (fun _ _ he => he)
    fun t ht => Or.inl ht
  rw [wp_bind, wp_writeMarkerNext, wp_moveMarkerNext]
  exact ⟨Or.inl (before_of_has ht (Or.inr (Or.inl rfl))), Or.inr ⟨ht.1, rfl⟩, ht.1, rfl⟩

end Runs

end PlumosBubble.RetroArch
