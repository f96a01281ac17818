import PlumosBubble.RetroArch.ConfigConverges

/-! The promise of `plumos-retroarch-config-merge` to the user's config: lines are kept but for old
defaults, keys are completed, a second run changes nothing, and an interrupted run is made up
for by the next one. -/

namespace PlumosBubble.RetroArch

open Crash
open Update (Text)

/-- What a run may make of a line, under the marker that selects a migration. -/
inductive Replaced (x : Setup) (marker : Option Doc) : Text → Text → Prop
  | same (line : Text) : Replaced x marker line line
  | legacyDefault {key line new : Text} : x.generation marker = some .preV90s →
      keyOf line = some key → lineOf x.legacyDefaults.records key = some line →
      lineOf x.factory.records key = some new → Replaced x marker line new
  | menu : x.generation marker = some .function2Menu → Replaced x marker oldMenu newMenu
  | screenshot : x.generation marker = some .function2Menu →
      Replaced x marker oldScreenshot newScreenshot
  | aspect : x.generation marker = some .fixedAspect → Replaced x marker oldAspect newAspect

/-- The lines of a config are kept in order, but for old defaults; the factory's lines of the keys
that it lacks come behind them, at most behind a blank line, each once. -/
structure Completed (x : Setup) (marker : Option Doc) (before after : Doc) : Prop where
  lines : ∃ kept blank, after.records = kept ++ blank ++ x.added before ∧
    List.Forall₂ (Replaced x marker) before.records kept ∧
    (blank = [] ∨ blank = [[]] ∧ x.added before ≠ [])
  keeps : ∀ key, present before.records key = true →
    List.Forall₂ (Replaced x marker) (before.records.filter (hasKey key))
      (after.records.filter (hasKey key))
  once : ∀ line ∈ x.factory.records, ∀ key, keyOf line = some key →
    present before.records key = false → after.records.filter (hasKey key) = [line]

section Lines

variable {x : Setup} {marker : Option Doc} {c d : Doc} {g : Generation} {line key : Text}

theorem replaced_replace (h : x.generation marker = some g) :
    Replaced x marker line (x.replace g line) := by
  cases g with
  | function2Menu =>
    show Replaced x marker line (replaceMenu line)
    unfold replaceMenu
    split_ifs with hmenu hscreenshot
    · rw [hmenu]
      exact .menu h
    · rw [hscreenshot]
      exact .screenshot h
    · exact .same line
  | preV90s =>
    show Replaced x marker line (x.replaceDefault line)
    unfold Setup.replaceDefault
    rcases replaceDefault_or x.legacyDefaults.records x.factory.records line with
      hsame | ⟨key, new, hkey, hold, hnew, heq⟩
    · rw [hsame]
      exact .same line
    · rw [heq]
      exact .legacyDefault h hkey hold hnew
  | fixedAspect =>
    show Replaced x marker line (replaceAspect line)
    unfold replaceAspect
    split_ifs with haspect
    · rw [haspect]
      exact .aspect h
    · exact .same line

theorem forall₂_same (lines : List Text) : List.Forall₂ (Replaced x marker) lines lines :=
  List.forall₂_same.mpr fun line _ => .same line

theorem migrated_lines (x : Setup) (marker : Option Doc) (c : Doc) :
    List.Forall₂ (Replaced x marker) c.records (x.migrated marker c).records ∧
    ∀ key, List.Forall₂ (Replaced x marker) (c.records.filter (hasKey key))
      ((x.migrated marker c).records.filter (hasKey key)) := by
  cases h : x.generation marker with
  | none =>
    rw [migrated_of_none h]
    exact ⟨forall₂_same _, fun key => forall₂_same _⟩
  | some g =>
    cases hpending : x.pending g c.records with
    | false =>
      rw [migrated_of_not_pending h hpending]
      exact ⟨forall₂_same _, fun key => forall₂_same _⟩
    | true =>
      have hmap : ∀ lines : List Text,
          List.Forall₂ (Replaced x marker) lines (lines.map (x.replace g)) := fun lines =>
        List.forall₂_map_right_iff.mpr (List.forall₂_same.mpr fun _ _ => replaced_replace h)
      rw [records_migrated h hpending]
      refine ⟨hmap _, fun key => ?_⟩
      have hkeys : hasKey key ∘ x.replace g = hasKey key := by
        funext line
        simp [hasKey, keyOf_replace]
      rw [List.filter_map, hkeys]
      exact hmap _

theorem present_migrated : present (x.migrated marker c).records key = present c.records key := by
  cases h : x.generation marker with
  | none => rw [migrated_of_none h]
  | some g =>
    cases hpending : x.pending g c.records with
    | false => rw [migrated_of_not_pending h hpending]
    | true =>
      rw [records_migrated h hpending]
      unfold present
      rw [List.any_map]
      refine congrArg (List.any c.records) (funext fun line => ?_)
      simp [hasKey, keyOf_replace]

theorem added_migrated : x.added (x.migrated marker c) = x.added c := by
  unfold Setup.added missing
  refine List.filter_congr fun line _ => ?_
  cases keyOf line with
  | none => rfl
  | some key =>
    dsimp only
    rw [present_migrated]

theorem filter_blank {p : Prop} [Decidable p] :
    (if p then [[]] else [] : List Text).filter (hasKey key) = [] := by
  split_ifs
  · rfl
  · rfl

theorem completed_merged (hx : x.Modern) :
    Completed x marker c (x.merged (x.migrated marker c)) where
  lines := by
    refine ⟨(x.migrated marker c).records, _, by rw [records_merged, added_migrated],
      (migrated_lines x marker c).1, ?_⟩
    split_ifs with hblank
    · exact Or.inr ⟨rfl, hblank.1⟩
    · exact Or.inl rfl
  keeps := fun key hkey => by
    rw [records_merged, List.filter_append, List.filter_append, filter_blank, List.append_nil]
    unfold Setup.added
    rw [filter_missing_present (present_migrated.trans hkey), List.append_nil]
    exact (migrated_lines x marker c).2 key
  once := fun line hline key hkey habsent => by
    have hnone : (x.migrated marker c).records.filter (hasKey key) = [] := by
      rw [List.filter_eq_nil_iff]
      intro other hother hhas
      have hpresent : present (x.migrated marker c).records key = true :=
        present_eq_true.mpr ⟨other, hother, by simpa [hasKey] using hhas⟩
      rw [present_migrated, habsent] at hpresent
      cases hpresent
    rw [records_merged, List.filter_append, List.filter_append, hnone, filter_blank]
    exact filter_missing hx.unique hline hkey (present_migrated.trans habsent)

end Lines

section Runs

variable {x : Setup} {f t u : Files} {c d : Doc} {marker : Option Doc}

theorem hasSize_iff : d.hasSize = true ↔ d.records ≠ [] := by
  rw [ne_eq, Doc.records_eq_nil]
  simp [Doc.hasSize]

theorem hasSize_migrated (h : c.hasSize = true) : (x.migrated marker c).hasSize = true := by
  rw [hasSize_iff] at h ⊢
  intro hnil
  have hlines := (migrated_lines x marker c).1
  rw [hnil] at hlines
  exact h (List.forall₂_nil_right_iff.mp hlines)

theorem hasSize_merged (h : c.hasSize = true) : (x.merged c).hasSize = true := by
  rw [hasSize_iff] at h ⊢
  rw [records_merged, List.append_assoc]
  exact List.append_ne_nil_of_left_ne_nil h _

theorem hasSize_result (hfactory : x.factory.hasSize = true) (h : c.hasSize = true) :
    (x.result marker c).hasSize = true := by
  unfold Setup.result
  split_ifs
  · exact hfactory
  · exact h
  · exact hasSize_merged (hasSize_migrated h)

theorem hasSize_passes (hfactory : x.factory.hasSize = true) (h : c.hasSize = true)
    (hd : x.Passes marker c d) : d.hasSize = true := by
  rcases hd with rfl | rfl | ⟨-, rfl⟩
  · exact h
  · exact hasSize_result hfactory h
  · exact hasSize_migrated h

theorem run_empty (hfactory : x.factory.hasSize = false) (h : Ends x.run f u) : u = f := by
  have hrun : wp x.run (fun _ t => t = f) (fun _ t => t = f) (fun t => t = f) f := by
    unfold Setup.run
    rw [wp_bind, wp_read]
    show wp (if x.factory.hasSize = false then _ else _) _ _ _ _
    rw [if_pos hfactory]
    exact (wp_raise ()).mpr rfl
  exact ends_of_wp (P := fun t => t = f) hrun rfl (fun _ _ ht => ht) (fun _ _ ht => ht)
    (fun _ ht => ht) h

theorem after_empty (hfactory : x.factory.hasSize = false) : x.after f = f :=
  run_empty hfactory (ends_stateAfter ..)

theorem after_run (hfactory : x.factory.hasSize = true) (hsize : (f.file .config).hasSize = true) :
    Has (x.result f.marker (f.file .config)) (some x.newMarker) (x.after f) := by
  obtain ⟨a, t, ht, hhas⟩ := returns_of_wp (wp_mono (wp_run hfactory hsize) (fun _ _ h => h)
    (fun _ _ h => h) (fun _ _ => trivial : ∀ _, _ → True))
  have hafter : x.after f = t := ht.2
  rwa [hafter]

theorem run_again (hx : x.Modern) (hfactory : x.factory.hasSize = true)
    (hsize : (f.file .config).hasSize = true) (hmarker : f.marker = some x.newMarker)
    (hlegacy : x.sha256 (f.file .config) = legacyBubble → f.file .config = x.factory) :
    (x.after f).file = f.file ∧ (x.after f).marker = f.marker := by
  have hupdate : wp (x.updateConfig f) (fun _ t => t.file = f.file) (fun _ _ => False)
      (fun _ => True) f := by
    unfold Setup.updateConfig
    by_cases hsame : x.sha256 (f.file .config) = legacyBubble
    · rw [if_pos (Or.inr hsame)]
      unfold atomicCopy
      rw [wp_bind, wp_writeNext, wp_moveNext]
      refine ⟨trivial, trivial, ?_⟩
      show Function.update f.file .config (Function.update f.next .config x.factory .config) =
        f.file
      rw [Function.update_self, ← hlegacy hsame, Function.update_eq_self]
    · rw [if_neg (by simp [hsize, hsame]), hmarker, generation_newMarker hx]
      show wp (if Setup.mark (some x.newMarker) = some (x.sha256 x.factory) then _ else _) _ _ _ _
      rw [if_pos mark_newMarker, wp_pure]
  have hrun : wp x.run (fun _ t => t.file = f.file ∧ t.marker = f.marker) (fun _ _ => False)
      (fun _ => True) f := by
    unfold Setup.run
    rw [wp_bind, wp_read]
    show wp (if x.factory.hasSize = false then _ else _) _ _ _ _
    rw [if_neg (by simp [hfactory]), wp_bind]
    refine wp_mono hupdate (fun _ t ht => ?_) (fun _ _ he => he) fun _ h => h
    rw [wp_bind, wp_writeMarkerNext, wp_moveMarkerNext, hmarker]
    exact ⟨trivial, trivial, ht, rfl⟩
  obtain ⟨a, t, ht, hsame⟩ := returns_of_wp hrun
  have hafter : x.after f = t := ht.2
  rwa [hafter]

end Runs

section Promise

variable {x : Setup} {f : Files}

theorem generation_of_mark {marker : Option Doc} (hx : x.Modern)
    (h : Setup.mark marker = some (x.sha256 x.factory)) : x.generation marker = none := by
  rw [← generation_newMarker hx]
  unfold Setup.generation
  rw [h, mark_newMarker]

theorem result_legacy_factory {marker : Option Doc} {c : Doc} (hclear : x.Clear marker c)
    (h : x.sha256 (x.result marker c) = legacyBubble) : x.result marker c = x.factory :=
  result_legacy (hclear _ (Or.inr rfl) h)

theorem after_stopped (hx : x.Modern) (hfactory : x.factory.hasSize = true)
    (hsize : (f.file .config).hasSize = true) (hclear : x.Clear f.marker (f.file .config))
    {u : Files} (h : Ends x.run f u) :
    (x.after u).file .config = (x.after f).file .config := by
  rw [(after_run hfactory hsize).1]
  have hend : Before x (f.file .config) f.marker u ∨
      Has (x.result f.marker (f.file .config)) (some x.newMarker) u :=
    ends_of_wp (P := fun t => Before x (f.file .config) f.marker t ∨
      Has (x.result f.marker (f.file .config)) (some x.newMarker) t) (wp_run hfactory hsize)
      (Or.inl ⟨Or.inl rfl, rfl⟩) (fun _ _ ht => Or.inr ht) (fun _ _ he => False.elim he)
      (fun _ ht => ht) h
  rcases hend with ⟨hpasses, hmarker⟩ | ⟨hconfig, hmarker⟩
  · rw [(after_run hfactory (hasSize_passes hfactory hsize hpasses)).1, hmarker]
    exact result_passes hx hclear hpasses
  · have hsize' : (u.file .config).hasSize = true := by
      rw [hconfig]
      exact hasSize_result hfactory hsize
    rw [(after_run hfactory hsize').1, hmarker, hconfig]
    exact result_newMarker hx (result_legacy_factory hclear)

/-- One run keeps the lines of a config that is not empty, but for old defaults, and completes its
keys, unless the config is the first Bubble factory's, which is replaced, or the factory's own
marker says that this has been done. A second run changes nothing, and a run that is stopped at
any step is made up for by the next one. -/
theorem config_kept (hx : x.Modern) (hsize : (f.file .config).hasSize = true)
    (hclear : x.Clear f.marker (f.file .config)) :
    (x.factory.hasSize = false → x.after f = f) ∧
    (x.factory.hasSize = true →
      (x.sha256 (f.file .config) = legacyBubble → (x.after f).file .config = x.factory) ∧
      (x.sha256 (f.file .config) ≠ legacyBubble →
        (Setup.mark f.marker = some (x.sha256 x.factory) →
          (x.after f).file .config = f.file .config) ∧
        (Setup.mark f.marker ≠ some (x.sha256 x.factory) →
          Completed x f.marker (f.file .config) ((x.after f).file .config)))) ∧
    ((x.after (x.after f)).file = (x.after f).file ∧
      (x.after (x.after f)).marker = (x.after f).marker) ∧
    ∀ u, Ends x.run f u → (x.after u).file .config = (x.after f).file .config := by
  cases hfactory : x.factory.hasSize with
  | false =>
    refine ⟨fun _ => after_empty hfactory, fun h => absurd h Bool.false_ne_true, ?_,
      fun u hu => ?_⟩
    · rw [after_empty hfactory, after_empty hfactory]
      exact ⟨rfl, rfl⟩
    · rw [run_empty hfactory hu]
  | true =>
    have hafter := after_run hfactory hsize
    refine ⟨fun h => absurd h.symm Bool.false_ne_true, fun _ => ⟨fun hlegacy => ?_,
      fun hlegacy => ⟨fun hdone => ?_, fun hdone => ?_⟩⟩, ?_,
      fun u hu => after_stopped hx hfactory hsize hclear hu⟩
    · rw [hafter.1, result_legacy hlegacy]
    · rw [hafter.1]
      unfold Setup.result
      rw [if_neg hlegacy, if_pos ⟨generation_of_mark hx hdone, hdone⟩]
    · rw [hafter.1]
      unfold Setup.result
      rw [if_neg hlegacy, if_neg fun h => hdone h.2]
      exact completed_merged hx
    · refine run_again hx hfactory ?_ hafter.2 fun hlegacy => ?_
      · rw [hafter.1]
        exact hasSize_result hfactory hsize
      · rw [hafter.1] at hlegacy ⊢
        exact result_legacy_factory hclear hlegacy

/-- A file of these lines. -/
def textOf (lines : List String) : Doc := ⟨lines.map String.toList, []⟩

/-- The files before a run, with this config and this marker. -/
def filesOf (config : Doc) (marker : Option Doc) : Files where
  file slot := if slot = .config then config else Doc.empty
  next _ := Doc.empty
  marker := marker
  markerNext := Doc.empty

/-- A factory with two keys, of which the first had another default; its hash is `new`. -/
def sample : Setup where
  factory := textOf ["a = \"1\"", "b = \"2\""]
  legacyDefaults := textOf ["a = \"0\""]
  sha256 d := if d = textOf ["a = \"1\"", "b = \"2\""] then "new".toList else []

/-- A config with the old default and a key of its own. -/
def sampleFiles : Files :=
  filesOf (textOf ["a = \"0\"", "c = \"3\""]) (some ⟨[preV90sFullFactory], []⟩)

theorem config_kept_sample :
    (sample.after sampleFiles).file .config =
      textOf ["a = \"1\"", "c = \"3\"", "", "b = \"2\""] ∧
    (sample.after (sample.after sampleFiles)).file = (sample.after sampleFiles).file := by
  have hx : sample.Modern := ⟨by decide +kernel, by decide +kernel, by decide +kernel,
    by decide +kernel, by decide +kernel⟩
  have hclear : sample.Clear sampleFiles.marker (sampleFiles.file .config) := by
    rintro d (rfl | rfl) hlegacy
    · exact absurd hlegacy (by decide +kernel)
    · exact absurd hlegacy (by decide +kernel)
  exact ⟨by decide +kernel, (config_kept hx (by decide +kernel) hclear).2.2.1.1⟩

/-- Where the promise is not kept as a whole. With the factory's own marker a missing key stays
missing; the first Bubble factory's config is replaced, with a key that the factory lacks; a blank
line comes in; a factory with old lines makes a run that was stopped end otherwise; and a second
run changes what has the hash of an old factory, or is marked with it. -/
theorem config_not_kept :
    (∃ x f, (f.file .config).hasSize = true ∧ present x.factory.records "b".toList = true ∧
      present ((Setup.after x f).file .config).records "b".toList = false) ∧
    (∃ x f, (f.file .config).hasSize = true ∧ "c = 3".toList ∈ (f.file .config).records ∧
      present ((Setup.after x f).file .config).records "c".toList = false) ∧
    (∃ x f, (f.file .config).hasSize = true ∧ [] ∉ (f.file .config).records ∧
      [] ∉ x.factory.records ∧ [] ∈ ((Setup.after x f).file .config).records) ∧
    (∃ x f u, (f.file .config).hasSize = true ∧ Ends x.run f u ∧
      (Setup.after x u).file .config ≠ (Setup.after x f).file .config) ∧
    (∃ x f, (f.file .config).hasSize = true ∧
      x.sha256 x.factory ∉ [function2MenuFactory, preV90sFullFactory, fixedAspectFactory] ∧
      (Setup.after x (Setup.after x f)).file .config ≠ (Setup.after x f).file .config) ∧
    ∃ x f, (f.file .config).hasSize = true ∧ (∀ d, x.sha256 d ≠ legacyBubble) ∧
      (Setup.after x (Setup.after x f)).file .config ≠ (Setup.after x f).file .config := by
  refine ⟨⟨sample, filesOf (textOf ["a = 0"]) (some (textOf ["new"])), by decide +kernel,
    by decide +kernel, by decide +kernel⟩, ⟨{ sample with sha256 := fun _ => legacyBubble },
    filesOf (textOf ["c = 3"]) none, by decide +kernel, by decide +kernel, by decide +kernel⟩,
    ⟨sample, filesOf (textOf ["a = 0"]) none, by decide +kernel, by decide +kernel,
    by decide +kernel, by decide +kernel⟩, ?_, ?_, ?_⟩
  · let x : Setup := ⟨⟨[oldScreenshot], []⟩, Doc.empty, fun _ => "new".toList⟩
    let f := filesOf ⟨[oldMenu], []⟩ (some ⟨[function2MenuFactory], []⟩)
    exact ⟨x, f, x.run.cutAfter 3 f, by decide +kernel, Or.inl (cut_cutAfter ..),
      by decide +kernel⟩
  · let x : Setup := ⟨textOf ["a = 1"], Doc.empty,
      fun d => if d = textOf ["c = 3", "", "a = 1"] then legacyBubble else "new".toList⟩
    exact ⟨x, filesOf (textOf ["c = 3"]) none, by decide +kernel, by decide +kernel,
      by decide +kernel⟩
  · let x : Setup := ⟨⟨[oldMenu, oldScreenshot], []⟩, Doc.empty, fun _ => function2MenuFactory⟩
    have hne : function2MenuFactory ≠ legacyBubble := by decide +kernel
    exact ⟨x, filesOf (textOf ["c = 3"]) none, by decide +kernel, fun _ => hne, by decide +kernel⟩

end Promise

end PlumosBubble.RetroArch
