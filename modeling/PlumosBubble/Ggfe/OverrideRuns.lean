import Mathlib.Data.List.Nodup
import Mathlib.Logic.Function.Basic
import PlumosBubble.Ggfe.Overrides

/-! The override file of GGFE as a map from systems and ROMs to profiles, over any sequence of
its calls. The file is written from the overrides of one system, so what it had of others goes;
a profile that is too long empties the entry it was meant for. -/

namespace PlumosBubble.Ggfe

open Frontend

/-- How `ggfe_overrides_save` ends: it returns 0 also where only the directory could not be
synced, and the file has been replaced. -/
inductive SaveResult where
  | done
  | refused
  | unsynced
  deriving DecidableEq

/-- One call; a load may find the file unreadable. -/
inductive StoreCall where
  | set (romRel : CString) (profile : Option CString)
  | save (systemId : Buffer 64) (result : SaveResult)
  | load (systemId : Buffer 64) (readable : Bool)

/-- The overrides in memory, and the file. -/
structure StoreState where
  set : OverrideSet
  file : Option CString

/-- The state after a call, and whether the call returned 1. -/
def StoreCall.step (s : StoreState) : StoreCall → StoreState × Bool
  | .set romRel profile =>
    ({ s with set := (overrideSetRom s.set romRel profile).1 },
      (overrideSetRom s.set romRel profile).2)
  | .save systemId .done => ({ s with file := some (overridesSave s.set systemId.text) }, true)
  | .save _ .refused => (s, false)
  | .save systemId .unsynced =>
    ({ s with file := some (overridesSave s.set systemId.text) }, false)
  | .load systemId readable =>
    let loaded := overridesLoad (if readable then s.file else none) systemId.text
    ({ s with set := loaded.1 }, loaded.2)

/-- What the store is for: the profiles in memory, and those saved for each system. -/
structure Store where
  current : CString → Option CString
  saved : CString → CString → Option CString

/-- A call that returns 0 changes nothing; a load goes back to what was saved. -/
def Store.after (store : Store) (call : StoreCall) (ok : Bool) : Store :=
  match call with
  | .set romRel profile =>
    if ok then
      { store with current := Function.update store.current romRel (profile.filter (· ≠ [])) }
    else store
  | .save systemId _ =>
    if ok then { store with saved := Function.update store.saved systemId.text store.current }
    else store
  | .load systemId _ => { store with current := store.saved systemId.text }

/-- No file, and nothing in memory. -/
def freshState : StoreState := ⟨⟨false, .empty, []⟩, none⟩

def freshStore : Store := ⟨fun _ => none, fun _ _ => none⟩

/-- The state after a sequence of calls, and what the store has by then. -/
def storeRun (calls : List StoreCall) : StoreState × Store :=
  calls.foldl (fun s call => ((call.step s.1).1, s.2.after call (call.step s.1).2))
    (freshState, freshStore)

/-- The code's store has the profiles that it should. -/
structure StoreHolds (s : StoreState) (store : Store) : Prop where
  current : ∀ romRel, overrideForRom s.set romRel = store.current romRel
  saved : ∀ (systemId : Buffer 64) romRel,
    overrideForRom (overridesLoad s.file systemId.text).1 romRel = store.saved systemId.text romRel

/-- When a call does what it should: a new profile for a ROM that has one is not too long; a save
is not cut off after the rename, finds no entry of another system, writes only what can be read
back, and at most 1 MiB; a load can read the file. -/
def CallSound (s : StoreState) : StoreCall → Prop
  | .set romRel profile => (overrideForRom s.set romRel).isSome → ∀ p ∈ profile, p ≠ [] →
      (TextUi.bufferOf 128 p).isSome
  | .save systemId result =>
    result ≠ .unsynced ∧ (result = .done →
      (∀ text ∈ s.file, ∀ object ∈ arrayObjects (lit "rom_overrides") text,
        isAbout systemId.text object = true) ∧
      Lettered ggfeTable systemId.text ∧
      (∀ entry ∈ s.set.rom, Lettered ggfeTable entry.relativePath.text ∧
        Lettered ggfeTable entry.launchProfile.text) ∧
      (overridesSave s.set systemId.text).length ≤ 2 ^ 20)
  | .load _ readable => readable = true ∨ s.file = none

section Memory

/-- What the overrides in memory are in every run of sound calls. -/
structure OverrideSet.Good (set : OverrideSet) : Prop where
  distinct : (set.rom.map fun entry => entry.relativePath.text).Nodup
  nonempty : ∀ entry ∈ set.rom, entry.launchProfile.nonempty = true
  count : set.rom.length ≤ maxRomOverrides

theorem good_nil (hasSystem : Bool) (systemProfile : Buffer 128) :
    OverrideSet.Good ⟨hasSystem, systemProfile, []⟩ where
  distinct := List.nodup_nil
  nonempty := by simp
  count := Nat.zero_le _

theorem overrideForRom_eq_some_iff {set : OverrideSet}
    (h : (set.rom.map fun entry => entry.relativePath.text).Nodup) {romRel p : CString} :
    overrideForRom set romRel = some p ↔
      ∃ entry ∈ set.rom, entry.relativePath.text = romRel ∧ entry.launchProfile.text = p := by
  unfold overrideForRom
  constructor
  · intro hfind
    obtain ⟨entry, hentry, hprofile⟩ := Option.map_eq_some_iff.mp hfind
    exact ⟨entry, List.mem_of_find?_eq_some hentry, by simpa using List.find?_some hentry, hprofile⟩
  · rintro ⟨entry, hmem, hrel, hprofile⟩
    cases hfind : set.rom.find? fun entry => entry.relativePath.text = romRel with
    | none =>
      have hnot := List.find?_eq_none.mp hfind entry hmem
      simp [hrel] at hnot
    | some other =>
      have hother : other.relativePath.text = romRel := by simpa using List.find?_some hfind
      have hsame : other = entry := List.inj_on_of_nodup_map h (List.mem_of_find?_eq_some hfind)
        hmem (hother.trans hrel.symm)
      rw [Option.map_some, hsame, hprofile]

theorem overrideForRom_eq_none_iff {set : OverrideSet} {romRel : CString} :
    overrideForRom set romRel = none ↔
      ∀ entry ∈ set.rom, entry.relativePath.text ≠ romRel := by
  simp [overrideForRom, List.find?_eq_none]

theorem overrideForRom_update {set set' : OverrideSet} {romRel : CString} {p : Option CString}
    (h : (set.rom.map fun entry => entry.relativePath.text).Nodup)
    (h' : (set'.rom.map fun entry => entry.relativePath.text).Nodup)
    (hself : ∀ q, (∃ entry ∈ set'.rom, entry.relativePath.text = romRel ∧
      entry.launchProfile.text = q) ↔ p = some q)
    (hother : ∀ entry, entry.relativePath.text ≠ romRel →
      (entry ∈ set'.rom ↔ entry ∈ set.rom)) :
    overrideForRom set' = Function.update (overrideForRom set) romRel p := by
  funext r
  apply Option.ext
  intro q
  rw [overrideForRom_eq_some_iff h']
  by_cases hr : r = romRel
  · rw [hr, Function.update_self, hself]
  · rw [Function.update_of_ne hr, overrideForRom_eq_some_iff h]
    constructor
    · rintro ⟨entry, hmem, hrel, hprofile⟩
      exact ⟨entry, (hother entry (hrel ▸ hr)).mp hmem, hrel, hprofile⟩
    · rintro ⟨entry, hmem, hrel, hprofile⟩
      exact ⟨entry, (hother entry (hrel ▸ hr)).mpr hmem, hrel, hprofile⟩

theorem swapRemove_perm {α : Type*} (before : List α) (x : α) (behind : List α) :
    (swapRemove (before ++ x :: behind) before.length).Perm (before ++ behind) := by
  unfold swapRemove
  rcases List.eq_nil_or_concat behind with rfl | ⟨rest, last, rfl⟩
  · simp
  · have hlast : (before ++ x :: (rest ++ [last])).getLast? = some last := by
      rw [← List.cons_append, ← List.append_assoc, List.getLast?_concat]
    rw [List.concat_eq_append, hlast]
    have hset : ((before ++ x :: (rest ++ [last])).set before.length last).dropLast =
        before ++ last :: rest := by
      rw [List.set_append_right _ _ (Nat.le_refl _), Nat.sub_self, List.set_cons_zero,
        ← List.cons_append, ← List.append_assoc, List.dropLast_concat]
    simp only [hset]
    exact (List.perm_append_singleton last rest).symm.append_left before

theorem exists_split_findIdx? {α : Type*} {p : α → Bool} {items : List α} {i : ℕ}
    (h : items.findIdx? p = some i) :
    ∃ before x behind, items = before ++ x :: behind ∧ before.length = i ∧ p x = true := by
  obtain ⟨hlt, hp, -⟩ := List.findIdx?_eq_some_iff_getElem.mp h
  refine ⟨items.take i, items[i], items.drop (i + 1), ?_, ?_, hp⟩
  · rw [List.getElem_cons_drop, List.take_append_drop]
  · rw [List.length_take]
    omega

theorem OverrideSet.Good.remove {set : OverrideSet} (h : set.Good) {before behind}
    {entry : ProfileOverride} (hrom : set.rom = before ++ entry :: behind)
    {items : List ProfileOverride} (hitems : items.Perm (before ++ behind)) :
    OverrideSet.Good { set with rom := items } ∧
      overrideForRom { set with rom := items } =
        Function.update (overrideForRom set) entry.relativePath.text none := by
  have hdistinct := h.distinct
  rw [hrom, List.map_append, List.map_cons, List.nodup_middle, ← List.map_append] at hdistinct
  obtain ⟨hnot, hrest⟩ := List.nodup_cons.mp hdistinct
  have hgood : OverrideSet.Good { set with rom := items } := by
    constructor
    · exact (hitems.map _).nodup_iff.mpr hrest
    · intro e he
      apply h.nonempty e
      rw [hrom]
      have hmem := hitems.mem_iff.mp he
      simp only [List.mem_append, List.mem_cons] at hmem ⊢
      tauto
    · show items.length ≤ maxRomOverrides
      have hcount := h.count
      rw [hrom, List.length_append, List.length_cons] at hcount
      rw [hitems.length_eq, List.length_append]
      omega
  refine ⟨hgood, overrideForRom_update h.distinct hgood.distinct ?_ ?_⟩
  · intro q
    constructor
    · rintro ⟨e, he, hrel, -⟩
      exact absurd (List.mem_map.mpr ⟨e, hitems.mem_iff.mp he, hrel⟩) hnot
    · intro hq
      cases hq
  · intro e hne
    rw [hrom]
    show e ∈ items ↔ e ∈ before ++ entry :: behind
    rw [hitems.mem_iff, List.mem_append, List.mem_append, List.mem_cons]
    constructor
    · rintro (hbefore | hbehind)
      · exact Or.inl hbefore
      · exact Or.inr (Or.inr hbehind)
    · rintro (hbefore | rfl | hbehind)
      · exact Or.inl hbefore
      · exact absurd rfl hne
      · exact Or.inr hbehind

theorem OverrideSet.Good.change {set : OverrideSet} (h : set.Good) {before behind}
    {entry : ProfileOverride} (hrom : set.rom = before ++ entry :: behind) {b : Buffer 128}
    (hb : b.nonempty = true) :
    OverrideSet.Good { set with rom := before ++ { entry with launchProfile := b } :: behind } ∧
      overrideForRom { set with rom := before ++ { entry with launchProfile := b } :: behind } =
        Function.update (overrideForRom set) entry.relativePath.text (some b.text) := by
  have hdistinct := h.distinct
  rw [hrom, List.map_append, List.map_cons, List.nodup_middle, ← List.map_append] at hdistinct
  obtain ⟨hnot, -⟩ := List.nodup_cons.mp hdistinct
  have hgood : OverrideSet.Good
      { set with rom := before ++ { entry with launchProfile := b } :: behind } := by
    constructor
    · have hsame := h.distinct
      rw [hrom] at hsame
      simpa using hsame
    · intro e he
      rcases List.mem_append.mp he with he | he
      · exact h.nonempty e (by rw [hrom]; exact List.mem_append_left _ he)
      · rcases List.mem_cons.mp he with rfl | he
        · exact hb
        · apply h.nonempty e
          rw [hrom]
          exact List.mem_append_right _ (List.mem_cons_of_mem _ he)
    · have hcount := h.count
      rw [hrom] at hcount
      simpa using hcount
  refine ⟨hgood, overrideForRom_update h.distinct hgood.distinct ?_ ?_⟩
  · intro q
    constructor
    · rintro ⟨e, he, hrel, hprofile⟩
      rcases List.mem_append.mp he with he | he
      · exact absurd (List.mem_map.mpr ⟨e, List.mem_append_left _ he, hrel⟩) hnot
      · rcases List.mem_cons.mp he with rfl | he
        · rw [← hprofile]
        · exact absurd (List.mem_map.mpr ⟨e, List.mem_append_right _ he, hrel⟩) hnot
    · intro hq
      cases hq
      exact ⟨{ entry with launchProfile := b }, List.mem_append_right _ List.mem_cons_self, rfl,
        rfl⟩
  · intro e hne
    rw [hrom]
    show e ∈ before ++ { entry with launchProfile := b } :: behind ↔ e ∈ before ++ entry :: behind
    rw [List.mem_append, List.mem_append, List.mem_cons, List.mem_cons]
    constructor
    · rintro (hbefore | rfl | hbehind)
      · exact Or.inl hbefore
      · exact absurd rfl hne
      · exact Or.inr (Or.inr hbehind)
    · rintro (hbefore | rfl | hbehind)
      · exact Or.inl hbefore
      · exact absurd rfl hne
      · exact Or.inr (Or.inr hbehind)

theorem OverrideSet.Good.append {set : OverrideSet} (h : set.Good)
    (hroom : set.rom.length < maxRomOverrides) {rel : Buffer 4096} {b : Buffer 128}
    (hnew : ∀ entry ∈ set.rom, entry.relativePath.text ≠ rel.text) (hb : b.nonempty = true) :
    OverrideSet.Good { set with rom := set.rom ++ [⟨rel, b⟩] } ∧
      overrideForRom { set with rom := set.rom ++ [⟨rel, b⟩] } =
        Function.update (overrideForRom set) rel.text (some b.text) := by
  have hnot : rel.text ∉ set.rom.map fun entry => entry.relativePath.text := by
    intro hmem
    obtain ⟨e, he, heq⟩ := List.mem_map.mp hmem
    exact hnew e he heq
  have hgood : OverrideSet.Good { set with rom := set.rom ++ [⟨rel, b⟩] } := by
    constructor
    · show ((set.rom ++ [(⟨rel, b⟩ : ProfileOverride)]).map fun entry =>
        entry.relativePath.text).Nodup
      rw [List.map_append, List.map_singleton, List.nodup_append]
      refine ⟨h.distinct, List.nodup_singleton _, ?_⟩
      intro r hr r' hr' heq
      rw [List.mem_singleton.mp hr'] at heq
      exact hnot (heq ▸ hr)
    · intro e he
      rcases List.mem_append.mp he with he | he
      · exact h.nonempty e he
      · rw [List.mem_singleton.mp he]
        exact hb
    · show (set.rom ++ [(⟨rel, b⟩ : ProfileOverride)]).length ≤ maxRomOverrides
      rw [List.length_append, List.length_singleton]
      omega
  refine ⟨hgood, overrideForRom_update h.distinct hgood.distinct ?_ ?_⟩
  · intro q
    constructor
    · rintro ⟨e, he, hrel, hprofile⟩
      rcases List.mem_append.mp he with he | he
      · exact absurd hrel (hnew e he)
      · rw [List.mem_singleton.mp he] at hprofile
        rw [← hprofile]
    · intro hq
      cases hq
      exact ⟨⟨rel, b⟩, List.mem_append_right _ (List.mem_singleton.mpr rfl), rfl, rfl⟩
  · intro e hne
    show e ∈ set.rom ++ [⟨rel, b⟩] ↔ e ∈ set.rom
    rw [List.mem_append, List.mem_singleton, or_iff_left]
    rintro rfl
    exact hne rfl

theorem bufferOf_eq_some {size : ℕ} {s : CString} {b : Buffer size}
    (h : TextUi.bufferOf size s = some b) : b.text = s := by
  unfold TextUi.bufferOf at h
  split at h
  · rw [← Option.some.inj h]
  · cases h

/-- `ggfe_override_set_rom` sets or clears the ROM, or returns 0 and leaves the ROMs alone. -/
theorem OverrideSet.Good.setRom {set : OverrideSet} (h : set.Good) {romRel : CString}
    {profile : Option CString}
    (hfits : (overrideForRom set romRel).isSome → ∀ p ∈ profile, p ≠ [] →
      (TextUi.bufferOf 128 p).isSome) :
    (overrideSetRom set romRel profile).1.Good ∧
      overrideForRom (overrideSetRom set romRel profile).1 =
        if (overrideSetRom set romRel profile).2 then
          Function.update (overrideForRom set) romRel (profile.filter (· ≠ []))
        else overrideForRom set := by
  unfold overrideSetRom
  cases hfind : set.rom.findIdx? fun entry => entry.relativePath.text = romRel with
  | some i =>
    obtain ⟨before, entry, behind, hrom, rfl, hrel⟩ := exists_split_findIdx? hfind
    have hrel' : entry.relativePath.text = romRel := by simpa using hrel
    cases hprofile : profile.filter fun p => p ≠ [] with
    | some p =>
      obtain ⟨hmem, hne⟩ := Option.filter_eq_some_iff.mp hprofile
      have hsome : (overrideForRom set romRel).isSome := by
        rw [(overrideForRom_eq_some_iff h.distinct).mpr
          ⟨entry, by rw [hrom]; simp, hrel', rfl⟩]
        rfl
      obtain ⟨b, hb⟩ := Option.isSome_iff_exists.mp
        (hfits hsome p (Option.mem_def.mpr hmem) (by simpa using hne))
      have hcopy : ∀ e : ProfileOverride, e.copyProfile p = ({ e with launchProfile := b }, true) :=
        fun e => by simp [ProfileOverride.copyProfile, hb]
      have hmodify : set.rom.modify before.length (fun e => (e.copyProfile p).1) =
          before ++ { entry with launchProfile := b } :: behind := by
        have hlt : before.length < (before ++ entry :: behind).length := by simp
        rw [hrom, List.modify_eq_take_cons_drop hlt]
        simp [hcopy]
      have hany : set.rom[before.length]?.any (fun e => (e.copyProfile p).2) = true := by
        simp [hrom, hcopy]
      have hnonempty : b.nonempty = true := by
        simpa [Buffer.nonempty, bufferOf_eq_some hb] using hne
      have hchange := h.change hrom hnonempty
      rw [hrel', bufferOf_eq_some hb] at hchange
      simp only [hmodify, hany, if_true]
      exact hchange
    | none =>
      have hremove := h.remove hrom (swapRemove_perm before entry behind)
      rw [hrel', ← hrom] at hremove
      simp only [if_true]
      exact hremove
  | none =>
    have hnew : ∀ entry ∈ set.rom, entry.relativePath.text ≠ romRel := by
      intro entry hentry
      simpa using List.findIdx?_eq_none_iff.mp hfind entry hentry
    cases hprofile : profile.filter fun p => p ≠ [] with
    | none =>
      refine ⟨h, ?_⟩
      have hnone := overrideForRom_eq_none_iff.mpr hnew
      simp only [if_true]
      rw [← hnone, Function.update_eq_self]
    | some p =>
      have hne := (Option.filter_eq_some_iff.mp hprofile).2
      by_cases hfull : maxRomOverrides ≤ set.rom.length
      · simp only [if_pos hfull]
        exact ⟨h, rfl⟩
      · simp only [if_neg hfull]
        cases hrel : TextUi.bufferOf 4096 romRel with
        | none => exact ⟨h, rfl⟩
        | some rel =>
          cases hb : TextUi.bufferOf 128 p with
          | none => exact ⟨h, rfl⟩
          | some b =>
            have htext := bufferOf_eq_some hrel
            have hnonempty : b.nonempty = true := by
              simpa [Buffer.nonempty, bufferOf_eq_some hb] using hne
            have hnewRel : ∀ e ∈ set.rom, e.relativePath.text ≠ rel.text := by
              intro e he
              rw [htext]
              exact hnew e he
            have happend := h.append (Nat.lt_of_not_le hfull) hnewRel hnonempty
            rw [htext, bufferOf_eq_some hb] at happend
            exact happend

end Memory

section File

/-- Overrides that come back from the file as they are. -/
structure OverrideSet.Kept (set : OverrideSet) (systemId : Buffer 64) : Prop where
  good : set.Good
  system : Lettered ggfeTable systemId.text
  lettered : ∀ entry ∈ set.rom, Lettered ggfeTable entry.relativePath.text ∧
    Lettered ggfeTable entry.launchProfile.text
  size : (overridesSave set systemId.text).length ≤ 2 ^ 20

theorem OverrideSet.Kept.loaded {set : OverrideSet} {systemId : Buffer 64}
    (h : set.Kept systemId) (wanted : CString) :
    (overridesLoad (some (overridesSave set systemId.text)) wanted).1.rom =
      if systemId.text = wanted then set.rom else [] := by
  have hwritten : writtenOverrides set = set.rom := List.filter_eq_self.mpr h.good.nonempty
  have hreread : set.rom.map rereadOverride = set.rom := by
    conv_rhs => rw [← List.map_id set.rom]
    apply List.map_congr_left
    intro entry hentry
    obtain ⟨hrel, hprofile⟩ := h.lettered entry hentry
    unfold rereadOverride
    rw [(cut_reread_iff _).mpr hrel, (cut_reread_iff _).mpr hprofile]
    rfl
  rw [overridesLoad_overridesSave set systemId wanted h.size, (cut_reread_iff _).mpr h.system,
    hwritten, hreread, List.take_of_length_le h.good.count]

/-- What the file is in every run of sound calls. -/
def FileKept (file : Option CString) : Prop :=
  ∀ text ∈ file, ∃ (set : OverrideSet) (systemId : Buffer 64), set.Kept systemId ∧
    text = overridesSave set systemId.text

theorem FileKept.good {file : Option CString} (h : FileKept file) (systemId : CString) :
    (overridesLoad file systemId).1.Good := by
  have hcongr : ∀ set : OverrideSet, set.Good → ∀ loaded : OverrideSet, loaded.rom = set.rom →
      loaded.Good := by
    intro set hset loaded hrom
    exact ⟨hrom ▸ hset.distinct, hrom ▸ hset.nonempty, hrom ▸ hset.count⟩
  cases file with
  | none => exact good_nil _ _
  | some text =>
    obtain ⟨set, saved, hkept, rfl⟩ := h text rfl
    have hrom := hkept.loaded systemId
    split at hrom
    · exact hcongr set hkept.good _ hrom
    · exact hcongr ⟨false, .empty, []⟩ (good_nil _ _) _ hrom

theorem overrideForRom_congr {set set' : OverrideSet} (h : set.rom = set'.rom) :
    overrideForRom set = overrideForRom set' := by
  funext romRel
  unfold overrideForRom
  rw [h]

theorem rom_overridesLoad_other {file : Option CString} {systemId other : Buffer 64}
    (hfile : ∀ text ∈ file, ∀ object ∈ arrayObjects (lit "rom_overrides") text,
      isAbout systemId.text object = true) (hne : systemId.text ≠ other.text) :
    (overridesLoad file other.text).1.rom = [] := by
  unfold overridesLoad
  cases hread : readFile file with
  | none => rfl
  | some text =>
    have htext : text ∈ file := by
      unfold readFile at hread
      exact (Option.filter_eq_some_iff.mp hread).1
    have hnone : ∀ object ∈ arrayObjects (lit "rom_overrides") text,
        readRomOverride other.text object = none := by
      intro object hobject
      have habout := hfile text htext object hobject
      unfold readRomOverride
      rw [if_neg]
      intro hother
      unfold isAbout at habout hother
      cases hid : jsonGetString 64 (lit "system_id") object with
      | found id rest =>
        simp only [hid, decide_eq_true_eq] at habout hother
        exact hne (habout.symm.trans hother)
      | cleared => simp [hid] at habout
      | untouched => simp [hid] at habout
    show List.take maxRomOverrides _ = []
    rw [List.filterMap_eq_nil_iff.mpr hnone, List.take_nil]

end File

section Runs

/-- What every run of sound calls keeps. -/
structure StoreInvariant (s : StoreState) (store : Store) : Prop where
  holds : StoreHolds s store
  good : s.set.Good
  file : FileKept s.file

theorem storeInvariant_fresh : StoreInvariant freshState freshStore where
  holds := ⟨fun _ => rfl, fun _ _ => rfl⟩
  good := good_nil _ _
  file := by
    intro text htext
    cases htext

theorem StoreInvariant.step {s : StoreState} {store : Store} (h : StoreInvariant s store)
    {call : StoreCall} (hsound : CallSound s call) :
    StoreInvariant (call.step s).1 (store.after call (call.step s).2) := by
  cases call with
  | set romRel profile =>
    obtain ⟨hgood, hset⟩ := h.good.setRom hsound
    have hsaved : (store.after (.set romRel profile)
        (overrideSetRom s.set romRel profile).2).saved = store.saved := by
      cases (overrideSetRom s.set romRel profile).2 <;> rfl
    refine ⟨⟨?_, fun systemId r => ?_⟩, hgood, h.file⟩
    swap
    · show _ = (store.after (.set romRel profile)
        (overrideSetRom s.set romRel profile).2).saved systemId.text r
      rw [hsaved]
      exact h.holds.saved systemId r
    intro r
    have hcurrent : overrideForRom s.set = store.current := funext h.holds.current
    show overrideForRom (overrideSetRom s.set romRel profile).1 r =
      (store.after (.set romRel profile) (overrideSetRom s.set romRel profile).2).current r
    rw [hset, hcurrent]
    cases (overrideSetRom s.set romRel profile).2 <;> rfl
  | save systemId result =>
    cases result with
    | done =>
      obtain ⟨hothers, hsystem, hlettered, hsize⟩ := hsound.2 rfl
      have hkept : s.set.Kept systemId := ⟨h.good, hsystem, hlettered, hsize⟩
      refine ⟨⟨h.holds.current, ?_⟩, h.good, ?_⟩
      · intro other romRel
        show overrideForRom
            (overridesLoad (some (overridesSave s.set systemId.text)) other.text).1 romRel =
          Function.update store.saved systemId.text store.current other.text romRel
        by_cases hsame : systemId.text = other.text
        · have hrom := hkept.loaded other.text
          rw [if_pos hsame] at hrom
          rw [overrideForRom_congr hrom, ← hsame, Function.update_self]
          exact h.holds.current romRel
        · have hrom := hkept.loaded other.text
          rw [if_neg hsame, ← rom_overridesLoad_other hothers hsame] at hrom
          rw [overrideForRom_congr hrom, Function.update_of_ne (Ne.symm hsame)]
          exact h.holds.saved other romRel
      · intro text htext
        exact ⟨s.set, systemId, hkept, (Option.some.inj htext).symm⟩
    | refused => exact h
    | unsynced => exact absurd rfl hsound.1
  | load systemId readable =>
    have hfile : (if readable then s.file else none) = s.file := by
      rcases hsound with rfl | hnone
      · rfl
      · rw [hnone]
        split <;> rfl
    refine ⟨⟨?_, h.holds.saved⟩, ?_, h.file⟩
    · intro romRel
      show overrideForRom (overridesLoad (if readable then s.file else none) systemId.text).1
        romRel = store.saved systemId.text romRel
      rw [hfile]
      exact h.holds.saved systemId romRel
    · show (overridesLoad (if readable then s.file else none) systemId.text).1.Good
      rw [hfile]
      exact h.file.good systemId.text

theorem storeRun_append (calls : List StoreCall) (call : StoreCall) :
    storeRun (calls ++ [call]) = ((call.step (storeRun calls).1).1,
      (storeRun calls).2.after call (call.step (storeRun calls).1).2) := by
  unfold storeRun
  rw [List.foldl_append]
  rfl

/-- In every sequence of sound calls the store is a persistent map: each ROM has the profile that
was last set for it, in memory and, once saved, in the file, and no call that returns 0 and no
save for another system changes it. -/
theorem overrides_persist (calls : List StoreCall)
    (hsound : ∀ before call after, calls = before ++ call :: after →
      CallSound (storeRun before).1 call) :
    StoreHolds (storeRun calls).1 (storeRun calls).2 := by
  have hall : ∀ made, made <+: calls → StoreInvariant (storeRun made).1 (storeRun made).2 := by
    intro made hmade
    induction made using List.reverseRecOn with
    | nil => exact storeInvariant_fresh
    | append_singleton made call ih =>
      rw [storeRun_append]
      obtain ⟨rest, rfl⟩ := hmade
      apply (ih ⟨call :: rest, by simp⟩).step
      exact hsound made call rest (by simp)
  exact (hall calls List.prefix_rfl).holds

instance (s : StoreState) : (call : StoreCall) → Decidable (CallSound s call)
  | .set _ profile => inferInstanceAs (Decidable (_ → ∀ p ∈ profile, p ≠ [] → _))
  | .save _ _ => inferInstanceAs (Decidable (_ ∧ (_ → (∀ text ∈ s.file, _) ∧ _ ∧ _ ∧ _)))
  | .load _ _ => inferInstanceAs (Decidable (_ ∨ s.file = none))

def gameGear : Buffer 64 := .cut (lit "gamegear")

def masterSystem : Buffer 64 := .cut (lit "mastersystem")

/-- A ROM gets a profile, another one gets and loses one, and a save is refused. -/
def sampleCalls : List StoreCall :=
  [.load gameGear true, .set (lit "GG/a.gg") (some (lit "retroarch:gearsystem")),
    .save gameGear .done, .set (lit "GG/b.gg") (some (lit "retroarch:genesis_plus_gx")),
    .set (lit "GG/b.gg") none, .save gameGear .refused, .load gameGear true]

theorem overrides_persist_sample :
    StoreHolds (storeRun sampleCalls).1 (storeRun sampleCalls).2 := by
  apply overrides_persist
  simp only [sampleCalls, Sequence.forall_split_cons]
  simp only [List.nil_eq, List.append_eq_nil_iff, List.cons_ne_nil, and_false, false_implies,
    implies_true, and_true]
  decide +kernel

/-- Saving for another system loses what was set and saved. -/
theorem other_system_lost :
    ¬StoreHolds
      (storeRun [.set (lit "GG/a.gg") (some (lit "retroarch:gearsystem")), .save gameGear .done,
        .load masterSystem true, .set (lit "SMS/b.sms") (some (lit "retroarch:gearsystem")),
        .save masterSystem .done]).1
      (storeRun [.set (lit "GG/a.gg") (some (lit "retroarch:gearsystem")), .save gameGear .done,
        .load masterSystem true, .set (lit "SMS/b.sms") (some (lit "retroarch:gearsystem")),
        .save masterSystem .done]).2 := by
  intro h
  have hkept := h.saved gameGear (lit "GG/a.gg")
  revert hkept
  decide +kernel

end Runs

end PlumosBubble.Ggfe
