import Mathlib.Data.List.Dedup
import Mathlib.Data.List.Rotate
import PlumosBubble.Ggfe.OverrideRuns

/-! The core entry of the GGFE menu, `ggfe_menu_cycle_core` of `plumos_ggfe.c`: the available
profiles and one place for "no override" as a ring. An id that is listed twice closes the ring
too early. -/

namespace PlumosBubble.Ggfe

open Frontend

/-- The ids of the available profiles. -/
def availableIds (catalog : Catalog) : List (Buffer 128) :=
  (catalog.profiles.filter fun p => p.available).map fun p => p.id

/-- What the menu entry works on: the profiles, the cartridge, and the override file with the
path that `join_path` makes of its name, if it fits. -/
structure CoreMenu where
  available : List (Buffer 128)
  romRel : CString
  systemId : Buffer 64
  path : Option CString

namespace CoreMenu

variable (menu : CoreMenu)

/-- The override of the cartridge, none if it is empty. -/
def override (s : StoreState) : Option CString :=
  (overrideForRom s.set menu.romRel).filter fun current => current ≠ []

/-- Where the override stands in the ring: `at + 1`. -/
def place (current : Option CString) : ℕ :=
  (current.bind fun c => menu.available.findIdx? fun id => id.text = c).elim 0 (· + 1)

/-- The ring: no override, then each profile. -/
def slots : List (Option CString) := none :: menu.available.map fun id => some id.text

/-- The choice that a step to a place makes. -/
def slot (i : ℕ) : Option CString := (menu.slots[i]?).getD none

/-- The place after a step. -/
def next (left : Bool) (s : StoreState) : ℕ :=
  (menu.place (menu.override s) + if left then menu.available.length else 1) %
    (menu.available.length + 1)

/-- The file as `ggfe_overrides_load` finds it. -/
def fileOf (s : StoreState) : Option CString := menu.path.bind fun _ => s.file

/-- `ggfe_menu_cycle_core`, where the save succeeds or fails and leaves the file alone. -/
def cycle (left saved : Bool) (s : StoreState) : StoreState :=
  if menu.available = [] then s
  else
    let changed := overrideSetRom s.set menu.romRel (menu.slot (menu.next left s))
    if !changed.2 then { s with set := changed.1 }
    else if menu.path.isSome && saved then
      { set := changed.1, file := some (overridesSave changed.1 menu.systemId.text) }
    else { s with set := (overridesLoad (menu.fileOf s) menu.systemId.text).1 }

/-- What the menu should visit: no override, and each id once. -/
def ring : List (Option CString) :=
  none :: (menu.available.map Buffer.text).dedup.map some

/-- The state after right steps that are saved. -/
def rightSteps (k : ℕ) (s : StoreState) : StoreState := (menu.cycle false true)^[k] s

/-- Right steps visit the whole ring before they come back, and a left step undoes one. -/
structure IsRing (s : StoreState) : Prop where
  visits : ((List.range menu.ring.length).map fun k =>
    menu.override (menu.rightSteps (k + 1) s)).Perm menu.ring
  returns : menu.override s ∈ menu.ring →
    menu.override (menu.rightSteps menu.ring.length s) = menu.override s
  undo : menu.override s ∈ menu.ring →
    menu.override (menu.cycle true true (menu.cycle false true s)) = menu.override s

/-- Memory and file agree about the cartridge. -/
def Agrees (s : StoreState) : Prop :=
  overrideForRom s.set menu.romRel =
    overrideForRom (overridesLoad (menu.fileOf s) menu.systemId.text).1 menu.romRel

/-- When a step does what it should: no available id is listed twice, there is one unless the
cartridge has no override, the cartridge has at most one entry, and there is room for one. -/
def StepSound (s : StoreState) : Prop :=
  (menu.available.map Buffer.text).Nodup ∧
  (menu.available = [] → menu.override s = none) ∧
  (s.set.rom.countP fun entry => entry.relativePath.text = menu.romRel) ≤ 1 ∧
  (overrideForRom s.set menu.romRel = none → s.set.rom.length < maxRomOverrides ∧
    (TextUi.bufferOf 4096 menu.romRel).isSome)

/-- When what a step writes can be read back: no control characters in the system, the path and
the ids, no other path that is read back as this one, and at most 1 MiB. -/
def WriteSound (s : StoreState) : Prop :=
  Lettered ggfeTable menu.systemId.text ∧ Lettered ggfeTable menu.romRel ∧
  (∀ id ∈ menu.available, Lettered ggfeTable id.text) ∧
  (∀ entry ∈ s.set.rom, (rereadOverride entry).relativePath.text = menu.romRel →
    entry.relativePath.text = menu.romRel) ∧
  ∀ choice ∈ menu.slots, (overridesSave (overrideSetRom s.set menu.romRel choice).1
    menu.systemId.text).length ≤ 2 ^ 20

section Set

variable {menu} {set : OverrideSet} {romRel : CString}

theorem rel_ne_of_once {before behind : List ProfileOverride} {entry : ProfileOverride}
    (hrel : entry.relativePath.text = romRel)
    (hone : ((before ++ entry :: behind).countP fun e => e.relativePath.text = romRel) ≤ 1) :
    ∀ e ∈ before ++ behind, e.relativePath.text ≠ romRel := by
  rw [List.countP_append, List.countP_cons_of_pos (by simpa using hrel)] at hone
  have hbefore : (before.countP fun e => e.relativePath.text = romRel) = 0 := by omega
  have hbehind : (behind.countP fun e => e.relativePath.text = romRel) = 0 := by omega
  intro e he
  rcases List.mem_append.mp he with he | he
  · simpa using List.countP_eq_zero.mp hbefore e he
  · simpa using List.countP_eq_zero.mp hbehind e he

theorem overrideSetRom_spec
    (hone : (set.rom.countP fun entry => entry.relativePath.text = romRel) ≤ 1)
    (hcount : set.rom.length ≤ maxRomOverrides)
    (hroom : overrideForRom set romRel = none → set.rom.length < maxRomOverrides ∧
      (TextUi.bufferOf 4096 romRel).isSome)
    {choice : Option (Buffer 128)} (hgiven : ∀ id ∈ choice, id.text ≠ []) :
    (overrideSetRom set romRel (choice.map Buffer.text)).2 = true ∧
      (overrideSetRom set romRel (choice.map Buffer.text)).1.rom.length ≤ maxRomOverrides ∧
      (∀ entry ∈ (overrideSetRom set romRel (choice.map Buffer.text)).1.rom,
        entry.relativePath.text ≠ romRel → entry ∈ set.rom) ∧
      (∀ entry ∈ (overrideSetRom set romRel (choice.map Buffer.text)).1.rom,
        entry.relativePath.text = romRel → some entry.launchProfile = choice) ∧
      ∀ id ∈ choice, ∃ entry ∈ (overrideSetRom set romRel (choice.map Buffer.text)).1.rom,
        entry.relativePath.text = romRel := by
  have hbuffer : ∀ id : Buffer 128, TextUi.bufferOf 128 id.text = some id := by
    intro id
    unfold TextUi.bufferOf
    rw [dif_pos ⟨by have hfits := id.fits; omega, id.noNul⟩]
  unfold overrideSetRom
  cases hfind : set.rom.findIdx? fun entry => entry.relativePath.text = romRel with
  | some i =>
    obtain ⟨before, entry, behind, hrom, rfl, hrel⟩ := exists_split_findIdx? hfind
    have hrel' : entry.relativePath.text = romRel := by simpa using hrel
    rw [hrom] at hone
    have hother := rel_ne_of_once hrel' hone
    cases choice with
    | some id =>
      have hne := hgiven id rfl
      have hfilter : ((some id : Option (Buffer 128)).map Buffer.text).filter (fun p => p ≠ []) =
          some id.text := by
        rw [Option.map_some, Option.filter_some]
        exact if_pos (by simpa using hne)
      have hcopy : ∀ e : ProfileOverride,
          e.copyProfile id.text = ({ e with launchProfile := id }, true) :=
        fun e => by simp [ProfileOverride.copyProfile, hbuffer]
      have hmodify : set.rom.modify before.length (fun e => (e.copyProfile id.text).1) =
          before ++ { entry with launchProfile := id } :: behind := by
        have hlt : before.length < (before ++ entry :: behind).length := by simp
        rw [hrom, List.modify_eq_take_cons_drop hlt]
        simp [hcopy]
      have hany : set.rom[before.length]?.any (fun e => (e.copyProfile id.text).2) = true := by
        simp [hrom, hcopy]
      simp only [hfilter, hmodify, hany]
      refine ⟨trivial, ?_, ?_, ?_, ?_⟩
      · rw [hrom] at hcount
        simpa using hcount
      · intro e he hne'
        rw [hrom]
        rcases List.mem_append.mp he with he | he
        · exact List.mem_append_left _ he
        · rcases List.mem_cons.mp he with rfl | he
          · exact absurd hrel' hne'
          · exact List.mem_append_right _ (List.mem_cons_of_mem _ he)
      · intro e he hself
        rcases List.mem_append.mp he with he | he
        · exact absurd hself (hother e (List.mem_append_left _ he))
        · rcases List.mem_cons.mp he with rfl | he
          · rfl
          · exact absurd hself (hother e (List.mem_append_right _ he))
      · intro _ _
        exact ⟨_, List.mem_append_right _ List.mem_cons_self, hrel'⟩
    | none =>
      have hperm := swapRemove_perm before entry behind
      rw [← hrom] at hperm
      refine ⟨rfl, ?_, ?_, ?_, ?_⟩
      · show (swapRemove set.rom before.length).length ≤ maxRomOverrides
        rw [hrom, List.length_append, List.length_cons] at hcount
        rw [hperm.length_eq, List.length_append]
        omega
      · intro e he _
        rw [hrom]
        rcases List.mem_append.mp (hperm.mem_iff.mp he) with he | he
        · exact List.mem_append_left _ he
        · exact List.mem_append_right _ (List.mem_cons_of_mem _ he)
      · intro e he hself
        exact absurd hself (hother e (hperm.mem_iff.mp he))
      · intro id hid
        cases hid
  | none =>
    have hnew : ∀ entry ∈ set.rom, entry.relativePath.text ≠ romRel := by
      intro entry hentry
      simpa using List.findIdx?_eq_none_iff.mp hfind entry hentry
    cases choice with
    | none =>
      refine ⟨rfl, hcount, fun e he _ => he, ?_, ?_⟩
      · intro e he hself
        exact absurd hself (hnew e he)
      · intro id hid
        cases hid
    | some id =>
      have hne := hgiven id rfl
      obtain ⟨hlt, hfits⟩ := hroom (overrideForRom_eq_none_iff.mpr hnew)
      obtain ⟨rel, hrel⟩ := Option.isSome_iff_exists.mp hfits
      have hfilter : ((some id : Option (Buffer 128)).map Buffer.text).filter (fun p => p ≠ []) =
          some id.text := by
        rw [Option.map_some, Option.filter_some]
        exact if_pos (by simpa using hne)
      simp only [hfilter, if_neg (Nat.not_le_of_lt hlt), hrel, hbuffer]
      refine ⟨trivial, ?_, ?_, ?_, ?_⟩
      · rw [List.length_append, List.length_singleton]
        omega
      · intro e he hne'
        rcases List.mem_append.mp he with he | he
        · exact he
        · rw [List.mem_singleton.mp he] at hne'
          exact absurd (bufferOf_eq_some hrel) hne'
      · intro e he hself
        rcases List.mem_append.mp he with he | he
        · exact absurd hself (hnew e he)
        · rw [List.mem_singleton.mp he]
      · intro _ _
        exact ⟨_, List.mem_append_right _ (List.mem_singleton.mpr rfl), bufferOf_eq_some hrel⟩

theorem overrideForRom_of_choice {choice : Option (Buffer 128)}
    (hself : ∀ entry ∈ set.rom, entry.relativePath.text = romRel →
      some entry.launchProfile = choice)
    (hsome : ∀ id ∈ choice, ∃ entry ∈ set.rom, entry.relativePath.text = romRel) :
    overrideForRom set romRel = choice.map Buffer.text := by
  unfold overrideForRom
  cases hfind : set.rom.find? fun entry => entry.relativePath.text = romRel with
  | some entry =>
    have hrel : entry.relativePath.text = romRel := by simpa using List.find?_some hfind
    rw [← hself entry (List.mem_of_find?_eq_some hfind) hrel]
    rfl
  | none =>
    cases choice with
    | none => rfl
    | some id =>
      obtain ⟨entry, hentry, hrel⟩ := hsome id rfl
      have hnot := List.find?_eq_none.mp hfind entry hentry
      simp [hrel] at hnot

end Set

section Step

variable {menu} {s : StoreState}

/-- The profile at a place, none at the first. -/
def choiceAt (menu : CoreMenu) : ℕ → Option (Buffer 128)
  | 0 => none
  | i + 1 => menu.available[i]?

theorem slot_eq (i : ℕ) : menu.slot i = (menu.choiceAt i).map Buffer.text := by
  cases i with
  | zero => rfl
  | succ i =>
    simp only [slot, slots, choiceAt, List.getElem?_cons_succ, List.getElem?_map]
    cases menu.available[i]? <;> rfl

theorem mem_available_of_choiceAt {i : ℕ} {id : Buffer 128} (h : id ∈ menu.choiceAt i) :
    id ∈ menu.available := by
  cases i with
  | zero => cases h
  | succ i => exact List.mem_of_getElem? h

theorem slot_mem_slots (i : ℕ) : menu.slot i ∈ menu.slots := by
  unfold slot
  cases h : menu.slots[i]? with
  | none => exact List.mem_cons_self
  | some choice => exact List.mem_of_getElem? h

variable (hids : ∀ id ∈ menu.available, id.text ≠ [])

include hids

theorem changed_spec (hsound : menu.StepSound s) (hcount : s.set.rom.length ≤ maxRomOverrides)
    (left : Bool) :
    (overrideSetRom s.set menu.romRel (menu.slot (menu.next left s))).2 = true ∧
      (overrideSetRom s.set menu.romRel (menu.slot (menu.next left s))).1.rom.length ≤
        maxRomOverrides ∧
      overrideForRom (overrideSetRom s.set menu.romRel (menu.slot (menu.next left s))).1
        menu.romRel = menu.slot (menu.next left s) := by
  obtain ⟨-, -, hone, hroom⟩ := hsound
  have hgiven : ∀ id ∈ menu.choiceAt (menu.next left s), id.text ≠ [] :=
    fun id hid => hids id (mem_available_of_choiceAt hid)
  rw [slot_eq]
  obtain ⟨hok, hlength, -, hself, hsome⟩ := overrideSetRom_spec hone hcount hroom hgiven
  exact ⟨hok, hlength, overrideForRom_of_choice hself hsome⟩

theorem override_of_forRom {i : ℕ} {set : OverrideSet} {file : Option CString}
    (h : overrideForRom set menu.romRel = menu.slot i) :
    menu.override ⟨set, file⟩ = menu.slot i := by
  unfold override
  show (overrideForRom set menu.romRel).filter _ = _
  rw [h, slot_eq]
  cases hchoice : menu.choiceAt i with
  | none => rfl
  | some id =>
    rw [Option.map_some, Option.filter_some]
    have hmem : id ∈ menu.available :=
      mem_available_of_choiceAt (i := i) (by rw [hchoice]; rfl)
    exact if_pos (by simpa using hids id hmem)

theorem override_cycle (hne : menu.available ≠ []) (hpath : menu.path.isSome)
    (hsound : menu.StepSound s) (hcount : s.set.rom.length ≤ maxRomOverrides) (left : Bool) :
    menu.override (menu.cycle left true s) = menu.slot (menu.next left s) ∧
      (menu.cycle left true s).set.rom.length ≤ maxRomOverrides := by
  obtain ⟨hok, hlength, hself⟩ := changed_spec hids hsound hcount left
  unfold cycle
  simp only [hne, if_false, hok, Bool.not_true, Bool.false_eq_true, hpath, Bool.and_true, if_true]
  exact ⟨override_of_forRom hids hself, hlength⟩

omit hids in
theorem length_slots : menu.slots.length = menu.available.length + 1 := by
  simp [slots]

omit hids in
theorem place_slot (hnodup : (menu.available.map Buffer.text).Nodup) {i : ℕ}
    (hi : i < menu.available.length + 1) : menu.place (menu.slot i) = i := by
  cases i with
  | zero => rfl
  | succ i =>
    have hlt : i < menu.available.length := by omega
    have hslot : menu.slot (i + 1) = some menu.available[i].text := by
      simp [slot, slots, hlt]
    have hfind : (menu.available.findIdx? fun id => id.text = menu.available[i].text) = some i := by
      rw [List.findIdx?_eq_some_iff_getElem]
      refine ⟨hlt, by simp, ?_⟩
      intro j hj heq
      have htext : menu.available[j].text = menu.available[i].text := by simpa using heq
      have hsame := List.inj_on_of_nodup_map hnodup (List.getElem_mem _) (List.getElem_mem _) htext
      have hindex := (List.Nodup.getElem_inj_iff (List.Nodup.of_map _ hnodup)).mp hsame
      omega
    rw [hslot]
    simp [place, hfind]

omit hids in
theorem place_lt (current : Option CString) :
    menu.place current < menu.available.length + 1 := by
  unfold place
  cases hfind : current.bind fun c => menu.available.findIdx? fun id => id.text = c with
  | none => exact Nat.succ_pos _
  | some i =>
    obtain ⟨c, -, hindex⟩ := Option.bind_eq_some_iff.mp hfind
    have hlt := (List.findIdx?_eq_some_iff_getElem.mp hindex).1
    show i + 1 < _
    omega

omit hids in
theorem ring_eq (hnodup : (menu.available.map Buffer.text).Nodup) : menu.ring = menu.slots := by
  unfold ring slots
  rw [hnodup.dedup, List.map_map]
  rfl

omit hids in
theorem slot_place {current : Option CString} (h : current ∈ menu.slots)
    (hnodup : (menu.available.map Buffer.text).Nodup) :
    menu.slot (menu.place current) = current := by
  obtain ⟨i, hi, rfl⟩ := List.mem_iff_getElem.mp h
  have hslot : menu.slot i = menu.slots[i] := by simp [slot, hi]
  have hlt : i < menu.available.length + 1 := by
    rw [← length_slots]
    exact hi
  rw [← hslot, place_slot hnodup hlt]

end Step

section Ring

variable {menu} {s : StoreState}

theorem cycle_of_nil (h : menu.available = []) (left saved : Bool) :
    menu.cycle left saved s = s := by
  unfold cycle
  rw [if_pos h]

theorem rightSteps_succ (k : ℕ) :
    menu.rightSteps (k + 1) s = menu.cycle false true (menu.rightSteps k s) := by
  unfold rightSteps
  rw [Function.iterate_succ_apply']

theorem override_rightSteps (hids : ∀ id ∈ menu.available, id.text ≠ [])
    (hne : menu.available ≠ []) (hpath : menu.path.isSome)
    (hcount : s.set.rom.length ≤ maxRomOverrides) {n : ℕ}
    (hsound : ∀ k ≤ n, menu.StepSound (menu.rightSteps k s)) :
    ∀ k ≤ n, menu.override (menu.rightSteps (k + 1) s) =
        menu.slot ((menu.place (menu.override s) + (k + 1)) % (menu.available.length + 1)) ∧
      (menu.rightSteps (k + 1) s).set.rom.length ≤ maxRomOverrides := by
  intro k
  induction k with
  | zero =>
    intro hk
    exact override_cycle hids hne hpath (hsound 0 hk) hcount false
  | succ k ih =>
    intro hk
    obtain ⟨hover, hlength⟩ := ih (by omega)
    have hstep := override_cycle hids hne hpath (hsound (k + 1) hk) hlength false
    rw [rightSteps_succ (k + 1)]
    refine ⟨hstep.1.trans ?_, hstep.2⟩
    have hplace := place_slot (hsound 0 (by omega)).1
      (Nat.mod_lt (menu.place (menu.override s) + (k + 1)) (Nat.succ_pos menu.available.length))
    unfold next
    rw [hover, hplace, if_neg (by decide), Nat.mod_add_mod]
    rfl

theorem isRing_of_sound (hids : ∀ id ∈ menu.available, id.text ≠ [])
    (hpath : menu.path.isSome) (hcount : s.set.rom.length ≤ maxRomOverrides)
    (hsound : ∀ k ≤ menu.available.length, menu.StepSound (menu.rightSteps k s)) :
    menu.IsRing s := by
  have hnodup := (hsound 0 (Nat.zero_le _)).1
  by_cases hne : menu.available = []
  · have hright : ∀ k, menu.rightSteps k s = s := by
      intro k
      induction k with
      | zero => rfl
      | succ k ih => rw [rightSteps_succ, ih, cycle_of_nil hne]
    have hnone := (hsound 0 (Nat.zero_le _)).2.1 hne
    have hstart : menu.override s = none := hnone
    have hring : menu.ring = [none] := by simp [ring, hne]
    constructor
    · simp [hring, hright, hstart]
    · intro _
      rw [hright]
    · intro _
      rw [cycle_of_nil hne, cycle_of_nil hne]
  · have hover := override_rightSteps hids hne hpath hcount hsound
    have hlength : menu.ring.length = menu.available.length + 1 := by
      rw [ring_eq hnodup, length_slots]
    constructor
    · rw [hlength, ring_eq hnodup]
      have hrotate : ((List.range (menu.available.length + 1)).map fun k =>
          menu.override (menu.rightSteps (k + 1) s)) =
            menu.slots.rotate (menu.place (menu.override s) + 1) := by
        apply List.ext_getElem
        · simp [length_slots]
        · intro k hk hk'
          have hlt : k < menu.available.length + 1 := by simpa using hk
          rw [List.getElem_map, List.getElem_range, (hover k (by omega)).1, List.getElem_rotate]
          have hindex : (menu.place (menu.override s) + (k + 1)) % (menu.available.length + 1) =
              (k + (menu.place (menu.override s) + 1)) % menu.slots.length := by
            rw [length_slots]
            congr 1
            omega
          unfold slot
          rw [hindex, List.getElem?_eq_getElem]
          rfl
      rw [hrotate]
      exact List.rotate_perm _ _
    · intro hmem
      rw [ring_eq hnodup] at hmem
      rw [hlength, (hover menu.available.length (Nat.le_refl _)).1, Nat.add_mod_right,
        Nat.mod_eq_of_lt (place_lt _), slot_place hmem hnodup]
    · intro hmem
      rw [ring_eq hnodup] at hmem
      have hpos : 1 ≤ menu.available.length := List.length_pos_iff.mpr hne
      obtain ⟨hright, hcount'⟩ := hover 0 (Nat.zero_le _)
      have hsound' := hsound 1 hpos
      have hleft := (override_cycle hids hne hpath hsound' hcount' true).1
      have hplace := place_slot hnodup
        (Nat.mod_lt (menu.place (menu.override s) + 1) (Nat.succ_pos menu.available.length))
      have hlt := @place_lt menu (menu.override s)
      show menu.override (menu.cycle true true (menu.rightSteps 1 s)) = _
      rw [hleft]
      unfold next
      rw [hright, Nat.zero_add, hplace, if_pos rfl, Nat.mod_add_mod, Nat.add_assoc,
        Nat.add_comm 1, Nat.add_mod_right, Nat.mod_eq_of_lt hlt, slot_place hmem hnodup]

/-- The menu after steps, each to the left or not and saved or not. -/
def steps (menu : CoreMenu) (made : List (Bool × Bool)) (s : StoreState) : StoreState :=
  made.foldl (fun s step => menu.cycle step.1 step.2 s) s

theorem steps_append (made : List (Bool × Bool)) (step : Bool × Bool) :
    menu.steps (made ++ [step]) s = menu.cycle step.1 step.2 (menu.steps made s) := by
  unfold steps
  rw [List.foldl_append]
  rfl

theorem length_overridesLoad (file : Option CString) (systemId : CString) :
    (overridesLoad file systemId).1.rom.length ≤ maxRomOverrides := by
  unfold overridesLoad
  cases readFile file with
  | none => exact Nat.zero_le _
  | some text =>
    show (List.take maxRomOverrides _).length ≤ maxRomOverrides
    rw [List.length_take]
    exact Nat.min_le_left _ _

theorem forRom_written {set : OverrideSet} {choice : Option (Buffer 128)}
    (hcount : set.rom.length ≤ maxRomOverrides)
    (hself : ∀ entry ∈ set.rom, entry.relativePath.text = menu.romRel →
      some entry.launchProfile = choice)
    (hsome : ∀ id ∈ choice, ∃ entry ∈ set.rom, entry.relativePath.text = menu.romRel)
    (hgiven : ∀ id ∈ choice, id.text ≠ [])
    (hsystem : Lettered ggfeTable menu.systemId.text) (hrel : Lettered ggfeTable menu.romRel)
    (hprofile : ∀ id ∈ choice, Lettered ggfeTable id.text)
    (hother : ∀ entry ∈ set.rom, (rereadOverride entry).relativePath.text = menu.romRel →
      entry.relativePath.text = menu.romRel)
    (hsize : (overridesSave set menu.systemId.text).length ≤ 2 ^ 20) :
    overrideForRom (overridesLoad (some (overridesSave set menu.systemId.text))
      menu.systemId.text).1 menu.romRel = choice.map Buffer.text := by
  have hload := overridesLoad_overridesSave set menu.systemId menu.systemId.text hsize
  rw [(cut_reread_iff _).mpr hsystem, if_pos rfl] at hload
  have hlength : ((writtenOverrides set).map rereadOverride).length ≤ maxRomOverrides := by
    rw [List.length_map]
    exact (List.length_filter_le _ _).trans hcount
  rw [List.take_of_length_le hlength] at hload
  apply overrideForRom_of_choice
  · intro e he hrele
    rw [hload] at he
    obtain ⟨entry, hentry, rfl⟩ := List.mem_map.mp he
    have hmem := (List.mem_filter.mp hentry).1
    have hchoice := hself entry hmem (hother entry hmem hrele)
    have hlettered := hprofile entry.launchProfile (by rw [← hchoice]; rfl)
    rw [← hchoice]
    exact congrArg some ((cut_reread_iff _).mpr hlettered)
  · intro id hid
    obtain ⟨entry, hentry, hrele⟩ := hsome id hid
    have hchoice := hself entry hentry hrele
    have heq : entry.launchProfile = id := Option.some.inj (hchoice.trans hid)
    have hwritten : entry ∈ writtenOverrides set := by
      apply List.mem_filter.mpr
      exact ⟨hentry, by rw [heq]; simpa [Buffer.nonempty] using hgiven id hid⟩
    rw [hload]
    refine ⟨rereadOverride entry, List.mem_map_of_mem hwritten, ?_⟩
    have hkept : (rereadOverride entry).relativePath = entry.relativePath :=
      (cut_reread_iff _).mpr (hrele ▸ hrel)
    rw [hkept, hrele]

theorem agrees_cycle (hids : ∀ id ∈ menu.available, id.text ≠ []) (hstep : menu.StepSound s)
    (hwrite : menu.WriteSound s) (hcount : s.set.rom.length ≤ maxRomOverrides)
    (hagrees : menu.Agrees s) (left saved : Bool) :
    menu.Agrees (menu.cycle left saved s) ∧
      (menu.cycle left saved s).set.rom.length ≤ maxRomOverrides := by
  unfold cycle
  split
  · exact ⟨hagrees, hcount⟩
  · obtain ⟨hok, hlength, hforRom⟩ := changed_spec hids hstep hcount left
    simp only [hok, Bool.not_true, Bool.false_eq_true, if_false]
    split
    · rename_i hsaved
      refine ⟨?_, hlength⟩
      obtain ⟨-, -, hone, hroom⟩ := hstep
      obtain ⟨hsystem, hrel, hprofiles, hother, hsize⟩ := hwrite
      have hpath := (Bool.and_eq_true_iff.mp hsaved).1
      obtain ⟨path, hpath⟩ := Option.isSome_iff_exists.mp hpath
      have hgiven : ∀ id ∈ menu.choiceAt (menu.next left s), id.text ≠ [] :=
        fun id hid => hids id (mem_available_of_choiceAt hid)
      have hsize' := hsize _ (slot_mem_slots (menu.next left s))
      obtain ⟨-, -, hkept, hself, hsome⟩ := overrideSetRom_spec hone hcount hroom hgiven
      rw [← slot_eq] at hkept hself hsome
      have hchoice := hforRom.trans (slot_eq _)
      generalize (overrideSetRom s.set menu.romRel (menu.slot (menu.next left s))).1 = changed
        at hlength hchoice hsize' hkept hself hsome ⊢
      have hother' : ∀ entry ∈ changed.rom, (rereadOverride entry).relativePath.text =
          menu.romRel → entry.relativePath.text = menu.romRel := by
        intro entry hentry hreread
        by_contra hne
        exact hne (hother entry (hkept entry hentry hne) hreread)
      have hread := forRom_written hlength hself hsome hgiven hsystem hrel
        (fun id hid => hprofiles id (mem_available_of_choiceAt hid)) hother' hsize'
      have hfile : menu.fileOf ⟨changed, some (overridesSave changed menu.systemId.text)⟩ =
          some (overridesSave changed menu.systemId.text) := by
        unfold fileOf
        rw [hpath, Option.bind_some]
      unfold Agrees
      rw [hfile, hread]
      exact hchoice
    · exact ⟨rfl, length_overridesLoad _ _⟩

theorem agrees_steps (hids : ∀ id ∈ menu.available, id.text ≠ [])
    (hstart : s.set = (overridesLoad (menu.fileOf s) menu.systemId.text).1)
    {made : List (Bool × Bool)}
    (hsound : ∀ before step after, made = before ++ step :: after →
      menu.StepSound (menu.steps before s) ∧ menu.WriteSound (menu.steps before s)) :
    menu.Agrees (menu.steps made s) := by
  have hall : ∀ before, before <+: made → menu.Agrees (menu.steps before s) ∧
      (menu.steps before s).set.rom.length ≤ maxRomOverrides := by
    intro before hbefore
    induction before using List.reverseRecOn with
    | nil =>
      constructor
      · unfold Agrees
        show overrideForRom s.set menu.romRel = _
        rw [hstart]
        rfl
      · show s.set.rom.length ≤ maxRomOverrides
        rw [hstart]
        exact length_overridesLoad _ _
    | append_singleton before step ih =>
      obtain ⟨rest, rfl⟩ := hbefore
      obtain ⟨hagrees, hcount⟩ := ih ⟨step :: rest, by simp⟩
      obtain ⟨hstep, hwrite⟩ := hsound before step rest (by simp)
      rw [steps_append]
      exact agrees_cycle hids hstep hwrite hcount hagrees step.1 step.2
  exact (hall made List.prefix_rfl).1

end Ring

section Session

theorem length_overrideSetRom {set : OverrideSet} (h : set.rom.length ≤ maxRomOverrides)
    (romRel : CString) (profile : Option CString) :
    (overrideSetRom set romRel profile).1.rom.length ≤ maxRomOverrides := by
  unfold overrideSetRom
  split
  · split
    · simpa using h
    · have hswap : ∀ (items : List ProfileOverride) (i : ℕ),
          (swapRemove items i).length ≤ items.length := by
        intro items i
        unfold swapRemove
        split
        · exact Nat.le_refl _
        · simp
      exact (hswap _ _).trans h
  · split
    · exact h
    · split
      · exact h
      · rename_i hfull
        split
        · rw [List.length_append, List.length_singleton]
          omega
        · exact h

variable {menu : CoreMenu} {s : StoreState}

theorem length_steps (h : s.set.rom.length ≤ maxRomOverrides) (made : List (Bool × Bool)) :
    (menu.steps made s).set.rom.length ≤ maxRomOverrides := by
  induction made using List.reverseRecOn with
  | nil => exact h
  | append_singleton made step ih =>
    have hset := length_overrideSetRom ih menu.romRel
      (menu.slot (menu.next step.1 (menu.steps made s)))
    rw [steps_append]
    unfold cycle
    split
    · exact ih
    · simp only
      split
      · exact hset
      · split
        · exact hset
        · exact length_overridesLoad _ _

/-- The menu of a cartridge of a system. -/
def menuOf (isRegularFile : CString → Bool) (plumosRoot : CString)
    (systemsJson : Option CString) (systemId : Buffer 64) (romRel overridesName : CString) :
    CoreMenu where
  available := availableIds (probedCatalog isRegularFile plumosRoot systemsJson systemId.text)
  romRel := romRel
  systemId := systemId
  path := joinPath pathMax plumosRoot overridesName

theorem nonempty_menuOf (isRegularFile : CString → Bool) (plumosRoot : CString)
    (systemsJson : Option CString) (systemId : Buffer 64) (romRel overridesName : CString) :
    ∀ id ∈ (menuOf isRegularFile plumosRoot systemsJson systemId romRel overridesName).available,
      id.text ≠ [] := by
  intro id hid
  obtain ⟨p, hp, rfl⟩ := List.mem_map.mp hid
  have hmem := (List.mem_filter.mp hp).1
  unfold probedCatalog at hmem
  rw [profiles_probeProfiles] at hmem
  obtain ⟨listed, hlisted, rfl⟩ := List.mem_map.mp hmem
  exact nonempty_of_isKnown (mem_of_mem_tableIds hlisted).2

/-- Wherever a session of the menu has got to, its saved steps go round the ring while they are
sound, and after any sound steps, saved or not, memory and file agree about the cartridge. -/
theorem core_menu_is_ring (isRegularFile : CString → Bool) (plumosRoot : CString)
    (systemsJson : Option CString) (systemId : Buffer 64) (romRel overridesName : CString)
    {menu : CoreMenu}
    (hmenu : menu = menuOf isRegularFile plumosRoot systemsJson systemId romRel overridesName)
    {s : StoreState} (hloaded : s.set = (overridesLoad (menu.fileOf s) systemId.text).1) :
    (∀ made, menu.path.isSome →
      (∀ k ≤ menu.available.length, menu.StepSound (menu.rightSteps k (menu.steps made s))) →
      menu.IsRing (menu.steps made s)) ∧
    ∀ made, (∀ before step after, made = before ++ step :: after →
      menu.StepSound (menu.steps before s) ∧ menu.WriteSound (menu.steps before s)) →
      menu.Agrees (menu.steps made s) := by
  have hids : ∀ id ∈ menu.available, id.text ≠ [] := by
    rw [hmenu]
    exact nonempty_menuOf isRegularFile plumosRoot systemsJson systemId romRel overridesName
  have hsystem : menu.systemId = systemId := by rw [hmenu]; rfl
  constructor
  · intro made hpath hsound
    have hcount : s.set.rom.length ≤ maxRomOverrides := by
      rw [hloaded]
      exact length_overridesLoad _ _
    exact isRing_of_sound hids hpath (length_steps hcount made) hsound
  · intro made hsound
    rw [← hsystem] at hloaded
    exact agrees_steps hids hloaded hsound

instance (menu : CoreMenu) (s : StoreState) : Decidable (menu.StepSound s) :=
  inferInstanceAs (Decidable (_ ∧ _ ∧ _ ∧ _))

instance (menu : CoreMenu) (s : StoreState) : Decidable (menu.WriteSound s) :=
  inferInstanceAs (Decidable (_ ∧ _ ∧ _ ∧ (∀ entry ∈ s.set.rom, _) ∧ _))

/-- A system with two profiles. -/
def twoProfiles : CString :=
  lit "\x7b \"systems\": [ \x7b \"id\": \"gamegear\", \"launch_profiles\": [ " ++
  lit "\"retroarch:gearsystem\", \"retroarch:genesis_plus_gx\" ] \x7d ] \x7d"

/-- The menu of a cartridge of such a system, with both cores on the device. -/
def sampleMenu : CoreMenu :=
  menuOf (fun _ => true) (lit "/mnt/SDCARD/plumos") (some twoProfiles) gameGear (lit "GG/a.gg")
    (lit "state/frontend/ggfe-overrides.json")

theorem core_menu_is_ring_sample :
    sampleMenu.IsRing freshState ∧
      sampleMenu.Agrees (sampleMenu.steps [(false, true), (false, false), (true, true)]
        freshState) := by
  have h := @core_menu_is_ring (fun _ => true) (lit "/mnt/SDCARD/plumos") (some twoProfiles)
    gameGear (lit "GG/a.gg") (lit "state/frontend/ggfe-overrides.json") sampleMenu rfl freshState
    rfl
  constructor
  · apply h.1 []
    · decide +kernel
    · decide +kernel
  · apply h.2
    simp only [Sequence.forall_split_cons]
    simp only [List.nil_eq, List.append_eq_nil_iff, List.cons_ne_nil, and_false, false_implies,
      implies_true, and_true]
    decide +kernel

/-- A system that lists one profile twice. -/
def repeatedProfile : CString :=
  lit "\x7b \"systems\": [ \x7b \"id\": \"gamegear\", \"launch_profiles\": [ " ++
  lit "\"retroarch:gearsystem\", \"retroarch:gearsystem\", \"retroarch:genesis_plus_gx\" ] " ++
  lit "\x7d ] \x7d"

/-- The steps stay at the profile that is listed twice. -/
theorem repeated_profile_stuck :
    ¬(menuOf (fun _ => true) (lit "/mnt/SDCARD/plumos") (some repeatedProfile) gameGear
      (lit "GG/a.gg") (lit "state/frontend/ggfe-overrides.json")).IsRing freshState := by
  intro h
  have hvisits := h.visits
  revert hvisits
  decide +kernel

end Session

end CoreMenu

end PlumosBubble.Ggfe
