import Mathlib.Data.List.Perm.Subperm
import Mathlib.Logic.Function.Basic
import PlumosBubble.PortMaster.Model

/-! The case fix in front of an install of a port: an existing item whose name differs from that in
the archive by case only is renamed twice, over a temporary name. Each rename may fail, and the
power may be cut before any of them. -/

namespace PlumosBubble.PortMaster

open Update (Text)

/-- `str.casefold`, which maps each character by itself. -/
structure Casefold where
  char : Char → Text
  char_ne_nil : ∀ c, char c ≠ []

def Casefold.fold (C : Casefold) (s : Text) : Text := s.flatMap C.char

/-- A directory: what is under each name. -/
abbrev Dir (γ : Type) := AList fun _ : Text => γ

section Code

variable {γ ρ : Type} [DecidableEq ρ] (C : Casefold)

/-- `os.rename`, to a name that is free. -/
def Dir.rename (d : Dir γ) (src dst : Text) : Dir γ :=
  match d.lookup src with
  | some x => (d.erase src).insert dst x
  | none => d

def casefixStart (pid : ℕ) : Text := ".plumos-casefix-".toList ++ decimal pid ++ ['-']

/-- The temporary names, without a suffix and with one. -/
def temporaryName (pid : ℕ) (expected : Text) : ℕ → Text
  | 0 => casefixStart pid ++ expected
  | suffix + 1 => casefixStart pid ++ (decimal (suffix + 1) ++ '-' :: expected)

/-- `while temporary.exists(): suffix += 1`. -/
def firstFree (d : Dir γ) (pid : ℕ) (expected : Text) : ℕ → ℕ → ℕ
  | 0, suffix => suffix
  | fuel + 1, suffix =>
    if temporaryName pid expected suffix ∈ d.keys then firstFree d pid expected fuel (suffix + 1)
    else suffix

/-- More names than are taken need not be tried. -/
def temporary (d : Dir γ) (pid : ℕ) (expected : Text) : Text :=
  temporaryName pid expected (firstFree d pid expected d.keys.length 0)

/-- `current`, where there is one item to rename. -/
def conflict (d : Dir γ) (expected : Text) : Option Text :=
  let matches' := d.keys.filter fun name => C.fold name = C.fold expected
  if expected ∈ matches' then none
  else
    match matches' with
    | [current] => some current
    | _ => none

/-- How the fix of an item, or of all, ends. -/
inductive FixEnd where
  | finished
  | raised
  | cut
  deriving DecidableEq

/-- `canonicalize_existing_item_case` in a directory. The list says which of the next renames
work; where it ends, nothing more is done. -/
def canonicalize (pid : ℕ) (expected : Text) (works : List Bool) (d : Dir γ) :
    FixEnd × List Bool × Dir γ :=
  match conflict C d expected with
  | none => (.finished, works, d)
  | some current =>
    let temp := temporary d pid expected
    let moved := d.rename current temp
    match works with
    | [] => (.cut, [], d)
    | false :: works => (.raised, works, d)
    | [true] => (.cut, [], moved)
    | true :: true :: works => (.finished, works, moved.rename temp expected)
    | [true, false] => (.cut, [], moved)
    | true :: false :: true :: works => (.raised, works, moved.rename temp current)
    | true :: false :: false :: works => (.raised, works, moved)

/-- The components of a `PurePosixPath`, for a path that is not absolute. -/
def pathParts (filename : Text) : List Text :=
  (filename.splitOn '/').filter fun part => part ≠ [] ∧ part ≠ ['.']

/-- `port_archive_top_level_items`: names, and whether they are those of scripts. -/
def topLevelItems : List Text → List (Text × Bool) → List (Text × Bool)
  | [], items => items
  | filename :: filenames, items =>
    let parts := pathParts filename
    if Update.isAbsolute filename ∨ ['.', '.'] ∈ parts ∨ parts = [] then []
    else
      let item := match parts with
        | [name] => if ".sh".toList <:+ C.fold name then some (name, true) else none
        | name :: _ => some (name, false)
        | [] => none
      match item with
      | some item => topLevelItems filenames (if item ∈ items then items else items ++ [item])
      | none => topLevelItems filenames items

/-- The directories, by where they are; `none` where there is none. -/
abbrev Dirs (ρ γ : Type) := ρ → Option (Dir γ)

/-- The loop of `plumos_install_port` over the items, with the two directories. -/
def normalizeItems (root : Bool → ρ) (pid : ℕ) :
    List (Text × Bool) → List Bool → Dirs ρ γ → FixEnd × List Bool × Dirs ρ γ
  | [], works, s => (.finished, works, s)
  | (name, script) :: items, works, s =>
    match s (root script) with
    | none => normalizeItems root pid items works s
    | some d =>
      let fixed := canonicalize C pid name works d
      let s := Function.update s (root script) (some fixed.2.2)
      if fixed.1 = .finished then normalizeItems root pid items fixed.2.1 s
      else (fixed.1, fixed.2.1, s)

/-- `plumos_install_port` up to the call of the original; `filenames` are those of the archive. -/
def plumosInstallPort (root : Bool → ρ) (pid : ℕ) (filenames : List Text) (works : List Bool)
    (s : Dirs ρ γ) : FixEnd × List Bool × Dirs ρ γ :=
  normalizeItems C root pid (topLevelItems C filenames []) works s

end Code

section Names

variable {γ : Type} {C : Casefold}

theorem fold_append (s t : Text) : C.fold (s ++ t) = C.fold s ++ C.fold t :=
  List.flatMap_append

theorem fold_ne_nil {s : Text} (h : s ≠ []) : C.fold s ≠ [] := by
  cases s with
  | nil => exact absurd rfl h
  | cons c s =>
    unfold Casefold.fold
    rw [List.flatMap_cons]
    exact fun hnil => C.char_ne_nil c (List.append_eq_nil_iff.mp hnil).1

theorem casefixStart_ne_nil (pid : ℕ) : casefixStart pid ≠ [] :=
  List.append_ne_nil_of_right_ne_nil _ (List.cons_ne_nil _ _)

theorem temporaryName_split (pid : ℕ) (expected : Text) (suffix : ℕ) :
    ∃ front, front ≠ [] ∧ temporaryName pid expected suffix = front ++ expected := by
  cases suffix with
  | zero => exact ⟨casefixStart pid, casefixStart_ne_nil pid, rfl⟩
  | succ suffix =>
    refine ⟨casefixStart pid ++ (decimal (suffix + 1) ++ ['-']),
      List.append_ne_nil_of_left_ne_nil (casefixStart_ne_nil pid) _, ?_⟩
    rw [temporaryName, List.append_assoc, List.append_assoc, List.singleton_append]

theorem fold_temporaryName (pid : ℕ) (expected : Text) (suffix : ℕ) :
    C.fold (temporaryName pid expected suffix) ≠ C.fold expected := by
  obtain ⟨front, hne, heq⟩ := temporaryName_split pid expected suffix
  rw [heq, fold_append]
  intro h
  exact fold_ne_nil hne (List.append_left_eq_self.mp h)

theorem decimal_injective : Function.Injective decimal := by
  intro m n h
  have hm := Nat.ofDigitChars_ten_toDigits (n := m)
  have hn := Nat.ofDigitChars_ten_toDigits (n := n)
  unfold decimal at h
  rw [h] at hm
  exact hm.symm.trans hn

theorem temporaryName_injective (pid : ℕ) (expected : Text) :
    Function.Injective (temporaryName pid expected) := by
  have hlonger : ∀ suffix, temporaryName pid expected 0 ≠
      temporaryName pid expected (suffix + 1) := by
    intro suffix h
    have hlength := congrArg List.length (List.append_cancel_left h)
    rw [List.length_append, List.length_cons] at hlength
    omega
  intro m n h
  cases m with
  | zero =>
    cases n with
    | zero => rfl
    | succ n => exact absurd h (hlonger n)
  | succ m =>
    cases n with
    | zero => exact absurd h.symm (hlonger m)
    | succ n => exact decimal_injective (List.append_cancel_right (List.append_cancel_left h))

theorem firstFree_cases (d : Dir γ) (pid : ℕ) (expected : Text) (fuel suffix : ℕ) :
    temporaryName pid expected (firstFree d pid expected fuel suffix) ∉ d.keys ∨
      (∀ i < fuel, temporaryName pid expected (suffix + i) ∈ d.keys) ∧
        firstFree d pid expected fuel suffix = suffix + fuel := by
  induction fuel generalizing suffix with
  | zero => exact Or.inr ⟨by simp, rfl⟩
  | succ fuel ih =>
    rw [firstFree]
    by_cases htaken : temporaryName pid expected suffix ∈ d.keys
    · rw [if_pos htaken]
      rcases ih (suffix + 1) with hfree | ⟨hall, heq⟩
      · exact Or.inl hfree
      · refine Or.inr ⟨fun i hi => ?_, by omega⟩
        cases i with
        | zero => exact htaken
        | succ i =>
          have hnext := hall i (by omega)
          rwa [Nat.add_right_comm] at hnext
    · rw [if_neg htaken]
      exact Or.inl htaken

theorem temporary_free (d : Dir γ) (pid : ℕ) (expected : Text) :
    temporary d pid expected ∉ d.keys := by
  rcases firstFree_cases d pid expected d.keys.length 0 with hfree | ⟨hall, heq⟩
  · exact hfree
  · intro htaken
    unfold temporary at htaken
    rw [heq, Nat.zero_add] at htaken
    have hsubset : (List.range (d.keys.length + 1)).map (temporaryName pid expected) ⊆ d.keys := by
      intro name hname
      obtain ⟨i, hi, rfl⟩ := List.mem_map.mp hname
      have hle := List.mem_range.mp hi
      rcases Nat.lt_or_ge i d.keys.length with hlt | hge
      · have hin := hall i hlt
        rwa [Nat.zero_add] at hin
      · have hlast : i = d.keys.length := by omega
        rw [hlast]
        exact htaken
    have hnodup := (List.nodup_range (n := d.keys.length + 1)).map
      (temporaryName_injective pid expected)
    have hlength := (hnodup.subperm hsubset).length_le
    rw [List.length_map, List.length_range] at hlength
    omega

theorem conflict_spec {d : Dir γ} {expected current : Text}
    (h : conflict C d expected = some current) :
    expected ∉ d.keys ∧ current ∈ d.keys ∧ C.fold current = C.fold expected := by
  unfold conflict at h
  dsimp only at h
  split_ifs at h with hexact
  have hin : current ∈ d.keys.filter fun name => C.fold name = C.fold expected := by
    split at h
    · rename_i heq
      cases h
      rw [heq]
      exact List.mem_singleton_self _
    · cases h
  rw [List.mem_filter] at hin hexact
  exact ⟨fun hkey => hexact ⟨hkey, by simp⟩, hin.1, by simpa using hin.2⟩

end Names

section Statement

variable {γ ρ : Type} [DecidableEq ρ] (C : Casefold) (root : Bool → ρ) (items : List (Text × Bool))

/-- What is under a name in one of the directories. -/
def content (s : Dirs ρ γ) (r : ρ) (name : Text) : Option γ := (s r).bind fun d => d.lookup name

/-- The archive names the item up to case. -/
def Named (r : ρ) (name : Text) : Prop :=
  ∃ item ∈ items, root item.2 = r ∧ C.fold item.1 = C.fold name

/-- The old name of an item, or one that the archive has for it. -/
def Home (r : ρ) (name name' : Text) : Prop :=
  name' = name ∨ ∃ item ∈ items, root item.2 = r ∧ item.1 = name' ∧ C.fold item.1 = C.fold name

/-- Two names of a directory that are the same up to case are the same. -/
def UniqueUpToCase (s : Dirs ρ γ) : Prop :=
  ∀ r name name', content s r name ≠ none → content s r name' ≠ none →
    C.fold name = C.fold name' → name = name'

/-- Each item that the archive names is under its old name or the archive's, or gets the archive's
with the next install of it that completes; all else is as before. -/
structure CaseSafe (s s' : Dirs ρ γ) : Prop where
  named : ∀ r name x, content s r name = some x → Named C root items r name →
    (∃ name', content s' r name' = some x ∧ Home C root items r name name') ∨
      ∀ pid works, (normalizeItems C root pid items works s').1 = .finished →
        ∃ item ∈ items, root item.2 = r ∧ C.fold item.1 = C.fold name ∧
          content (normalizeItems C root pid items works s').2.2 r item.1 = some x
  others : ∀ r name, ¬Named C root items r name → content s' r name = content s r name

/-- The fix of an item is left behind its first rename: nothing more is done there, or the second
rename fails and nothing more is done, or the rename back fails too. -/
def leavesBehind : List Bool → Bool
  | [true] | [true, false] | true :: false :: false :: _ => true
  | _ => false

/-- An install is left while an item has its temporary name. -/
def strands : List (Text × Bool) → List Bool → Dirs ρ γ → Bool
  | [], _, _ => false
  | (name, script) :: items, works, s =>
    match s (root script) with
    | none => strands items works s
    | some d =>
      match conflict C d name, works with
      | none, _ => strands items works s
      | some current, true :: true :: works =>
        strands items works (Function.update s (root script) (some (d.rename current name)))
      | some _, works => leavesBehind works

end Statement

section Renames

variable {γ ρ : Type} [DecidableEq ρ] {C : Casefold} {d : Dir γ} {src dst temp name : Text} {x : γ}

theorem lookup_ne_none_iff : d.lookup name ≠ none ↔ name ∈ d.keys := by
  rw [Ne, AList.lookup_eq_none, not_not, AList.mem_keys]

theorem exists_lookup (h : name ∈ d.keys) : ∃ x, d.lookup name = some x :=
  Option.ne_none_iff_exists'.mp (lookup_ne_none_iff.mpr h)

theorem rename_eq (h : d.lookup src = some x) : d.rename src dst = (d.erase src).insert dst x := by
  rw [Dir.rename, h]

theorem lookup_rename (h : d.lookup src = some x) (dst name : Text) :
    (d.rename src dst).lookup name =
      if name = dst then some x else if name = src then none else d.lookup name := by
  rw [rename_eq h]
  by_cases hdst : name = dst
  · rw [if_pos hdst, hdst, AList.lookup_insert]
  · rw [if_neg hdst, AList.lookup_insert_ne hdst]
    by_cases hsrc : name = src
    · rw [if_pos hsrc, hsrc, AList.lookup_erase]
    · rw [if_neg hsrc, AList.lookup_erase_ne hsrc]

theorem erase_insert (h : temp ∉ d.keys) (x : γ) : (d.insert temp x).erase temp = d := by
  apply AList.ext
  rw [AList.insert_of_notMem h]
  exact List.kerase_cons_eq rfl

theorem rename_rename (h : d.lookup src = some x) (htemp : temp ∉ d.keys) (dst : Text) :
    (d.rename src temp).rename temp dst = d.rename src dst := by
  have hmoved : (d.rename src temp).lookup temp = some x := by
    rw [lookup_rename h, if_pos rfl]
  have hfree : temp ∉ (d.erase src).keys := by
    rw [← AList.mem_keys, AList.mem_erase]
    exact fun hin => htemp (AList.mem_keys.mp hin.2)
  rw [rename_eq hmoved, rename_eq h, rename_eq h, erase_insert hfree]

theorem canonicalize_cases (pid : ℕ) (expected : Text) (works : List Bool) (d : Dir γ) :
    conflict C d expected = none ∧ canonicalize C pid expected works d = (.finished, works, d) ∨
    ∃ current x, conflict C d expected = some current ∧ d.lookup current = some x ∧
      ((∃ rest, works = true :: true :: rest ∧
          canonicalize C pid expected works d = (.finished, rest, d.rename current expected)) ∨
        (∀ rest, works ≠ true :: true :: rest) ∧
          (canonicalize C pid expected works d).1 ≠ .finished ∧
          if leavesBehind works = true then
            (canonicalize C pid expected works d).2.2 =
              d.rename current (temporary d pid expected)
          else ∀ name, (canonicalize C pid expected works d).2.2.lookup name = d.lookup name) := by
  unfold canonicalize
  cases hconflict : conflict C d expected with
  | none => exact Or.inl ⟨rfl, rfl⟩
  | some current =>
    obtain ⟨-, hin, -⟩ := conflict_spec hconflict
    obtain ⟨x, hx⟩ := exists_lookup hin
    have htemp := temporary_free d pid expected
    refine Or.inr ⟨current, x, rfl, hx, ?_⟩
    match works with
    | [] => exact Or.inr ⟨by simp, by simp, by simp [leavesBehind]⟩
    | false :: works => exact Or.inr ⟨by simp, by simp, by simp [leavesBehind]⟩
    | [true] => exact Or.inr ⟨by simp, by simp, by simp [leavesBehind]⟩
    | true :: true :: works =>
      refine Or.inl ⟨works, rfl, ?_⟩
      dsimp only
      rw [rename_rename hx htemp]
    | [true, false] => exact Or.inr ⟨by simp, by simp, by simp [leavesBehind]⟩
    | true :: false :: true :: works =>
      refine Or.inr ⟨by simp, by simp, ?_⟩
      have hback : leavesBehind (true :: false :: true :: works) = false := rfl
      rw [hback, if_neg Bool.false_ne_true]
      intro name
      dsimp only
      rw [rename_rename hx htemp, lookup_rename hx]
      by_cases hname : name = current
      · rw [if_pos hname, hname, hx]
      · rw [if_neg hname, if_neg hname]
    | true :: false :: false :: works =>
      exact Or.inr ⟨by simp, by simp, by simp [leavesBehind]⟩

end Renames

section Runs

variable {γ ρ : Type} {C : Casefold} {root : Bool → ρ} {items rest : List (Text × Bool)}
  {s₀ s s' : Dirs ρ γ} {r : ρ}

/-- What whole fixes of items make of the directories. -/
structure Fixed (C : Casefold) (root : Bool → ρ) (items : List (Text × Bool))
    (s₀ s : Dirs ρ γ) : Prop where
  unique : UniqueUpToCase C s
  there : ∀ r name x, content s₀ r name = some x →
    ∃ name', content s r name' = some x ∧ Home C root items r name name'
  back : ∀ r name' x, content s r name' = some x →
    ∃ name, content s₀ r name = some x ∧ C.fold name = C.fold name'
  others : ∀ r name, ¬Named C root items r name → content s r name = content s₀ r name

theorem Fixed.refl (h : UniqueUpToCase C s) : Fixed C root items s s where
  unique := h
  there := fun _ name _ hx => ⟨name, hx, Or.inl rfl⟩
  back := fun _ name' _ hx => ⟨name', hx, rfl⟩
  others := fun _ _ _ => rfl

theorem Fixed.congr (h : Fixed C root items s₀ s)
    (hsame : ∀ r name, content s' r name = content s r name) : Fixed C root items s₀ s' where
  unique := by
    intro r name name' hname hname'
    rw [hsame] at hname hname'
    exact h.unique r name name' hname hname'
  there := by
    intro r name x hx
    obtain ⟨name', hx', hhome⟩ := h.there r name x hx
    exact ⟨name', by rw [hsame, hx'], hhome⟩
  back := by
    intro r name' x hx
    rw [hsame] at hx
    exact h.back r name' x hx
  others := fun r name hname => by rw [hsame, h.others r name hname]

theorem fold_home {name name' : Text} (h : Home C root items r name name') :
    C.fold name' = C.fold name := by
  rcases h with rfl | ⟨item, -, -, rfl, hfold⟩
  · rfl
  · exact hfold

variable [DecidableEq ρ]

theorem content_update (s : Dirs ρ γ) (r : ρ) (d : Dir γ) (r' : ρ) (name : Text) :
    content (Function.update s r (some d)) r' name =
      if r' = r then d.lookup name else content s r' name := by
  unfold content
  by_cases hr : r' = r
  · rw [if_pos hr, hr, Function.update_self]
    rfl
  · rw [if_neg hr, Function.update_of_ne hr]

theorem Fixed.rename {item : Text × Bool} (h : Fixed C root items s₀ s) (hitem : item ∈ items)
    {d : Dir γ} (hd : s (root item.2) = some d) {current : Text} {x : γ}
    (hconflict : conflict C d item.1 = some current) (hx : d.lookup current = some x) :
    Fixed C root items s₀
      (Function.update s (root item.2) (some (d.rename current item.1))) := by
  obtain ⟨hfree, -, hfold⟩ := conflict_spec hconflict
  have hcontent : ∀ name, content s (root item.2) name = d.lookup name := by
    intro name
    rw [content, hd]
    rfl
  have hnew : ∀ r name, content
      (Function.update s (root item.2) (some (d.rename current item.1))) r name =
      if r = root item.2 then
        if name = item.1 then some x else if name = current then none else content s r name
      else content s r name := by
    intro r name
    rw [content_update]
    by_cases hr : r = root item.2
    · rw [if_pos hr, if_pos hr, lookup_rename hx, hr, hcontent]
    · rw [if_neg hr, if_neg hr]
  have hold : content s (root item.2) current = some x := by rw [hcontent, hx]
  -- a name that is taken behind the rename stands for one that was taken in front of it
  have hwas : ∀ r name y, content
      (Function.update s (root item.2) (some (d.rename current item.1))) r name = some y →
      ∃ was, content s r was = some y ∧ C.fold was = C.fold name ∧
        name = if r = root item.2 ∧ was = current then item.1 else was := by
    intro r name y hy
    rw [hnew] at hy
    by_cases hr : r = root item.2
    · rw [if_pos hr] at hy
      by_cases hname : name = item.1
      · rw [if_pos hname] at hy
        cases hy
        exact ⟨current, by rw [hr, hold], by rw [hname, hfold], by rw [if_pos ⟨hr, rfl⟩, hname]⟩
      · rw [if_neg hname] at hy
        by_cases hcurrent : name = current
        · rw [if_pos hcurrent] at hy
          cases hy
        · rw [if_neg hcurrent] at hy
          exact ⟨name, hy, rfl, by rw [if_neg fun h => hcurrent h.2]⟩
    · rw [if_neg hr] at hy
      exact ⟨name, hy, rfl, by rw [if_neg fun h => hr h.1]⟩
  constructor
  · intro r name name' hname hname' heq
    obtain ⟨y, hy⟩ := Option.ne_none_iff_exists'.mp hname
    obtain ⟨y', hy'⟩ := Option.ne_none_iff_exists'.mp hname'
    obtain ⟨was, hin, hwasfold, hbecomes⟩ := hwas r name y hy
    obtain ⟨was', hin', hwasfold', hbecomes'⟩ := hwas r name' y' hy'
    have hsame : was = was' := h.unique r was was' (by rw [hin]; simp) (by rw [hin']; simp)
      (by rw [hwasfold, hwasfold', heq])
    rw [hbecomes, hbecomes', hsame]
  · intro r name y hy
    obtain ⟨name', hname', hhome⟩ := h.there r name y hy
    by_cases hmoved : r = root item.2 ∧ name' = current
    · obtain ⟨rfl, rfl⟩ := hmoved
      rw [hold] at hname'
      cases hname'
      refine ⟨item.1, by rw [hnew, if_pos rfl, if_pos rfl], Or.inr ⟨item, hitem, rfl, rfl, ?_⟩⟩
      rw [← hfold, fold_home hhome]
    · refine ⟨name', ?_, hhome⟩
      rw [hnew]
      by_cases hr : r = root item.2
      · have hfree' : name' ≠ item.1 := by
          rintro rfl
          rw [hr, hcontent, AList.lookup_eq_none.mpr (fun hin => hfree (AList.mem_keys.mp hin))]
            at hname'
          cases hname'
        rw [if_pos hr, if_neg hfree', if_neg fun heq => hmoved ⟨hr, heq⟩, hname']
      · rw [if_neg hr, hname']
  · intro r name' y hy
    obtain ⟨was, hin, hwasfold, -⟩ := hwas r name' y hy
    obtain ⟨name, hname, hfold'⟩ := h.back r was y hin
    exact ⟨name, hname, hfold'.trans hwasfold⟩
  · intro r name hname
    rw [← h.others r name hname, hnew]
    by_cases hr : r = root item.2
    · have hitemname : name ≠ item.1 := by
        rintro rfl
        exact hname ⟨item, hitem, hr.symm, rfl⟩
      have hcurrent : name ≠ current := by
        rintro rfl
        exact hname ⟨item, hitem, hr.symm, hfold.symm⟩
      rw [if_pos hr, if_neg hitemname, if_neg hcurrent]
    · rw [if_neg hr]

theorem update_eq {d : Dir γ} (h : s r = some d) : Function.update s r (some d) = s := by
  rw [← h, Function.update_eq_self]

theorem fixed_install (pid : ℕ) (works : List Bool) (hrest : rest ⊆ items)
    (h : Fixed C root items s₀ s) (hstrands : strands C root rest works s = false) :
    Fixed C root items s₀ (normalizeItems C root pid rest works s).2.2 := by
  induction rest generalizing works s with
  | nil => exact h
  | cons item rest ih =>
    obtain ⟨name, script⟩ := item
    have htail : rest ⊆ items := fun a ha => hrest (List.mem_cons_of_mem _ ha)
    rw [normalizeItems]
    rw [strands] at hstrands
    cases hd : s (root script) with
    | none =>
      rw [hd] at hstrands
      exact ih works htail h hstrands
    | some d =>
      rw [hd] at hstrands
      dsimp only at hstrands ⊢
      rcases canonicalize_cases (C := C) pid name works d with ⟨hnone, heq⟩ |
        ⟨current, x, hconflict, hx, hcase⟩
      · rw [hnone] at hstrands
        rw [heq, if_pos rfl, update_eq hd]
        exact ih works htail h hstrands
      · rw [hconflict] at hstrands
        rcases hcase with ⟨more, rfl, heq⟩ | ⟨hworks, hend, hleft⟩
        · rw [heq, if_pos rfl]
          refine ih more htail ?_ hstrands
          have hitem : (name, script) ∈ items := hrest List.mem_cons_self
          exact h.rename hitem hd hconflict hx
        · have hbehind : leavesBehind works = false := by
            split at hstrands
            · rename_i heq
              cases heq
            · exact absurd rfl (hworks _)
            · exact hstrands
          rw [hbehind, if_neg Bool.false_ne_true] at hleft
          rw [if_neg hend]
          refine h.congr fun r' n => ?_
          rw [content_update]
          by_cases hr : r' = root script
          · rw [if_pos hr, hleft, hr, content, hd]
            rfl
          · rw [if_neg hr]

theorem stranded_install (pid : ℕ) (works : List Bool) (hrest : rest ⊆ items)
    (h : Fixed C root items s₀ s) (hstrands : strands C root rest works s = true) :
    ∃ r name x, content s₀ r name = some x ∧ Named C root items r name ∧
      ∀ name', C.fold name' = C.fold name →
        content (normalizeItems C root pid rest works s).2.2 r name' = none := by
  induction rest generalizing works s with
  | nil => cases hstrands
  | cons item rest ih =>
    obtain ⟨name, script⟩ := item
    have htail : rest ⊆ items := fun a ha => hrest (List.mem_cons_of_mem _ ha)
    have hitem : (name, script) ∈ items := hrest List.mem_cons_self
    rw [normalizeItems]
    rw [strands] at hstrands
    cases hd : s (root script) with
    | none =>
      rw [hd] at hstrands
      exact ih works htail h hstrands
    | some d =>
      rw [hd] at hstrands
      dsimp only at hstrands ⊢
      rcases canonicalize_cases (C := C) pid name works d with ⟨hnone, heq⟩ |
        ⟨current, x, hconflict, hx, hcase⟩
      · rw [hnone] at hstrands
        rw [heq, if_pos rfl, update_eq hd]
        exact ih works htail h hstrands
      · rw [hconflict] at hstrands
        rcases hcase with ⟨more, rfl, heq⟩ | ⟨hworks, hend, hleft⟩
        · rw [heq, if_pos rfl]
          exact ih more htail (h.rename hitem hd hconflict hx) hstrands
        · have hbehind : leavesBehind works = true := by
            split at hstrands
            · rename_i heq
              cases heq
            · exact absurd rfl (hworks _)
            · exact hstrands
          rw [hbehind, if_pos rfl] at hleft
          rw [if_neg hend, hleft]
          obtain ⟨-, -, hfold⟩ := conflict_spec hconflict
          have hcontent : ∀ n, content s (root script) n = d.lookup n := by
            intro n
            rw [content, hd]
            rfl
          have hold : content s (root script) current = some x := by rw [hcontent, hx]
          obtain ⟨name₀, hname₀, hfold₀⟩ := h.back (root script) current x hold
          refine ⟨root script, name₀, x, hname₀, ⟨_, hitem, rfl, (hfold₀.trans hfold).symm⟩, ?_⟩
          intro name' hname'
          rw [content_update, if_pos rfl, lookup_rename hx]
          have htemp : name' ≠ temporary d pid name := by
            rintro rfl
            exact fold_temporaryName pid name _ (hname'.trans (hfold₀.trans hfold))
          rw [if_neg htemp]
          by_cases hcurrent : name' = current
          · rw [if_pos hcurrent]
          · rw [if_neg hcurrent, ← hcontent]
            by_contra hthere
            exact hcurrent (h.unique (root script) name' current hthere (by rw [hold]; simp)
              (hname'.trans hfold₀))

theorem finished_install (pid : ℕ) (works : List Bool) {name : Text}
    (hfinished : (normalizeItems C root pid rest works s).1 = .finished)
    (h : ∀ name', C.fold name' = C.fold name → content s r name' = none) :
    ∀ name', C.fold name' = C.fold name →
      content (normalizeItems C root pid rest works s).2.2 r name' = none := by
  induction rest generalizing works s with
  | nil => exact h
  | cons item rest ih =>
    obtain ⟨expected, script⟩ := item
    rw [normalizeItems] at hfinished ⊢
    cases hd : s (root script) with
    | none =>
      rw [hd] at hfinished
      exact ih works hfinished h
    | some d =>
      rw [hd] at hfinished
      dsimp only at hfinished ⊢
      rcases canonicalize_cases (C := C) pid expected works d with ⟨-, heq⟩ |
        ⟨current, x, hconflict, hx, hcase⟩
      · rw [heq, if_pos rfl, update_eq hd] at hfinished ⊢
        exact ih works hfinished h
      · rcases hcase with ⟨more, rfl, heq⟩ | ⟨-, hend, -⟩
        · rw [heq, if_pos rfl] at hfinished ⊢
          refine ih more hfinished fun name' hname' => ?_
          have hnone := h name' hname'
          obtain ⟨-, hin, hfold⟩ := conflict_spec hconflict
          rw [content_update]
          by_cases hr : r = root script
          · rw [if_pos hr, lookup_rename hx]
            have hcurrent : C.fold current ≠ C.fold name := by
              intro hsame
              have hfree := h current hsame
              rw [hr, content, hd, Option.bind_some, hx] at hfree
              cases hfree
            have hexpected : name' ≠ expected := by
              rintro rfl
              exact hcurrent (hfold.trans hname')
            have hother : name' ≠ current := by
              rintro rfl
              exact hcurrent hname'
            rw [if_neg hexpected, if_neg hother]
            rw [hr, content, hd] at hnone
            exact hnone
          · rw [if_neg hr]
            exact hnone
        · rw [if_neg hend] at hfinished
          exact absurd hfinished hend

theorem exists_finished (C : Casefold) (root : Bool → ρ) (pid : ℕ) (rest : List (Text × Bool))
    (s : Dirs ρ γ) : ∃ works, (normalizeItems C root pid rest works s).1 = .finished := by
  induction rest generalizing s with
  | nil => exact ⟨[], rfl⟩
  | cons item rest ih =>
    obtain ⟨expected, script⟩ := item
    cases hd : s (root script) with
    | none =>
      obtain ⟨works, hfinished⟩ := ih s
      refine ⟨works, ?_⟩
      rw [normalizeItems, hd]
      exact hfinished
    | some d =>
      cases hconflict : conflict C d expected with
      | none =>
        obtain ⟨works, hfinished⟩ := ih s
        refine ⟨works, ?_⟩
        rcases canonicalize_cases (C := C) pid expected works d with ⟨-, heq⟩ |
          ⟨current, x, hsome, -⟩
        · rw [normalizeItems, hd]
          dsimp only
          rw [heq, if_pos rfl, update_eq hd]
          exact hfinished
        · rw [hconflict] at hsome
          cases hsome
      | some current =>
        obtain ⟨works, hfinished⟩ :=
          ih (Function.update s (root script) (some (d.rename current expected)))
        refine ⟨true :: true :: works, ?_⟩
        rcases canonicalize_cases (C := C) pid expected (true :: true :: works) d with
          ⟨hnone, -⟩ | ⟨current', x, hsome, -, hcase⟩
        · rw [hconflict] at hnone
          cases hnone
        · rw [hconflict] at hsome
          cases hsome
          rcases hcase with ⟨more, hworks, heq⟩ | ⟨hworks, -⟩
          · obtain ⟨rfl⟩ : works = more := (List.cons.inj (List.cons.inj hworks).2).2
            rw [normalizeItems, hd]
            dsimp only
            rw [heq, if_pos rfl]
            exact hfinished
          · exact absurd rfl (hworks works)

theorem caseSafe_iff_strands (pid : ℕ) (works : List Bool) (h : UniqueUpToCase C s) :
    CaseSafe C root items s (normalizeItems C root pid items works s).2.2 ↔
      strands C root items works s = false := by
  constructor
  · intro hsafe
    by_contra hstrands
    rw [Bool.not_eq_false] at hstrands
    obtain ⟨r, name, x, hx, hnamed, hnone⟩ :=
      stranded_install pid works (List.Subset.refl _) (Fixed.refl h) hstrands
    rcases hsafe.named r name x hx hnamed with ⟨name', hx', hhome⟩ | hnext
    · rw [hnone name' (fold_home hhome)] at hx'
      cases hx'
    · obtain ⟨again, hfinished⟩ := exists_finished C root pid items
        (normalizeItems C root pid items works s).2.2
      obtain ⟨item, -, -, hfold, hin⟩ := hnext pid again hfinished
      rw [finished_install pid again hfinished hnone item.1 hfold] at hin
      cases hin
  · intro hstrands
    have hstart : Fixed C root items s s := Fixed.refl h
    have hfixed := fixed_install pid works (List.Subset.refl _) hstart hstrands
    exact ⟨fun r name x hx _ => Or.inl (hfixed.there r name x hx), hfixed.others⟩

end Runs

end PlumosBubble.PortMaster
