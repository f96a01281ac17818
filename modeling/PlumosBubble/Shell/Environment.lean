import PlumosBubble.Frontend.CString

/-! Environments as `execve` takes them: a list of entries `NAME=value`, of which a lookup
reads the first with its name. Some of the variables can be given a single new entry. -/

namespace PlumosBubble.Shell

open Frontend

def equals : UInt8 := 0x3d

/-- The entry `name=value`. -/
def joinAssignment (name value : CString) : CString := name ++ [equals] ++ value

/-- What an entry gives the variable `name`, if it is an entry of that variable. -/
def assigned (name entry : CString) : Option CString := afterStart (name ++ [equals]) entry

/-- The value of a variable: that of the first entry with its name. -/
def valueIn (entries : List CString) (name : CString) : Option CString :=
  entries.findSome? (assigned name)

/-- The entry belongs to one of the variables in `names`. -/
def belongs (names : List CString) (entry : CString) : Bool :=
  names.any fun name => (assigned name entry).isSome

/-- The variables of `fresh` get one entry each, behind the entries of the others. -/
def reassigned (fresh : List (CString × CString)) (entries : List CString) : List CString :=
  entries.filter (fun entry => !belongs (fresh.map Prod.fst) entry) ++
    fresh.map fun binding => joinAssignment binding.1 binding.2

theorem assigned_eq_some {name entry value : CString} :
    assigned name entry = some value ↔ entry = joinAssignment name value := by
  unfold assigned afterStart joinAssignment
  split_ifs with h
  · obtain ⟨rest, rfl⟩ := h
    simp [eq_comm]
  · simp only [false_iff]
    rintro rfl
    exact h (List.prefix_append _ _)

@[simp] theorem assigned_joinAssignment (name value : CString) :
    assigned name (joinAssignment name value) = some value :=
  assigned_eq_some.mpr rfl

theorem assignment_inj {name name' value value' : CString} (hname : equals ∉ name)
    (hname' : equals ∉ name') (h : joinAssignment name value = joinAssignment name' value') :
    name = name' ∧ value = value' := by
  induction name generalizing name' with
  | nil =>
    cases name' with
    | nil => exact ⟨rfl, by simpa [joinAssignment] using h⟩
    | cons c name' =>
      simp only [joinAssignment, List.nil_append, List.cons_append, List.cons.injEq] at h
      exact absurd (h.1 ▸ List.mem_cons_self) hname'
  | cons c name ih =>
    cases name' with
    | nil =>
      simp only [joinAssignment, List.nil_append, List.cons_append, List.cons.injEq] at h
      exact absurd (h.1 ▸ List.mem_cons_self) hname
    | cons c' name' =>
      simp only [joinAssignment, List.cons_append, List.cons.injEq] at h
      have hrest := ih (fun hmem => hname (List.mem_cons_of_mem _ hmem))
        (fun hmem => hname' (List.mem_cons_of_mem _ hmem)) h.2
      exact ⟨by rw [h.1, hrest.1], hrest.2⟩

theorem assigned_other {name name' : CString} (hname : equals ∉ name) (hname' : equals ∉ name')
    (hne : name ≠ name') (value : CString) : assigned name (joinAssignment name' value) = none := by
  cases h : assigned name (joinAssignment name' value) with
  | none => rfl
  | some found =>
    have heq := assigned_eq_some.mp h
    exact absurd (assignment_inj hname' hname heq).1.symm hne

@[simp] theorem not_belongs {names : List CString} {entry : CString} :
    (!belongs names entry) = true ↔ ∀ name ∈ names, assigned name entry = none := by
  simp [belongs]

section Reassigned

variable {fresh : List (CString × CString)} {entries : List CString}
  {name value : CString}

theorem findSome_reassigned (fresh : List (CString × CString)) (entries : List CString) :
    valueIn (reassigned fresh entries) name =
      (valueIn (entries.filter fun entry => !belongs (fresh.map Prod.fst) entry) name).or
        (valueIn (fresh.map fun binding => joinAssignment binding.1 binding.2) name) :=
  List.findSome?_append

theorem valueIn_filter_mem (hname : name ∈ fresh.map Prod.fst) :
    valueIn (entries.filter fun entry => !belongs (fresh.map Prod.fst) entry) name = none := by
  rw [valueIn, List.findSome?_eq_none_iff]
  intro entry hentry
  have hnot := (List.mem_filter.mp hentry).2
  exact not_belongs.mp hnot name hname

theorem valueIn_reassigned_mem (hfree : ∀ name ∈ fresh.map Prod.fst, equals ∉ name)
    (hnodup : (fresh.map Prod.fst).Nodup) (hmem : (name, value) ∈ fresh) :
    valueIn (reassigned fresh entries) name = some value := by
  have hname : name ∈ fresh.map Prod.fst := List.mem_map_of_mem hmem
  rw [findSome_reassigned, valueIn_filter_mem hname, Option.none_or]
  clear hname
  induction fresh with
  | nil => simp at hmem
  | cons first fresh ih =>
    rw [List.map_cons, List.nodup_cons] at hnodup
    simp only [valueIn, List.map_cons, List.findSome?_cons]
    rcases List.mem_cons.mp hmem with rfl | hmem
    · rw [assigned_joinAssignment]
    · have hname : name ∈ fresh.map Prod.fst := List.mem_map_of_mem hmem
      have hne : name ≠ first.1 := fun heq => hnodup.1 (heq ▸ hname)
      rw [assigned_other (hfree name (List.mem_cons_of_mem _ hname))
        (hfree first.1 List.mem_cons_self) hne]
      exact ih (fun n hn => hfree n (List.mem_cons_of_mem _ hn)) hnodup.2 hmem

theorem valueIn_reassigned_other (hfree : ∀ name ∈ fresh.map Prod.fst, equals ∉ name)
    (hname : equals ∉ name) (hnot : name ∉ fresh.map Prod.fst) :
    valueIn (reassigned fresh entries) name = valueIn entries name := by
  have hnew : valueIn (fresh.map fun binding => joinAssignment binding.1 binding.2) name =
      none := by
    rw [valueIn, List.findSome?_eq_none_iff]
    intro entry hentry
    obtain ⟨v, hv, rfl⟩ := List.mem_map.mp hentry
    have hmem : v.1 ∈ fresh.map Prod.fst := List.mem_map_of_mem hv
    exact assigned_other hname (hfree _ hmem) (fun heq => hnot (heq ▸ hmem)) _
  rw [findSome_reassigned, hnew, Option.or_none]
  induction entries with
  | nil => rfl
  | cons entry entries ih =>
    rw [List.filter_cons]
    split_ifs with hkept
    · simp only [valueIn, List.findSome?_cons] at ih ⊢
      rw [ih]
    · have hother : assigned name entry = none := by
        cases hfound : assigned name entry with
        | none => rfl
        | some found =>
          rw [assigned_eq_some.mp hfound, not_belongs] at hkept
          exact absurd (fun n hn => assigned_other (hfree n hn) hname
            (fun heq => hnot (heq ▸ hn)) found) hkept
      rw [ih, valueIn, valueIn, List.findSome?_cons, hother]

theorem filter_reassigned :
    (reassigned fresh entries).filter (fun entry => !belongs (fresh.map Prod.fst) entry) =
      entries.filter fun entry => !belongs (fresh.map Prod.fst) entry := by
  have hnew : (fresh.map fun binding => joinAssignment binding.1 binding.2).filter
      (fun entry => !belongs (fresh.map Prod.fst) entry) = [] := by
    rw [List.filter_eq_nil_iff]
    intro entry hentry hnot
    obtain ⟨v, hv, rfl⟩ := List.mem_map.mp hentry
    have hnone := not_belongs.mp hnot v.1 (List.mem_map_of_mem hv)
    rw [assigned_joinAssignment] at hnone
    cases hnone
  rw [reassigned, List.filter_append, hnew, List.append_nil, List.filter_filter]
  simp

theorem entries_reassigned_mem (hfree : ∀ name ∈ fresh.map Prod.fst, equals ∉ name)
    (hnodup : (fresh.map Prod.fst).Nodup) (hmem : (name, value) ∈ fresh) :
    (reassigned fresh entries).filter (fun entry => (assigned name entry).isSome) =
      [joinAssignment name value] := by
  have hname : name ∈ fresh.map Prod.fst := List.mem_map_of_mem hmem
  have hold : (entries.filter fun entry => !belongs (fresh.map Prod.fst) entry).filter
      (fun entry => (assigned name entry).isSome) = [] := by
    rw [List.filter_eq_nil_iff]
    intro entry hentry
    rw [not_belongs.mp (List.mem_filter.mp hentry).2 name hname]
    simp
  rw [reassigned, List.filter_append, hold, List.nil_append]
  clear hold hname
  induction fresh with
  | nil => simp at hmem
  | cons first fresh ih =>
    rw [List.map_cons, List.nodup_cons] at hnodup
    rw [List.map_cons, List.filter_cons]
    have hrest : ∀ n ∈ fresh.map Prod.fst, equals ∉ n :=
      fun n hn => hfree n (List.mem_cons_of_mem _ hn)
    rcases List.mem_cons.mp hmem with rfl | hmem
    · rw [if_pos (by simp)]
      have hothers : (fresh.map fun binding => joinAssignment binding.1 binding.2).filter
          (fun entry => (assigned name entry).isSome) = [] := by
        rw [List.filter_eq_nil_iff]
        intro entry hentry
        obtain ⟨v, hv, rfl⟩ := List.mem_map.mp hentry
        have hv' : v.1 ∈ fresh.map Prod.fst := List.mem_map_of_mem hv
        rw [assigned_other (hfree name List.mem_cons_self) (hrest _ hv')
          fun heq => hnodup.1 (heq ▸ hv')]
        simp
      rw [hothers]
    · have hname : name ∈ fresh.map Prod.fst := List.mem_map_of_mem hmem
      have hne : name ≠ first.1 := fun heq => hnodup.1 (heq ▸ hname)
      rw [assigned_other (hrest name hname) (hfree first.1 List.mem_cons_self) hne,
        if_neg (by simp)]
      exact ih hrest hnodup.2 hmem

end Reassigned

end PlumosBubble.Shell
