import Mathlib.Data.Nat.Notation
import Mathlib.Logic.Function.Basic

/-! `plumos-cpu-control`: the snapshot of the governors of all policies, the check and the writes
of `apply`, and `restore`. Reads and writes of `scaling_governor` succeed. -/

namespace PlumosBubble.Cpufreq

variable {N G : Type} [DecidableEq N] [DecidableEq G]

/-- The policy directories, and by policy the governors in `scaling_available_governors`; none
where the list cannot be read. -/
structure Cpus (N G : Type) where
  policies : List N
  listed : N → List G

namespace Cpus

variable (cpus : Cpus N G)

def governorAvailable (policy : N) (governor : G) : Bool :=
  decide (governor ∈ cpus.listed policy)

def validateGovernorForAll (governor : G) : Bool :=
  !cpus.policies.isEmpty && cpus.policies.all fun policy => cpus.governorAvailable policy governor

/-- The lines of a snapshot, written one after another. -/
def writeLines (target : List (N × G)) (now : N → G) : N → G :=
  target.foldl (fun now line => Function.update now line.1 line.2) now

def applyGovernor (governor : G) (now : N → G) : Option (N → G) :=
  if cpus.validateGovernorForAll governor then
    some (writeLines (cpus.policies.map fun policy => (policy, governor)) now)
  else none

/-- What `snapshot` reads. -/
def lines (now : N → G) : List (N × G) := cpus.policies.map fun policy => (policy, now policy)

def snapshot (now : N → G) : Option (List (N × G)) :=
  if cpus.policies.isEmpty then none else some (cpus.lines now)

/-- A line of a snapshot names a policy and a governor that it has. -/
def validLine (line : N × G) : Bool :=
  decide (line.1 ∈ cpus.policies) && cpus.governorAvailable line.1 line.2

def restore (target : List (N × G)) (now : N → G) : Option (N → G) :=
  if target.all cpus.validLine then some (writeLines target now) else none

/-- Every policy has the same governor in both. -/
def Agree (now now' : N → G) : Prop := ∀ policy ∈ cpus.policies, now policy = now' policy

/-- No list leaves out the governor in use. -/
def Listed (now : N → G) : Prop :=
  ∀ policy ∈ cpus.policies, cpus.listed policy ≠ [] → now policy ∈ cpus.listed policy

/-- Every list can be read. -/
def Readable : Prop := ∀ policy ∈ cpus.policies, cpus.listed policy ≠ []

end Cpus

open Cpus

section Writes

variable {cpus : Cpus N G} {now now' before : N → G}

omit [DecidableEq G] in
theorem writeLines_map (policies : List N) (f now : N → G) (policy : N) :
    writeLines (policies.map fun policy => (policy, f policy)) now policy =
      if policy ∈ policies then f policy else now policy := by
  induction policies generalizing now with
  | nil => rfl
  | cons first rest ih =>
    have hcons : writeLines ((first :: rest).map fun policy => (policy, f policy)) now =
        writeLines (rest.map fun policy => (policy, f policy))
          (Function.update now first (f first)) := rfl
    rw [hcons, ih]
    by_cases hrest : policy ∈ rest
    · rw [if_pos hrest, if_pos (List.mem_cons_of_mem first hrest)]
    · rw [if_neg hrest]
      by_cases hfirst : policy = first
      · subst hfirst
        rw [Function.update_self, if_pos List.mem_cons_self]
      · rw [Function.update_of_ne hfirst, if_neg]
        rw [List.mem_cons, not_or]
        exact ⟨hfirst, hrest⟩

theorem applyGovernor_eq {governor : G} (h : cpus.applyGovernor governor now = some now') :
    cpus.Readable ∧ cpus.Listed now' := by
  unfold applyGovernor at h
  split at h
  · rename_i hvalid
    cases h
    have hall : ∀ policy ∈ cpus.policies, governor ∈ cpus.listed policy := by
      intro policy hpolicy
      have hboth := (Bool.and_eq_true _ _).mp hvalid
      exact of_decide_eq_true (List.all_eq_true.mp hboth.2 policy hpolicy)
    refine ⟨fun policy hpolicy => List.ne_nil_of_mem (hall policy hpolicy), ?_⟩
    intro policy hpolicy _
    rw [writeLines_map, if_pos hpolicy]
    exact hall policy hpolicy
  · cases h

omit [DecidableEq N] [DecidableEq G] in
theorem snapshot_eq {target : List (N × G)} (h : cpus.snapshot now = some target) :
    target = cpus.lines now := by
  unfold snapshot at h
  split at h
  · cases h
  · exact (Option.some.inj h).symm

omit [DecidableEq N] [DecidableEq G] in
theorem agree_trans {f g h : N → G} (hfg : cpus.Agree f g) (hgh : cpus.Agree g h) :
    cpus.Agree f h :=
  fun policy hpolicy => (hfg policy hpolicy).trans (hgh policy hpolicy)

theorem restore_eq {target : List (N × G)} (h : cpus.restore target now = some now')
    (htarget : target = cpus.lines before) (hlisted : cpus.Listed before) :
    cpus.Agree now' before ∧ cpus.Listed now' := by
  unfold restore at h
  split at h
  · cases h
    have hagree : cpus.Agree (writeLines target now) before := by
      intro policy hpolicy
      rw [htarget, lines, writeLines_map, if_pos hpolicy]
    refine ⟨hagree, fun policy hpolicy hread => ?_⟩
    rw [hagree policy hpolicy]
    exact hlisted policy hpolicy hread
  · cases h

theorem restore_lines (now : N → G) (hread : cpus.Readable) (hlisted : cpus.Listed before) :
    ∃ now', cpus.restore (cpus.lines before) now = some now' := by
  have hall : (cpus.lines before).all cpus.validLine = true := by
    rw [List.all_eq_true]
    intro line hline
    obtain ⟨policy, hpolicy, rfl⟩ := List.mem_map.mp hline
    rw [validLine, Bool.and_eq_true]
    exact ⟨decide_eq_true hpolicy, decide_eq_true (hlisted policy hpolicy (hread policy hpolicy))⟩
  exact ⟨_, if_pos hall⟩

end Writes

end PlumosBubble.Cpufreq
