import PlumosBubble.Shell.Environment

/-! `plumos_portmaster_exec_guard.c`, the library that PortMaster's processes are started
with. It stands before `exec` and `posix_spawn` and sees to it that a child's environment
has the library path, the preloads and the session id that the session requires. -/

namespace PlumosBubble.PortMaster

open Frontend Shell

def colon : UInt8 := 0x3a

/-- The tokens that a cursor stops at, with what it has read of the current one, last byte
first. The loops end at the NUL, so there is no empty token behind a last colon. -/
def tokensFrom : CString → CString → List CString
  | read, [] => if read = [] then [] else [read.reverse]
  | read, c :: rest =>
    if c = colon then read.reverse :: tokensFrom [] rest else tokensFrom (c :: read) rest

/-- The tokens of a value, none if it is missing. -/
def tokens (value : Option CString) : List CString := tokensFrom [] (value.getD [])

/-- `token_present`. -/
def tokenPresent (value : Option CString) (token : CString) : Bool :=
  token ≠ [] && (tokens value).any (· = token)

/-- `contains_required_tokens`. -/
def containsRequiredTokens (value required : Option CString) : Bool :=
  (tokens required).all fun token => token = [] || tokenPresent value token

/-- `envp ? envp : environ`, where a NULL `envp` means the process's own. -/
def sourceEnvp (environ envp : Option (List CString)) : Option (List CString) :=
  envp <|> environ

/-- `env_value`. -/
def envValue (environ envp : Option (List CString)) (name : CString) : Option CString :=
  valueIn ((sourceEnvp environ envp).getD []) name

/-- The value that `join_assignment` writes. -/
def joined (current required : Option CString) : CString :=
  current.getD [] ++ (if current.getD [] ≠ [] ∧ required.getD [] ≠ [] then [colon] else []) ++
    required.getD []

/-- The value that `force_assignment` writes. -/
def forced (value : Option CString) : CString := joined none (some (value.getD []))

def libraryPath : CString := lit "LD_LIBRARY_PATH"
def preload : CString := lit "LD_PRELOAD"
def sessionId : CString := lit "PLUMOS_PORTMASTER_SESSION_ID"
def requiredLibraryPath : CString := lit "PLUMOS_PORTMASTER_REQUIRED_LD_LIBRARY_PATH"
def requiredPreload : CString := lit "PLUMOS_PORTMASTER_REQUIRED_LD_PRELOAD"
def requiredSessionId : CString := lit "PLUMOS_PORTMASTER_REQUIRED_SESSION_ID"

/-- `value && *value`. -/
def isGiven (value : Option CString) : Bool := value.getD [] ≠ []

/-- A list variable is replaced when it lacks one of the required tokens. -/
def replaceTokens (environ envp : Option (List CString)) (name required : CString) : Bool :=
  isGiven (envValue environ none required) &&
    !containsRequiredTokens (envValue environ envp name) (envValue environ none required)

def replaceLibraryPath (environ envp : Option (List CString)) : Bool :=
  replaceTokens environ envp libraryPath requiredLibraryPath

def replacePreload (environ envp : Option (List CString)) : Bool :=
  replaceTokens environ envp preload requiredPreload

def replaceSession (environ envp : Option (List CString)) : Bool :=
  isGiven (envValue environ none requiredSessionId) &&
    envValue environ envp sessionId ≠ envValue environ none requiredSessionId

/-- The variables that get a new entry, with its value, in the order of the entries. -/
def replacements (environ envp : Option (List CString)) : List (CString × CString) :=
  (if replaceLibraryPath environ envp then
    [(libraryPath, joined (envValue environ envp libraryPath)
      (envValue environ none requiredLibraryPath))] else []) ++
  (if replacePreload environ envp then
    [(preload, joined (envValue environ envp preload)
      (envValue environ none requiredPreload))] else []) ++
  (if replaceSession environ envp then
    [(sessionId, forced (envValue environ none requiredSessionId))] else [])

/-- Which of the allocations of one call succeed. -/
structure Allocations where
  entries : Bool
  libraryPath : Bool
  preload : Bool
  session : Bool

/-- An allocation that is asked for fails. -/
def allocationFails (memory : Allocations) (environ envp : Option (List CString)) : Bool :=
  !memory.entries || replaceLibraryPath environ envp && !memory.libraryPath ||
    replacePreload environ envp && !memory.preload ||
    replaceSession environ envp && !memory.session

/-- The results 0, -1 and 1 of `build_guarded_environment`. -/
inductive Guarded
  | unchanged
  | failed
  | entries (envp : List CString)
  deriving DecidableEq

/-- `build_guarded_environment`. -/
def buildGuardedEnvironment (memory : Allocations) (environ envp : Option (List CString)) :
    Guarded :=
  if !isGiven (envValue environ none requiredLibraryPath) &&
      !isGiven (envValue environ none requiredPreload) &&
      !isGiven (envValue environ none requiredSessionId) then .unchanged
  else if !replaceLibraryPath environ envp && !replacePreload environ envp &&
      !replaceSession environ envp then .unchanged
  else if allocationFails memory environ envp then .failed
  else .entries (reassigned (replacements environ envp) ((sourceEnvp environ envp).getD []))

/-- `guard_envp`: what the real call is given, or NULL. -/
def guardEnvp (memory : Allocations) (environ envp : Option (List CString)) :
    Option (List CString) :=
  match buildGuardedEnvironment memory environ envp with
  | .failed => none
  | .entries guarded => some guarded
  | .unchanged => sourceEnvp environ envp

section Tokens

theorem tokensFrom_append_left {t : CString} (a b : CString) (read : CString)
    (h : t ∈ tokensFrom read a) : t ∈ tokensFrom read (a ++ colon :: b) := by
  induction a generalizing read with
  | nil =>
    rw [tokensFrom] at h
    split_ifs at h with hread
    · simp at h
    · rw [List.mem_singleton] at h
      simp [tokensFrom, h]
  | cons c a ih =>
    rw [List.cons_append]
    simp only [tokensFrom] at h ⊢
    split_ifs with hc
    · rw [if_pos hc] at h
      rcases List.mem_cons.mp h with hfirst | hlater
      · exact hfirst ▸ List.mem_cons_self
      · exact List.mem_cons_of_mem _ (ih [] hlater)
    · rw [if_neg hc] at h
      exact ih (c :: read) h

theorem tokensFrom_append_right {t : CString} (a b : CString) (read : CString)
    (h : t ∈ tokensFrom [] b) : t ∈ tokensFrom read (a ++ colon :: b) := by
  induction a generalizing read with
  | nil => simp [tokensFrom, h]
  | cons c a ih =>
    rw [List.cons_append, tokensFrom]
    split_ifs
    · exact List.mem_cons_of_mem _ (ih [])
    · exact ih (c :: read)

theorem mem_tokens_joined {current required : Option CString} {t : CString}
    (h : t ∈ tokens current ∨ t ∈ tokens required) :
    t ∈ tokens (some (joined current required)) := by
  unfold joined
  unfold tokens at h ⊢
  by_cases hcurrent : current.getD [] = []
  · rw [hcurrent] at h ⊢
    simpa [tokensFrom] using h
  · by_cases hrequired : required.getD [] = []
    · rw [hrequired] at h ⊢
      simpa [tokensFrom] using h
    · rw [if_pos ⟨hcurrent, hrequired⟩, List.append_assoc, List.singleton_append]
      rcases h with hleft | hright
      · exact tokensFrom_append_left _ _ _ hleft
      · exact tokensFrom_append_right _ _ _ hright

theorem containsRequiredTokens_iff {value required : Option CString} :
    containsRequiredTokens value required = true ↔
      ∀ t ∈ tokens required, t ≠ [] → t ∈ tokens value := by
  simp only [containsRequiredTokens, tokenPresent, List.all_eq_true, Bool.or_eq_true,
    Bool.and_eq_true, decide_eq_true_eq, List.any_eq_true]
  constructor
  · intro h t ht hne
    rcases h t ht with hempty | ⟨-, other, hother, heq⟩
    · exact absurd hempty hne
    · exact heq ▸ hother
  · intro h t ht
    by_cases hne : t = []
    · exact Or.inl hne
    · exact Or.inr ⟨hne, t, h t ht hne, rfl⟩

theorem tokens_of_not_given {value : Option CString} (h : isGiven value = false) :
    tokens value = [] := by
  simp only [isGiven, decide_eq_false_iff_not, not_not] at h
  rw [tokens, h, tokensFrom, if_pos rfl]

end Tokens

section Names

theorem names_free : ∀ name ∈ [libraryPath, preload, sessionId], equals ∉ name := by
  decide

theorem names_nodup : [libraryPath, preload, sessionId].Nodup := by decide

variable {memory : Allocations} {environ envp : Option (List CString)}

theorem replacements_sublist :
    ((replacements environ envp).map Prod.fst).Sublist [libraryPath, preload, sessionId] := by
  unfold replacements
  by_cases hlibrary : replaceLibraryPath environ envp <;>
    by_cases hpreload : replacePreload environ envp <;>
    by_cases hsession : replaceSession environ envp <;>
    simp [hlibrary, hpreload, hsession]

theorem replacements_free : ∀ name ∈ (replacements environ envp).map Prod.fst, equals ∉ name :=
  fun _ hname => names_free _ (replacements_sublist.subset hname)

theorem replacements_nodup : ((replacements environ envp).map Prod.fst).Nodup :=
  replacements_sublist.nodup names_nodup

theorem mem_replacements {name value : CString} :
    (name, value) ∈ replacements environ envp ↔
      replaceLibraryPath environ envp = true ∧ name = libraryPath ∧
        value = joined (envValue environ envp libraryPath)
          (envValue environ none requiredLibraryPath) ∨
      replacePreload environ envp = true ∧ name = preload ∧
        value = joined (envValue environ envp preload) (envValue environ none requiredPreload) ∨
      replaceSession environ envp = true ∧ name = sessionId ∧
        value = forced (envValue environ none requiredSessionId) := by
  unfold replacements
  by_cases hlibrary : replaceLibraryPath environ envp <;>
    by_cases hpreload : replacePreload environ envp <;>
    by_cases hsession : replaceSession environ envp <;>
    simp [hlibrary, hpreload, hsession]

end Names

section Outcome

variable {memory : Allocations} {environ envp : Option (List CString)} {out : List CString}

theorem guardEnvp_eq_some (h : guardEnvp memory environ envp = some out) :
    out = reassigned (replacements environ envp) ((sourceEnvp environ envp).getD []) := by
  have hsame : replacements environ envp = [] → sourceEnvp environ envp = some out →
      out = reassigned (replacements environ envp) ((sourceEnvp environ envp).getD []) := by
    intro hnone hout
    rw [hnone, hout]
    simp [reassigned, belongs]
  unfold guardEnvp buildGuardedEnvironment at h
  by_cases hgiven : (!isGiven (envValue environ none requiredLibraryPath) &&
      !isGiven (envValue environ none requiredPreload) &&
      !isGiven (envValue environ none requiredSessionId)) = true
  · rw [if_pos hgiven] at h
    simp only [Bool.and_eq_true, Bool.not_eq_true'] at hgiven
    refine hsame ?_ h
    simp [replacements, replaceLibraryPath, replacePreload, replaceTokens, replaceSession, hgiven]
  · rw [if_neg hgiven] at h
    by_cases hreplace : (!replaceLibraryPath environ envp && !replacePreload environ envp &&
        !replaceSession environ envp) = true
    · rw [if_pos hreplace] at h
      simp only [Bool.and_eq_true, Bool.not_eq_true'] at hreplace
      refine hsame ?_ h
      simp [replacements, hreplace]
    · rw [if_neg hreplace] at h
      by_cases hfails : allocationFails memory environ envp = true
      · rw [if_pos hfails] at h
        cases h
      · rw [if_neg hfails] at h
        exact (Option.some.inj h).symm

theorem guardEnvp_eq_none (h : guardEnvp memory environ envp = none) :
    sourceEnvp environ envp = none ∨ allocationFails memory environ envp = true := by
  unfold guardEnvp buildGuardedEnvironment at h
  by_cases hfails : allocationFails memory environ envp = true
  · exact Or.inr hfails
  · left
    split_ifs at h <;> exact h

theorem tokens_outcome {name required : CString}
    (hnames : (name, required) ∈ [(libraryPath, requiredLibraryPath), (preload, requiredPreload)])
    (t : CString)
    (h : t ∈ tokens (envValue environ envp name) ∨
      t ≠ [] ∧ t ∈ tokens (envValue environ none required)) :
    t ∈ tokens (valueIn (reassigned (replacements environ envp)
      ((sourceEnvp environ envp).getD [])) name) := by
  have hmem : name ∈ [libraryPath, preload, sessionId] := by
    simp only [List.mem_cons, Prod.mk.injEq, List.not_mem_nil, or_false] at hnames
    rcases hnames with ⟨rfl, -⟩ | ⟨rfl, -⟩ <;> simp
  by_cases hreplaced : replaceTokens environ envp name required = true
  · have hentry : (name, joined (envValue environ envp name) (envValue environ none required)) ∈
        replacements environ envp := by
      rw [mem_replacements]
      simp only [List.mem_cons, Prod.mk.injEq, List.not_mem_nil, or_false] at hnames
      rcases hnames with ⟨rfl, rfl⟩ | ⟨rfl, rfl⟩
      · exact Or.inl ⟨hreplaced, rfl, rfl⟩
      · exact Or.inr (Or.inl ⟨hreplaced, rfl, rfl⟩)
    rw [valueIn_reassigned_mem replacements_free replacements_nodup hentry]
    exact mem_tokens_joined (h.imp_right And.right)
  · have hnot : name ∉ (replacements environ envp).map Prod.fst := by
      intro hin
      obtain ⟨⟨other, value⟩, hother, rfl⟩ := List.mem_map.mp hin
      have hnodup := names_nodup
      simp only [List.nodup_cons, List.mem_cons, List.not_mem_nil, or_false, not_or] at hnodup
      simp only [List.mem_cons, Prod.mk.injEq, List.not_mem_nil, or_false] at hnames
      rcases mem_replacements.mp hother with ⟨hr, rfl, -⟩ | ⟨hr, rfl, -⟩ | ⟨-, rfl, -⟩
      · rcases hnames with ⟨-, rfl⟩ | ⟨heq, -⟩
        · exact hreplaced hr
        · exact hnodup.1.1 heq
      · rcases hnames with ⟨heq, -⟩ | ⟨-, rfl⟩
        · exact hnodup.1.1 heq.symm
        · exact hreplaced hr
      · rcases hnames with ⟨heq, -⟩ | ⟨heq, -⟩
        · exact hnodup.1.2 heq.symm
        · exact hnodup.2.1 heq.symm
    rw [valueIn_reassigned_other replacements_free (names_free name hmem) hnot]
    rcases h with hcurrent | ⟨hne, hrequired⟩
    · exact hcurrent
    · by_cases hgiven : isGiven (envValue environ none required) = true
      · have hcontains : containsRequiredTokens (envValue environ envp name)
            (envValue environ none required) = true := by
          by_contra hnone
          exact hreplaced (by simp [replaceTokens, hgiven, hnone])
        exact containsRequiredTokens_iff.mp hcontains t hrequired hne
      · rw [tokens_of_not_given (Bool.not_eq_true _ ▸ hgiven)] at hrequired
        simp at hrequired

theorem session_outcome (h : isGiven (envValue environ none requiredSessionId) = true) :
    valueIn (reassigned (replacements environ envp) ((sourceEnvp environ envp).getD [])) sessionId =
      envValue environ none requiredSessionId := by
  obtain ⟨session, hsession⟩ :
      ∃ session, envValue environ none requiredSessionId = some session := by
    cases hvalue : envValue environ none requiredSessionId with
    | none => simp [hvalue, isGiven] at h
    | some session => exact ⟨session, rfl⟩
  by_cases hreplaced : replaceSession environ envp = true
  · have hentry : (sessionId, forced (envValue environ none requiredSessionId)) ∈
        replacements environ envp :=
      mem_replacements.mpr (Or.inr (Or.inr ⟨hreplaced, rfl, rfl⟩))
    rw [valueIn_reassigned_mem replacements_free replacements_nodup hentry, hsession]
    simp [forced, joined]
  · have hnot : sessionId ∉ (replacements environ envp).map Prod.fst := by
      intro hin
      obtain ⟨⟨other, value⟩, hother, heq⟩ := List.mem_map.mp hin
      have hnodup := names_nodup
      simp only [List.nodup_cons, List.mem_cons, List.not_mem_nil, or_false, not_or] at hnodup
      change other = sessionId at heq
      subst heq
      rcases mem_replacements.mp hother with ⟨-, heq, -⟩ | ⟨-, heq, -⟩ | ⟨hr, -, -⟩
      · exact hnodup.1.2 heq.symm
      · exact hnodup.2.1 heq.symm
      · exact hreplaced hr
    rw [valueIn_reassigned_other replacements_free (names_free sessionId (by simp)) hnot]
    by_contra hne
    exact hreplaced (by
      rw [replaceSession, h, Bool.true_and, decide_eq_true_eq]
      exact hne)

theorem guardEnvp_satisfied
    (htokens : ∀ names ∈ [(libraryPath, requiredLibraryPath), (preload, requiredPreload)],
      ∀ t ∈ tokens (envValue environ none names.2), t ≠ [] → t ∈ tokens (valueIn out names.1))
    (hsession : isGiven (envValue environ none requiredSessionId) = true →
      valueIn out sessionId = envValue environ none requiredSessionId) :
    guardEnvp memory environ (some out) = some out := by
  have hlist : ∀ names ∈ [(libraryPath, requiredLibraryPath), (preload, requiredPreload)],
      replaceTokens environ (some out) names.1 names.2 = false := by
    intro names hnames
    have hcontains := containsRequiredTokens_iff.mpr (htokens names hnames)
    have hvalue : envValue environ (some out) names.1 = valueIn out names.1 := rfl
    simp [replaceTokens, hvalue, hcontains]
  have hlibrary : replaceLibraryPath environ (some out) = false :=
    hlist (libraryPath, requiredLibraryPath) (by simp)
  have hpreload : replacePreload environ (some out) = false :=
    hlist (preload, requiredPreload) (by simp)
  have hid : replaceSession environ (some out) = false := by
    cases hgiven : isGiven (envValue environ none requiredSessionId) with
    | false => simp [replaceSession, hgiven]
    | true =>
      have hvalue : envValue environ (some out) sessionId =
          envValue environ none requiredSessionId := hsession hgiven
      simp [replaceSession, hvalue]
  simp [guardEnvp, buildGuardedEnvironment, hlibrary, hpreload, hid, sourceEnvp]

end Outcome

/-- What the guard owes a child whose entries are those of `envp`, or of the process. -/
structure Owed (environ envp : Option (List CString)) (out : List CString) : Prop where
  /-- The required tokens are in their variables. -/
  required : ∀ names ∈ [(libraryPath, requiredLibraryPath), (preload, requiredPreload)],
    ∀ t ∈ tokens (envValue environ none names.2), t ≠ [] → t ∈ tokens (valueIn out names.1)
  /-- So is the required session id. -/
  session : isGiven (envValue environ none requiredSessionId) = true →
    valueIn out sessionId = envValue environ none requiredSessionId
  /-- The tokens of the value that the child had are still there. -/
  kept : ∀ name ∈ [libraryPath, preload], ∀ t ∈ tokens (envValue environ envp name),
    t ∈ tokens (valueIn out name)
  /-- The entries of the variables that are not replaced are as they were. -/
  others : out.filter (fun entry => !belongs ((replacements environ envp).map Prod.fst) entry) =
    ((sourceEnvp environ envp).getD []).filter
      fun entry => !belongs ((replacements environ envp).map Prod.fst) entry
  /-- A variable that is replaced has one entry. -/
  single : ∀ name ∈ (replacements environ envp).map Prod.fst,
    (out.filter fun entry => (assigned name entry).isSome).length = 1

/-- The guard fails only when an allocation does, or when there is no environment at all.
Otherwise the child has what is owed to it, and guarding that once more changes nothing. -/
theorem guard_closes (memory : Allocations) (environ envp : Option (List CString)) :
    match guardEnvp memory environ envp with
    | none => sourceEnvp environ envp = none ∨ allocationFails memory environ envp = true
    | some out => Owed environ envp out ∧
        ∀ memory', guardEnvp memory' environ (some out) = some out := by
  cases h : guardEnvp memory environ envp with
  | none => exact guardEnvp_eq_none h
  | some out =>
    have howed : Owed environ envp out := by
      rw [guardEnvp_eq_some h]
      constructor
      · intro names hnames t ht hne
        exact tokens_outcome hnames t (Or.inr ⟨hne, ht⟩)
      · exact session_outcome
      · intro name hname t ht
        simp only [List.mem_cons, List.not_mem_nil, or_false] at hname
        rcases hname with rfl | rfl
        · exact tokens_outcome (List.mem_cons_self) t (Or.inl ht)
        · exact tokens_outcome (List.mem_cons_of_mem _ List.mem_cons_self) t (Or.inl ht)
      · exact filter_reassigned
      · intro name hname
        obtain ⟨⟨other, value⟩, hother, rfl⟩ := List.mem_map.mp hname
        rw [entries_reassigned_mem replacements_free replacements_nodup hother]
        rfl
    exact ⟨howed, fun memory' => guardEnvp_satisfied howed.required howed.session⟩

/-- A second entry of a replaced variable is lost, and its tokens with it. -/
theorem second_entry_dropped :
    ¬∀ memory environ envp out, guardEnvp memory environ envp = some out →
      ∀ entry ∈ (sourceEnvp environ envp).getD [], ∀ name ∈ [libraryPath, preload],
        ∀ value, assigned name entry = some value → ∀ t ∈ tokens (some value), t ≠ [] →
          ∃ entry' ∈ out, ∃ value', assigned name entry' = some value' ∧
            t ∈ tokens (some value') := by
  intro h
  have hrun : guardEnvp ⟨true, true, true, true⟩
      (some [lit "PLUMOS_PORTMASTER_REQUIRED_LD_PRELOAD=guard.so"])
      (some [lit "LD_PRELOAD=a.so", lit "LD_PRELOAD=b.so"]) =
        some [lit "LD_PRELOAD=a.so:guard.so"] := by decide +kernel
  have hlost := h _ _ _ _ hrun (lit "LD_PRELOAD=b.so")
    (by decide +kernel) preload (by simp) (lit "b.so")
    (by decide +kernel) (lit "b.so") (by decide +kernel) (by decide +kernel)
  obtain ⟨entry', hentry', value', hvalue', ht⟩ := hlost
  rw [List.mem_singleton] at hentry'
  have hvalue : assigned preload (lit "LD_PRELOAD=a.so:guard.so") =
      some (lit "a.so:guard.so") := by decide +kernel
  rw [hentry', hvalue] at hvalue'
  cases hvalue'
  revert ht
  decide +kernel

end PlumosBubble.PortMaster
