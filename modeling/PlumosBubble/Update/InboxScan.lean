import PlumosBubble.Update.Inbox

/-! What stops the scan of the update inbox: each place in `load_package`, `validate_manifest`
and `current_compatibility` that can raise something else than an `UpdateError`. -/

namespace PlumosBubble.Update.Inbox

open Script

/-- `except UpdateError`. -/
def Handled (e : Raised) : Prop := e.type = .updateError

section Checks

variable {α β : Type}

@[simp]
theorem not_escapes_check (bad : Prop) [Decidable bad] (message : Text) :
    ¬Escapes Handled (check bad message) := by
  unfold check
  split
  · rw [escapes_error]
    exact not_not_intro rfl
  · exact not_escapes_ok ()

theorem lift_pure (a : α) : lift (pure a : Except PyError α) = pure a := rfl

theorem lift_bind (x : Except PyError α) (f : α → Except PyError β) :
    lift (x >>= f) = lift x >>= fun a => lift (f a) := by
  cases x <;> rfl

theorem lift_refuse (bad : Prop) [Decidable bad] (message : Text) :
    lift (refuse bad message) = check bad message := by
  unfold refuse check
  split <;> rfl

@[simp]
theorem not_escapes_safeRelative (value : Text) : ¬Escapes Handled (lift (safeRelative value)) := by
  unfold safeRelative
  simp only [lift_bind, lift_refuse, lift_pure, escapes_bind, not_escapes_check,
    not_escapes_pure, and_false, exists_false, or_false, not_false_eq_true]

theorem not_escapes_checkMembers (members : List Member) :
    ¬Escapes Handled (lift (checkMembers members)) := by
  induction members with
  | nil => exact not_escapes_ok ()
  | cons member rest ih =>
    unfold checkMembers checkMember
    simp only [lift_bind, lift_refuse, escapes_bind, not_escapes_check, not_escapes_safeRelative,
      ih, and_false, exists_false, or_false, not_false_eq_true]

theorem not_escapes_validateManaged (declared : List Text) :
    ¬Escapes Handled (lift (validateManaged declared)) := by
  induction declared with
  | nil => exact not_escapes_ok ()
  | cons relative rest ih =>
    unfold validateManaged
    simp only [lift_bind, lift_refuse, escapes_bind, not_escapes_check, ih, and_false,
      exists_false, or_false, not_false_eq_true]

theorem not_escapes_validateDelete (declared delete : List Text) :
    ¬Escapes Handled (lift (validateDelete declared delete)) := by
  induction delete with
  | nil => exact not_escapes_ok ()
  | cons path rest ih =>
    unfold validateDelete
    simp only [lift_bind, lift_refuse, escapes_bind, not_escapes_check, not_escapes_safeRelative,
      ih, and_false, exists_false, or_false, not_false_eq_true]

/-- `int` raises what is no `UpdateError`. -/
theorem escapes_int (py : Builtins) (value : Json) :
    Escapes Handled (py.int value) ↔ ∀ n, py.int value ≠ .ok n := by
  have hnot : ∀ e, py.int value = .error e → ¬Handled e := by
    intro e he hhandled
    unfold Handled at hhandled
    cases value with
    | int n => cases he
    | bool b => cases he
    | float x =>
      cases x with
      | finite q => cases he
      | infinite negative => cases he; cases hhandled
      | nan => cases he; cases hhandled
    | str t =>
      simp only [Builtins.int] at he
      split at he
      · cases he
      · cases he; cases hhandled
    | null => cases he; cases hhandled
    | list items => cases he; cases hhandled
    | dict fields => cases he; cases hhandled
  cases h : py.int value with
  | ok n => simp
  | error e => simp [hnot e h]

end Checks

section Manifest

variable (py : Builtins) (archiveNames : List Text)

/-- An entry of the manifest stops the scan: its path is accepted, but its type cannot be looked
up, or its type and target are accepted, and its size is no number. -/
inductive EntryAborts (declared : List Text) : Json → Prop
  | type {fields : Fields} {relative : Text} {value : Json} :
    entryPath py archiveNames declared fields = .ok relative → field fields "type" = some value →
    ((∃ items, value = .list items) ∨ ∃ inner, value = .dict inner) →
    EntryAborts declared (.dict fields)
  | size {fields : Fields} {relative : Text} {type : EntryType} :
    entryPath py archiveNames declared fields = .ok relative →
    entryType relative (field fields "type") = .ok type →
    checkTarget py relative fields type = .ok () →
    (∀ n, py.int ((field fields "size").getD (.int (-1))) ≠ .ok n) →
    EntryAborts declared (.dict fields)

/-- A manifest stops the scan: it is no object; or, behind entries that are accepted, an entry
does; or the payload is accepted, and the total is no number; or all that comes before is
accepted, and `delete` cannot be gone through. -/
inductive ManifestAborts : Json → Prop
  | notObject {manifest : Json} : (∀ fields, manifest ≠ .dict fields) → ManifestAborts manifest
  | entry {fields : Fields} {before behind : List Json} {value : Json} {declared : List Text}
    {declaredBytes : ℤ} :
    checkHeader fields = .ok () → fileEntries fields = .ok (before ++ value :: behind) →
    validateEntries py archiveNames before [] 0 = .ok (declared, declaredBytes) →
    EntryAborts py archiveNames declared value → ManifestAborts (.dict fields)
  | total {fields : Fields} {declared : List Text} {declaredBytes : ℤ} :
    declaredPayload py archiveNames fields = .ok (declared, declaredBytes) →
    (∀ n, py.int ((field fields "payload_uncompressed_bytes").getD (.int (-1))) ≠ .ok n) →
    ManifestAborts (.dict fields)
  | delete {fields : Fields} {declared : List Text} {declaredBytes : ℤ} {value : Json} :
    declaredPayload py archiveNames fields = .ok (declared, declaredBytes) →
    checkDeclared py fields declared declaredBytes = .ok () →
    field fields "delete" = some value →
    (∀ items, value ≠ .list items) → (∀ inner, value ≠ .dict inner) → (∀ t, value ≠ .str t) →
    ManifestAborts (.dict fields)

variable {py archiveNames}

theorem escapes_entryType (relative : Text) (type : Option Json) :
    Escapes Handled (entryType relative type) ↔ ∃ value, type = some value ∧
      ((∃ items, value = .list items) ∨ ∃ inner, value = .dict inner) := by
  unfold entryType
  rcases type with _ | (_ | _ | _ | _ | t | items | inner)
  case some.str =>
    simp only
    split_ifs <;> simp [Handled]
  all_goals simp [Handled]

theorem escapes_validateEntry (declared : List Text) (entry : Json) :
    Escapes Handled (validateEntry py archiveNames declared entry) ↔
      EntryAborts py archiveNames declared entry := by
  cases entry with
  | dict fields =>
    unfold validateEntry
    have hpath : ¬Escapes Handled (entryPath py archiveNames declared fields) := by
      unfold entryPath
      simp only [escapes_bind, not_escapes_safeRelative, not_escapes_check, not_escapes_pure,
        and_false, exists_false, or_false, not_false_eq_true]
    have htarget : ∀ relative type, ¬Escapes Handled (checkTarget py relative fields type) :=
      fun relative type => not_escapes_check _ _
    simp only [escapes_bind, hpath, htarget, escapes_entryType, escapes_int, not_escapes_check,
      not_escapes_pure, and_false, exists_false, or_false, false_or]
    constructor
    · rintro ⟨relative, hrelative, ⟨value, hvalue, hkind⟩ | ⟨type, htype, u, hcheck, hsize⟩⟩
      · exact .type hrelative hvalue hkind
      · exact .size hrelative htype hcheck hsize
    · intro h
      cases h with
      | type hrelative hvalue hkind => exact ⟨_, hrelative, Or.inl ⟨_, hvalue, hkind⟩⟩
      | size hrelative htype hcheck hsize =>
        exact ⟨_, hrelative, Or.inr ⟨_, htype, (), hcheck, hsize⟩⟩
  | _ =>
    constructor
    · rintro ⟨e, he, hnot⟩
      cases he
      exact absurd rfl hnot
    · intro h
      cases h

theorem validateEntries_cons (entry : Json) (rest : List Json) (declared : List Text)
    (declaredBytes : ℤ) :
    validateEntries py archiveNames (entry :: rest) declared declaredBytes =
      validateEntry py archiveNames declared entry >>= fun checked =>
        validateEntries py archiveNames rest (checked.1 :: declared) (declaredBytes + checked.2) :=
  rfl

theorem escapes_validateEntries (files : List Json) (declared : List Text) (declaredBytes : ℤ) :
    Escapes Handled (validateEntries py archiveNames files declared declaredBytes) ↔
      ∃ before value behind done, files = before ++ value :: behind ∧
        validateEntries py archiveNames before declared declaredBytes = .ok done ∧
        EntryAborts py archiveNames done.1 value := by
  induction files generalizing declared declaredBytes with
  | nil =>
    constructor
    · exact fun h => absurd h (not_escapes_ok _)
    · rintro ⟨before, value, behind, done, hfiles, -⟩
      simp at hfiles
  | cons entry rest ih =>
    rw [validateEntries_cons, escapes_bind, escapes_validateEntry]
    constructor
    · rintro (haborts | ⟨⟨relative, size⟩, hentry, hrest⟩)
      · exact ⟨[], entry, rest, (declared, declaredBytes), rfl, rfl, haborts⟩
      · obtain ⟨before, value, behind, done, rfl, hbefore, haborts⟩ := (ih _ _).mp hrest
        refine ⟨entry :: before, value, behind, done, rfl, ?_, haborts⟩
        rw [validateEntries_cons, hentry]
        exact hbefore
    · rintro ⟨before, value, behind, done, hfiles, hbefore, haborts⟩
      cases before with
      | nil =>
        obtain ⟨rfl, rfl⟩ := List.cons.inj hfiles
        cases hbefore
        exact Or.inl haborts
      | cons first before =>
        obtain ⟨rfl, rfl⟩ := List.cons.inj hfiles
        rw [validateEntries_cons] at hbefore
        obtain ⟨⟨relative, size⟩, hentry, hbefore⟩ := bind_eq_ok_iff.mp hbefore
        exact Or.inr ⟨(relative, size), hentry,
          (ih _ _).mpr ⟨before, value, behind, done, rfl, hbefore, haborts⟩⟩

theorem not_escapes_checkHeader (fields : Fields) : ¬Escapes Handled (checkHeader fields) := by
  unfold checkHeader
  simp only [escapes_bind, not_escapes_check, and_false, exists_false, or_false,
    not_false_eq_true]

theorem not_escapes_fileEntries (fields : Fields) : ¬Escapes Handled (fileEntries fields) := by
  unfold fileEntries
  split
  · exact not_escapes_ok _
  · simp [Handled]

theorem escapes_declaredPayload (fields : Fields) :
    Escapes Handled (declaredPayload py archiveNames fields) ↔
      ∃ before value behind done, checkHeader fields = .ok () ∧
        fileEntries fields = .ok (before ++ value :: behind) ∧
        validateEntries py archiveNames before [] 0 = .ok done ∧
        EntryAborts py archiveNames done.1 value := by
  unfold declaredPayload
  simp only [escapes_bind, not_escapes_checkHeader, not_escapes_fileEntries, not_escapes_check,
    not_escapes_pure, escapes_validateEntries, and_false, exists_false, or_false, false_or]
  constructor
  · rintro ⟨u, hheader, files, hfiles, before, value, behind, done, rfl, hbefore, haborts⟩
    exact ⟨before, value, behind, done, hheader, hfiles, hbefore, haborts⟩
  · rintro ⟨before, value, behind, done, hheader, hfiles, hbefore, haborts⟩
    exact ⟨(), hheader, _, hfiles, before, value, behind, done, rfl, hbefore, haborts⟩

theorem escapes_checkDeclared (fields : Fields) (declared : List Text) (declaredBytes : ℤ) :
    Escapes Handled (checkDeclared py fields declared declaredBytes) ↔
      ∀ n, py.int ((field fields "payload_uncompressed_bytes").getD (.int (-1))) ≠ .ok n := by
  unfold checkDeclared
  simp only [escapes_bind, escapes_int, not_escapes_check, not_escapes_validateManaged, and_false,
    exists_false, or_false]

theorem escapes_deleteItems (value : Option Json) :
    Escapes Handled (deleteItems value) ↔ ∃ v, value = some v ∧ (∀ items, v ≠ .list items) ∧
      (∀ inner, v ≠ .dict inner) ∧ ∀ t, v ≠ .str t := by
  unfold deleteItems
  rcases value with _ | (_ | _ | _ | _ | t | items | inner)
  all_goals simp [Handled]

/-- `validate_manifest` raises something else than an `UpdateError` only here. -/
theorem escapes_validateManifest (manifest : Json) :
    Escapes Handled (validateManifest py archiveNames manifest) ↔
      ManifestAborts py archiveNames manifest := by
  cases manifest with
  | dict fields =>
    unfold validateManifest
    simp only [escapes_bind, escapes_declaredPayload, escapes_checkDeclared, escapes_deleteItems,
      not_escapes_validateDelete, not_escapes_pure, and_false, exists_false, or_false]
    constructor
    · rintro (⟨before, value, behind, done, hheader, hfiles, hbefore, haborts⟩ |
        ⟨done, hpayload, htotal | ⟨u, hdeclared, value, hvalue, hlist, hdict, hstr⟩⟩)
      · exact .entry hheader hfiles hbefore haborts
      · exact .total hpayload htotal
      · exact .delete hpayload hdeclared hvalue hlist hdict hstr
    · intro h
      cases h with
      | notObject hnot => exact absurd rfl (hnot fields)
      | entry hheader hfiles hbefore haborts =>
        exact Or.inl ⟨_, _, _, (_, _), hheader, hfiles, hbefore, haborts⟩
      | total hpayload htotal => exact Or.inr ⟨(_, _), hpayload, Or.inl htotal⟩
      | delete hpayload hdeclared hvalue hlist hdict hstr =>
        exact Or.inr ⟨(_, _), hpayload, Or.inr ⟨(), hdeclared, _, hvalue, hlist, hdict, hstr⟩⟩
  | _ =>
    refine iff_of_true ⟨_, rfl, fun h => ?_⟩ (.notObject fun fields h => ?_) <;> cases h

end Manifest

section Reading

variable {file : InboxFile}

/-- What `load_package` catches around reading the archive. -/
def ReadHandled (e : Raised) : Prop := Handled e ∨ e.type ∈ [.tarError, .osError]

/-- Reading the archive stops the scan: opening it, or, once its members are accepted, looking up
or reading the manifest or the signature. -/
inductive ReadAborts (file : InboxFile) : Prop
  | opening {e : Raised} : file.members = .error e → ¬ReadHandled e → ReadAborts file
  | manifestHandle {members : List Member} {e : Raised} : file.members = .ok members →
    checkArchive members = .ok () → file.extractfile metaManifest = .error e → ¬ReadHandled e →
    ReadAborts file
  | signatureHandle {members : List Member} {handle : Option (Outcome (List UInt8))}
    {e : Raised} : file.members = .ok members → checkArchive members = .ok () →
    file.extractfile metaManifest = .ok handle → file.extractfile metaSignature = .error e →
    ¬ReadHandled e → ReadAborts file
  | manifestBytes {members : List Member} {readSignature : Outcome (List UInt8)} {e : Raised} :
    file.members = .ok members → checkArchive members = .ok () →
    file.extractfile metaManifest = .ok (some (.error e)) →
    file.extractfile metaSignature = .ok (some readSignature) → ¬ReadHandled e → ReadAborts file
  | signatureBytes {members : List Member} {manifestBytes : List UInt8} {e : Raised} :
    file.members = .ok members → checkArchive members = .ok () →
    file.extractfile metaManifest = .ok (some (.ok manifestBytes)) →
    file.extractfile metaSignature = .ok (some (.error e)) → ¬ReadHandled e → ReadAborts file

theorem escapes_wrap {α : Type} (kinds : List ExceptionClass) (message : String) (x : Outcome α) :
    Escapes Handled (wrap kinds message x) ↔
      Escapes (fun e => Handled e ∨ e.type ∈ kinds) x := by
  unfold wrap
  rw [escapes_mapError]
  have hsame : (fun e : Raised => Handled (if e.type ∈ kinds then
      ⟨.updateError, message.toList ++ e.text⟩ else e)) =
        fun e => Handled e ∨ e.type ∈ kinds := by
    funext e
    unfold Handled
    split <;> simp_all
  rw [hsame]

theorem not_escapes_checkArchive (members : List Member) :
    ¬Escapes ReadHandled (checkArchive members) := by
  intro h
  have hhandled := h.mono fun e (he : Handled e) => (Or.inl he : ReadHandled e)
  unfold checkArchive at hhandled
  simp only [escapes_bind, not_escapes_check, not_escapes_checkMembers, and_false, exists_false,
    or_false] at hhandled

theorem escapes_readArchive :
    Escapes ReadHandled (readArchive file) ↔ ReadAborts file := by
  unfold readArchive
  simp only [escapes_bind, not_escapes_checkArchive, false_or]
  constructor
  · rintro (⟨e, he, hnot⟩ | ⟨members, hmembers, ⟨⟩, hcheck, ⟨e, he, hnot⟩ | ⟨handle, hmanifest,
      ⟨e, he, hnot⟩ | ⟨handle', hsignature, hrest⟩⟩⟩)
    · exact .opening he hnot
    · exact .manifestHandle hmembers hcheck he hnot
    · exact .signatureHandle hmembers hcheck hmanifest he hnot
    · rcases handle with _ | readManifest
      · simp [Handled, ReadHandled] at hrest
      rcases handle' with _ | readSignature
      · simp [Handled, ReadHandled] at hrest
      simp only [escapes_bind, not_escapes_pure, and_false, exists_false, or_false] at hrest
      rcases hrest with ⟨e, rfl, hnot⟩ | ⟨manifestBytes, rfl, e, rfl, hnot⟩
      · exact .manifestBytes hmembers hcheck hmanifest hsignature hnot
      · exact .signatureBytes hmembers hcheck hmanifest hsignature hnot
  · intro h
    cases h with
    | opening he hnot => exact Or.inl ⟨_, he, hnot⟩
    | manifestHandle hmembers hcheck he hnot =>
      exact Or.inr ⟨_, hmembers, (), hcheck, Or.inl ⟨_, he, hnot⟩⟩
    | signatureHandle hmembers hcheck hmanifest he hnot =>
      exact Or.inr ⟨_, hmembers, (), hcheck, Or.inr ⟨_, hmanifest, Or.inl ⟨_, he, hnot⟩⟩⟩
    | manifestBytes hmembers hcheck hmanifest hsignature hnot =>
      refine Or.inr ⟨_, hmembers, (), hcheck, Or.inr ⟨_, hmanifest, Or.inr ⟨_, hsignature, ?_⟩⟩⟩
      simp only [escapes_bind, escapes_error]
      exact Or.inl hnot
    | signatureBytes hmembers hcheck hmanifest hsignature hnot =>
      refine Or.inr ⟨_, hmembers, (), hcheck, Or.inr ⟨_, hmanifest, Or.inr ⟨_, hsignature, ?_⟩⟩⟩
      simp only [escapes_bind, escapes_error]
      exact Or.inr ⟨_, rfl, Or.inl hnot⟩

end Reading

section Loading

variable (station : Station)

/-- What `load_package` catches around decoding the manifest. -/
def JsonHandled (e : Raised) : Prop :=
  Handled e ∨ e.type ∈ [.unicodeDecodeError, .jsonDecodeError]

/-- Loading a package stops the scan: reading it does; or its manifest fails to be decoded in
another way than for its text; or `openssl` cannot be run; or the signed manifest does. -/
inductive LoadAborts (file : InboxFile) : Prop
  | reading : file.isFile = true → ReadAborts file → LoadAborts file
  | json {names : List Text} {manifestBytes signature : List UInt8} {e : Raised} :
    file.isFile = true → readArchive file = .ok (names, manifestBytes, signature) →
    station.loads manifestBytes = .error e → ¬JsonHandled e → LoadAborts file
  | openssl {names : List Text} {manifestBytes signature : List UInt8} {manifest : Json}
    {e : Raised} : file.isFile = true →
    readArchive file = .ok (names, manifestBytes, signature) →
    station.loads manifestBytes = .ok manifest → ¬unsignedMark <+: signature →
    station.publicKey = true → station.openssl manifestBytes signature = .error e →
    ¬Handled e → LoadAborts file
  | manifest {names : List Text} {manifestBytes signature : List UInt8} {manifest : Json} :
    file.isFile = true → readArchive file = .ok (names, manifestBytes, signature) →
    station.loads manifestBytes = .ok manifest →
    verifySignature station manifestBytes signature = .ok () →
    ManifestAborts station.py names manifest → LoadAborts file

variable {station}

theorem check_eq_ok {bad : Prop} [Decidable bad] {message : Text} {u : Unit} :
    check bad message = .ok u ↔ ¬bad := by
  unfold check
  split <;> simp_all

theorem wrap_eq_ok {α : Type} {kinds : List ExceptionClass} {message : String} {x : Outcome α}
    {a : α} : wrap kinds message x = .ok a ↔ x = .ok a := by
  unfold wrap
  exact mapError_eq_ok_iff

theorem escapes_verifySignature (manifestBytes signature : List UInt8) :
    Escapes Handled (verifySignature station manifestBytes signature) ↔
      ¬unsignedMark <+: signature ∧ station.publicKey = true ∧
        ∃ e, station.openssl manifestBytes signature = .error e ∧ ¬Handled e := by
  unfold verifySignature
  split
  · rename_i hmark
    simp [hmark]
  · rename_i hmark
    simp only [escapes_bind, not_escapes_check, check_eq_ok, false_or, and_false, exists_false,
      or_false, hmark, not_false_eq_true, true_and, Bool.not_eq_false]
    constructor
    · rintro ⟨-, hkey, he⟩
      exact ⟨hkey, he⟩
    · rintro ⟨hkey, he⟩
      exact ⟨(), hkey, he⟩

theorem escapes_loadPackage (file : InboxFile) :
    Escapes Handled (loadPackage station file) ↔ LoadAborts station file := by
  unfold loadPackage
  simp only [escapes_bind, not_escapes_check, check_eq_ok, false_or, escapes_wrap, wrap_eq_ok,
    escapes_verifySignature, escapes_validateManifest, Bool.not_eq_false]
  constructor
  · rintro ⟨-, hfile, hread | ⟨⟨names, manifestBytes, signature⟩, hread, ⟨e, he, hnot⟩ |
      ⟨manifest, hmanifest, ⟨hmark, hkey, e, he, hnot⟩ | ⟨u, hverify, haborts⟩⟩⟩⟩
    · exact .reading hfile (escapes_readArchive.mp hread)
    · exact .json hfile hread he hnot
    · exact .openssl hfile hread hmanifest hmark hkey he hnot
    · exact .manifest hfile hread hmanifest hverify haborts
  · intro h
    cases h with
    | reading hfile haborts => exact ⟨(), hfile, Or.inl (escapes_readArchive.mpr haborts)⟩
    | json hfile hread he hnot => exact ⟨(), hfile, Or.inr ⟨_, hread, Or.inl ⟨_, he, hnot⟩⟩⟩
    | openssl hfile hread hmanifest hmark hkey he hnot =>
      exact ⟨(), hfile, Or.inr ⟨_, hread, Or.inr ⟨_, hmanifest, Or.inl ⟨hmark, hkey, _, he, hnot⟩⟩⟩⟩
    | manifest hfile hread hmanifest hverify haborts =>
      exact ⟨(), hfile, Or.inr ⟨_, hread, Or.inr ⟨_, hmanifest, Or.inr ⟨(), hverify, haborts⟩⟩⟩⟩

end Loading

section Versions

/-- The key of an identifier: a number, tagged 0, or a string, tagged 1. -/
def Tagged : ℕ × Atom → Prop
  | (tag, .int _) => tag = 0
  | (tag, .str _) => tag = 1

theorem tagged_of_identifierKeys {version : Text} {identifiers : List Text}
    {keys : List (ℕ × Atom)} (h : identifierKeys version identifiers = .ok keys) :
    ∀ key ∈ keys, Tagged key := by
  induction identifiers generalizing keys with
  | nil =>
    cases h
    simp
  | cons identifier rest ih =>
    unfold identifierKeys at h
    obtain ⟨key, hkey, h⟩ := bind_eq_ok_iff.mp h
    obtain ⟨keys', hkeys, h⟩ := bind_eq_ok_iff.mp h
    cases h
    intro other hother
    rcases List.mem_cons.mp hother with rfl | hother
    · unfold identifierKey at hkey
      split_ifs at hkey
      · cases hn : intOfDigits identifier with
        | error e =>
          rw [hn] at hkey
          cases hkey
        | ok n =>
          rw [hn] at hkey
          cases hkey
          rfl
      · cases hkey
        rfl
    · exact ih hkeys other hother

theorem tupleLt_tagged {keys keys' : List (ℕ × Atom)} (h : ∀ key ∈ keys, Tagged key)
    (h' : ∀ key ∈ keys', Tagged key) : tupleLt (pairLt intLt atomLt) keys keys' ≠ none := by
  induction keys generalizing keys' with
  | nil => cases keys' <;> simp [tupleLt]
  | cons key keys ih =>
    cases keys' with
    | nil => simp [tupleLt]
    | cons key' keys' =>
      unfold tupleLt
      split
      · exact ih (fun k hk => h k (List.mem_cons_of_mem _ hk))
          fun k hk => h' k (List.mem_cons_of_mem _ hk)
      · have hkey := h key List.mem_cons_self
        have hkey' := h' key' List.mem_cons_self
        obtain ⟨tag, atom⟩ := key
        obtain ⟨tag', atom'⟩ := key'
        clear ih h h'
        cases atom <;> cases atom' <;> simp only [Tagged] at hkey hkey' <;>
          simp [hkey, hkey', pairLt, intLt, atomLt]

theorem keyLt_semanticVersionKey {version version' : Text} {key key' : VersionKey}
    (h : semanticVersionKey version = .ok key) (h' : semanticVersionKey version' = .ok key') :
    keyLt key key' ≠ none := by
  have htagged : ∀ {version : Text} {key : VersionKey}, semanticVersionKey version = .ok key →
      ∀ k ∈ key.2.2.2.2, Tagged k := by
    intro version key h
    unfold semanticVersionKey at h
    split at h
    · cases h
    · rename_i m _
      obtain ⟨prerelease, hprerelease, h⟩ := bind_eq_ok_iff.mp h
      obtain ⟨major, -, h⟩ := bind_eq_ok_iff.mp h
      obtain ⟨minor, -, h⟩ := bind_eq_ok_iff.mp h
      obtain ⟨patch, -, h⟩ := bind_eq_ok_iff.mp h
      cases h
      unfold prereleaseKey at hprerelease
      split at hprerelease
      · cases hprerelease
        simp
      · cases hkeys : identifierKeys version (List.splitOn '.' _) with
        | error e =>
          rw [hkeys] at hprerelease
          cases hprerelease
        | ok keys =>
          rw [hkeys] at hprerelease
          cases hprerelease
          exact tagged_of_identifierKeys hkeys
  obtain ⟨major, minor, patch, prerelease, keys⟩ := key
  obtain ⟨major', minor', patch', prerelease', keys'⟩ := key'
  have hkeys := tupleLt_tagged (htagged h) (htagged h')
  unfold keyLt pairLt
  simp only [intLt]
  split_ifs <;> first | exact hkeys | simp

/-- A version has a number that `int` refuses. -/
def TooLong (version : Text) : Prop := semanticVersionKey version = .error .tooManyDigits

theorem escapes_versionKey (version : Text) :
    Escapes Handled (lift (versionKey version)) ↔ TooLong version := by
  unfold versionKey lift TooLong
  cases semanticVersionKey version with
  | ok key =>
    show Escapes Handled (.ok key : Outcome VersionKey) ↔ _
    simp
  | error e =>
    show Escapes Handled (.error (VersionError.raised e) : Outcome VersionKey) ↔ _
    cases e <;> simp [VersionError.raised, Handled]

theorem versionKey_eq_ok {version : Text} {key : VersionKey} :
    lift (versionKey version) = .ok key ↔ semanticVersionKey version = .ok key := by
  unfold versionKey lift
  rw [mapError_eq_ok_iff, mapError_eq_ok_iff]

end Versions

end PlumosBubble.Update.Inbox
