import PlumosBubble.Update.Paths

/-! What `validate_manifest` and `load_package` accept: the checks, one by one, as one
statement about the manifest and the archive. -/

namespace PlumosBubble.Update

open FileSystem

/-- A link target that stays below the link's directory. -/
def Contained (target : Text) : Prop := isAbsolute target = false ∧ Clean (components target)

/-- An entry of `files` that the loop accepts, its duplicates apart. -/
structure ValidEntry (archiveNames : List Text) (entry : FileEntry) : Prop where
  safe : Safe entry.path
  member : payloadName entry.path ∈ archiveNames
  type : entry.type = .file ∨ entry.type = .symlink
  contained : entry.type = .symlink → Contained (entry.target.getD [])
  size : 0 ≤ entry.size.getD (-1)

theorem validateEntry_eq_ok {archiveNames declared : List Text} {entry : FileEntry} {r : Text × ℤ} :
    validateEntry archiveNames declared entry = .ok r ↔
      ValidEntry archiveNames entry ∧ entry.path ∉ declared ∧
        r = (entry.path, entry.size.getD (-1)) := by
  have hclean : ∀ u : Text, ['.', '.'] ∉ components u ↔ Clean (components u) := fun u =>
    ⟨fun h n hn he => h (he ▸ hn), fun h hm => h _ hm rfl⟩
  simp only [validateEntry, bind_eq_ok, refuse_eq_ok]
  constructor
  · rintro ⟨relative, hsafe, _, hdup, _, hmem, _, htype, _, htarget, _, hsize, hr⟩
    obtain ⟨rfl, hs⟩ := Safe.of_ok hsafe
    refine ⟨⟨hs, by simpa using hmem, ?_, fun hl => ?_, by simpa using hsize⟩, hdup, ?_⟩
    · by_contra hc
      exact htype (by simpa using hc)
    · have := fun h => htarget ⟨hl, h⟩
      simp only [not_or, imp_false] at this
      exact ⟨by simpa using this.1, (hclean _).mp this.2⟩
    · cases hr
      rfl
  · rintro ⟨h, hdup, rfl⟩
    refine ⟨entry.path, h.safe, (), hdup, (), by simpa using h.member, (), ?_, (), ?_, (),
      by simpa using h.size, rfl⟩
    · intro hc
      cases h.type with
      | inl ht => exact hc.1 ht
      | inr ht => exact hc.2 ht
    · intro hc
      have hcon := h.contained hc.1
      cases hc.2 with
      | inl ha => simp [hcon.1] at ha
      | inr hd => exact (hclean _).mpr hcon.2 hd

/-- The sum of the declared sizes. -/
def declaredBytes (files : List FileEntry) : ℤ := (files.map fun entry => entry.size.getD (-1)).sum

theorem validateEntries_eq_ok {archiveNames : List Text} {files : List FileEntry}
    {declared : List Text} {bytes : ℤ} {r : List Text × ℤ} :
    validateEntries archiveNames files declared bytes = .ok r ↔
      (∀ entry ∈ files, ValidEntry archiveNames entry ∧ entry.path ∉ declared) ∧
        (files.map (·.path)).Nodup ∧
        r = ((files.map (·.path)).reverse ++ declared, bytes + declaredBytes files) := by
  induction files generalizing declared bytes with
  | nil =>
    simp only [validateEntries, declaredBytes]
    constructor
    · intro h
      cases h
      simp
    · intro h
      simp [h.2.2]
  | cons entry files ih =>
    simp only [validateEntries, bind_eq_ok, Prod.exists, validateEntry_eq_ok, ih]
    constructor
    · rintro ⟨p, n, ⟨hv, hd, hpn⟩, hall, hnodup, rfl⟩
      cases hpn
      refine ⟨?_, ?_, ?_⟩
      · intro e he
        cases List.mem_cons.mp he with
        | inl he => exact he ▸ ⟨hv, hd⟩
        | inr he => exact ⟨(hall e he).1, fun hc => (hall e he).2 (List.mem_cons_of_mem _ hc)⟩
      · refine List.nodup_cons.mpr ⟨fun hm => ?_, hnodup⟩
        obtain ⟨e, he, hp⟩ := List.mem_map.mp hm
        exact (hall e he).2 (by simp [hp])
      · simp only [declaredBytes, List.map_cons, List.sum_cons, List.reverse_cons, List.append_assoc,
          List.singleton_append, Int.add_assoc]
    · rintro ⟨hall, hnodup, rfl⟩
      obtain ⟨hnot, hnodup⟩ := List.nodup_cons.mp hnodup
      refine ⟨_, _, ⟨(hall entry (by simp)).1, (hall entry (by simp)).2, rfl⟩, ?_, hnodup, ?_⟩
      · intro e he
        refine ⟨(hall e (by simp [he])).1, fun hc => ?_⟩
        cases List.mem_cons.mp hc with
        | inl hp => exact hnot (List.mem_map.mpr ⟨e, he, hp⟩)
        | inr hp => exact (hall e (by simp [he])).2 hp
      · simp only [declaredBytes, List.map_cons, List.sum_cons, List.reverse_cons, List.append_assoc,
          List.singleton_append, Int.add_assoc]

theorem unexpectedPayload_eq_nil {archiveNames declared : List Text} :
    unexpectedPayload archiveNames declared = [] ↔
      ∀ relative, payloadName relative ∈ archiveNames → relative ∈ declared := by
  unfold unexpectedPayload payloadName
  generalize "payload/".toList = head
  simp only [List.append_nil]
  rw [List.filterMap_eq_nil_iff]
  constructor
  · intro h relative hm
    by_contra hc
    have := h _ hm
    rw [if_pos ⟨by simp, by simpa using hc⟩] at this
    cases this
  · intro h name hm
    rw [if_neg]
    intro hc
    obtain ⟨s, rfl⟩ := List.isPrefixOf_iff_prefix.mp hc.1
    exact hc.2 (by simpa using h s hm)

theorem validateManaged_eq_ok {declared : List Text} {u : Unit} :
    validateManaged declared = .ok u ↔ ∀ r ∈ declared, managedRuntimePath r = true := by
  induction declared with
  | nil => simp [validateManaged]
  | cons r rest ih =>
    simp only [validateManaged, bind_eq_ok, refuse_eq_ok, ih]
    simp

theorem validateDelete_eq_ok {declared delete : List Text} {u : Unit} :
    validateDelete declared delete = .ok u ↔
      ∀ r ∈ delete, Admitted r ∧ r ∉ declared := by
  induction delete with
  | nil => simp [validateDelete]
  | cons r rest ih =>
    simp only [validateDelete, bind_eq_ok, refuse_eq_ok, ih]
    constructor
    · rintro ⟨relative, hsafe, _, hdup, _, hman, hrest⟩ p hp
      obtain ⟨rfl, hs⟩ := Safe.of_ok hsafe
      cases List.mem_cons.mp hp with
      | inl h => exact h ▸ ⟨⟨hs, by simpa using hman⟩, hdup⟩
      | inr h => exact hrest p h
    · intro h
      have hr := h r (by simp)
      exact ⟨r, hr.1.safe, (), hr.2, (), by simp [hr.1.managed], fun p hp => h p (by simp [hp])⟩

/-- A manifest that `validate_manifest` accepts with these files. -/
structure Validated (manifest : Manifest) (archiveNames : List Text) (files : List FileEntry) :
    Prop where
  format : manifest.format = some 1
  packageType : manifest.packageType = some "runtime".toList
  deviceId : manifest.deviceId = some deviceId
  architecture : manifest.architecture = some architecture
  vendorRuntime : manifest.vendorRuntime = some vendorRuntime
  version : manifest.version ≠ none
  sourceVersion : manifest.sourceVersion ≠ none
  files_eq : manifest.files = some files
  entries : ∀ entry ∈ files, ValidEntry archiveNames entry
  distinct : (files.map (·.path)).Nodup
  expected : ∀ relative, payloadName relative ∈ archiveNames → relative ∈ files.map (·.path)
  bytes : manifest.payloadUncompressedBytes = some (declaredBytes files)
  managed : ∀ entry ∈ files, managedRuntimePath entry.path = true
  delete : ∀ r ∈ manifest.delete, Admitted r ∧ r ∉ files.map (·.path)

theorem validateManifest_eq_ok {manifest : Manifest} {archiveNames : List Text} {u : Unit} :
    validateManifest manifest archiveNames = .ok u ↔ ∃ files, Validated manifest archiveNames files := by
  unfold validateManifest
  simp only [bind_eq_ok, refuse_eq_ok, ne_eq, not_not, not_or]
  constructor
  · rintro ⟨_, h1, _, h2, _, h3, _, h4, _, h5, _, h6, _, h7, h8⟩
    split at h8
    · cases h8
    · rename_i files hfiles
      simp only [bind_eq_ok, refuse_eq_ok, Prod.exists, validateEntries_eq_ok] at h8
      obtain ⟨d, b, ⟨hall, hnodup, hdb⟩, _, hun, _, hbytes, _, hman, hdel⟩ := h8
      cases hdb
      simp only [not_not, List.append_nil] at hun hbytes hman hdel
      refine ⟨files, h1, h2, h3.1, h3.2, h4, h5, h6, hfiles, fun e he => (hall e he).1, hnodup,
        ?_, ?_, ?_, ?_⟩
      · simpa using unexpectedPayload_eq_nil.mp hun
      · obtain ⟨n, hn⟩ := Option.ne_none_iff_exists'.mp h7
        rw [hn] at hbytes ⊢
        simpa using hbytes.symm
      · intro e he
        exact validateManaged_eq_ok.mp hman _ (by simpa using ⟨e, he, rfl⟩)
      · simpa using validateDelete_eq_ok.mp hdel
  · rintro ⟨files, h⟩
    refine ⟨(), h.format, (), h.packageType, (), ⟨h.deviceId, h.architecture⟩, (), h.vendorRuntime,
      (), h.version, (), h.sourceVersion, (), by simp [h.bytes], ?_⟩
    rw [h.files_eq]
    simp only [bind_eq_ok, refuse_eq_ok, Prod.exists, validateEntries_eq_ok, not_not]
    refine ⟨_, _, ⟨fun e he => ⟨h.entries e he, by simp⟩, h.distinct, rfl⟩, (), ?_, (), ?_, (), ?_, ?_⟩
    · exact unexpectedPayload_eq_nil.mpr (by simpa using h.expected)
    · simp [h.bytes]
    · refine validateManaged_eq_ok.mpr fun r hr => ?_
      obtain ⟨e, he, rfl⟩ : ∃ e ∈ files, e.path = r := by simpa using hr
      exact h.managed e he
    · exact validateDelete_eq_ok.mpr (by simpa using h.delete)

theorem Validated.admitted {manifest : Manifest} {archiveNames : List Text}
    {files : List FileEntry} (h : Validated manifest archiveNames files) :
    ∀ r ∈ files.map (·.path) ++ manifest.delete, Admitted r := by
  intro r hr
  cases List.mem_append.mp hr with
  | inl hr =>
    obtain ⟨e, he, rfl⟩ := List.mem_map.mp hr
    exact ⟨(h.entries e he).safe, h.managed e he⟩
  | inr hr => exact (h.delete r hr).1

theorem mem_manifestOperations {files : List FileEntry} {delete : List Text} {o : Text × Bool} :
    o ∈ manifestOperations files delete ↔
      (o.2 = true ∧ o.1 ∈ files.map (·.path)) ∨ (o.2 = false ∧ o.1 ∈ delete) := by
  obtain ⟨p, b⟩ := o
  simp only [manifestOperations, List.mem_insertionSort, List.mem_append, List.mem_map]
  constructor
  · rintro (⟨e, he, h⟩ | ⟨d, hd, h⟩)
    · cases h
      exact Or.inl ⟨rfl, e, he, rfl⟩
    · cases h
      exact Or.inr ⟨rfl, hd⟩
  · rintro (⟨rfl, e, he, rfl⟩ | ⟨rfl, hd⟩)
    · exact Or.inl ⟨e, he, rfl⟩
    · exact Or.inr ⟨p, hd, rfl⟩

theorem manifestOperations_pairwise {manifest : Manifest} {archiveNames : List Text}
    {files : List FileEntry} (h : Validated manifest archiveNames files) :
    (manifestOperations files manifest.delete).Pairwise
      fun a b => a.1 = b.1 → a.2 = false ∧ b.2 = false := by
  unfold manifestOperations
  refine (List.Perm.pairwise_iff (fun hab he => (hab he.symm).symm)
    (List.perm_insertionSort _ _)).mpr ?_
  rw [List.pairwise_append]
  refine ⟨?_, ?_, ?_⟩
  · have := h.distinct
    rw [List.Nodup, List.pairwise_map] at this
    rw [List.pairwise_map]
    exact this.imp fun hne he => absurd he hne
  · rw [List.pairwise_map]
    exact List.pairwise_of_forall fun _ _ _ => ⟨rfl, rfl⟩
  · intro a ha b hb he
    obtain ⟨e, he', rfl⟩ := List.mem_map.mp ha
    obtain ⟨d, hd, rfl⟩ := List.mem_map.mp hb
    have hed : e.path = d := he
    exact absurd (hed ▸ List.mem_map.mpr ⟨e, he', rfl⟩) (h.delete d hd).2

theorem loadPackage_validated {package : Option PackageFile} {archive : Archive}
    {manifest : Manifest} (h : loadPackage package = .ok (archive, manifest)) :
    ∃ files, Validated manifest archive.names files := by
  unfold loadPackage at h
  split at h
  · cases h
  · split at h
    · cases h
    · rename_i file archive' _
      cases hload : loadArchive archive' with
      | error e => simp [hload, Except.map] at h
      | ok m =>
        obtain ⟨rfl, rfl⟩ : archive' = archive ∧ m = manifest := by
          simpa [hload, Except.map] using h
        simp only [loadArchive, bind_eq_ok] at hload
        obtain ⟨_, -, _, -, _, -, hmatch⟩ := hload
        cases hman : archive'.manifest with
        | none => simp [hman] at hmatch
        | some m' =>
          simp only [hman, bind_eq_ok] at hmatch
          obtain ⟨_, -, _, hval, hpure⟩ := hmatch
          cases hpure
          exact validateManifest_eq_ok.mp hval

/-! ### The order of the operations -/

theorem sortsBefore_total (a b : Text × Bool) : sortsBefore a b ∨ sortsBefore b a := by
  unfold sortsBefore
  rcases Nat.lt_trichotomy (runtimeSortKey a.1).1 (runtimeSortKey b.1).1 with h | h | h
  · exact Or.inl (Or.inl h)
  · cases le_total a.1 b.1 with
    | inl hle => exact Or.inl (Or.inr ⟨h, hle⟩)
    | inr hle => exact Or.inr (Or.inr ⟨h.symm, hle⟩)
  · exact Or.inr (Or.inl h)

theorem sortsBefore_trans {a b c : Text × Bool} (h : sortsBefore a b) (h' : sortsBefore b c) :
    sortsBefore a c := by
  unfold sortsBefore at h h' ⊢
  rcases h with h | ⟨h, hle⟩
  · rcases h' with h' | ⟨h', -⟩
    · exact Or.inl (h.trans h')
    · exact Or.inl (h' ▸ h)
  · rcases h' with h' | ⟨h', hle'⟩
    · exact Or.inl (h ▸ h')
    · exact Or.inr ⟨h.trans h', hle.trans hle'⟩

theorem manifestOperations_sorted (files : List FileEntry) (delete : List Text) :
    (manifestOperations files delete).Pairwise sortsBefore := by
  have : Std.Total sortsBefore := ⟨sortsBefore_total⟩
  have : IsTrans (Text × Bool) sortsBefore := ⟨fun _ _ _ => sortsBefore_trans⟩
  exact List.pairwise_insertionSort sortsBefore _

theorem le_append (s t : Text) : s ≤ s ++ t := by
  induction s with
  | nil =>
    cases t with
    | nil => exact le_rfl
    | cons c t => exact le_of_lt List.Lex.nil
  | cons c s ih => exact List.cons_le_cons c ih

theorem not_sortsBefore_of_nested {a b : Text × Bool} (ha : Admitted a.1) (hb : Admitted b.1)
    (h : Nested a.1 b.1) : ¬ sortsBefore b a := by
  obtain ⟨rest, hrest⟩ := h.text ha hb.safe
  have hslash : '/' ∈ b.1 := by simp [hrest]
  have hmeta : ∀ f ∈ metadataLast, '/' ∉ f ∧ f ∉ managedRoots ++ ["config".toList] := by decide
  have hbkey : (runtimeSortKey b.1).1 = 0 := by
    rw [runtimeSortKey, if_neg fun hm => (hmeta _ hm).1 hslash]
  have hakey : (runtimeSortKey a.1).1 = 0 := by
    rw [runtimeSortKey, if_neg]
    intro hm
    have hhead := managed_below hb.managed hslash
    rw [hrest, List.takeWhile_append_of_pos, List.takeWhile_cons_of_neg (by simp),
      List.append_nil] at hhead
    · exact (hmeta _ hm).2 hhead
    · intro c hc
      simpa using fun he : c = '/' => (hmeta _ hm).1 (he ▸ hc)
  rintro (hlt | ⟨-, hle⟩)
  · rw [hakey, hbkey] at hlt
    exact Nat.lt_irrefl 0 hlt
  · have hpre : a.1 ≤ b.1 := by
      rw [hrest]
      exact le_append a.1 ('/' :: rest)
    have heq := le_antisymm hle hpre
    exact h.2 (by rw [heq])

end PlumosBubble.Update
