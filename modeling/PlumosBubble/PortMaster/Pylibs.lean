import Mathlib.Logic.Relation
import PlumosBubble.PortMaster.Model

/-! `safe_extract_pylibs`, in the directory of PortMaster. Every call of the operating system may
fail, a write also in between, and the power may be cut behind any of them. -/

namespace PlumosBubble.PortMaster

open Scripts
open Update (Text)

abbrev Boot := Script Files Stop

section Calls

/-- A call of the operating system: it may fail, and does where `f` has no result. -/
def attempt (f : Files → Option Files) : Boot Unit := do
  let works ← Script.run fun s =>
    match f s with
    | some t => [(true, t), (false, s)]
    | none => [(false, s)]
  if works then pure () else .raise .osError

/-- A call that reads. -/
def inspect {β : Type} (f : Files → Option β) : Boot β := do
  let result ← Script.run fun s => [(f s, s), (none, s)]
  match result with
  | some b => pure b
  | none => .raise .osError

def Files.parentThere (path : List Text) (files : Files) : Bool :=
  path.dropLast = [] ∨ files.lookup path.dropLast = some .dir

/-- `os.mkdir`, where the directory is not there yet. -/
def Files.mkdir (path : List Text) (files : Files) : Option Files :=
  if files.parentThere path then Files.makeDir path files else none

/-- A file with this text; one that is there keeps its mode. -/
def Files.put (path : List Text) (text : Text) (files : Files) : Option Files :=
  if path ≠ [] ∧ files.parentThere path then
    match files.lookup path with
    | some .dir => none
    | some (.file _ executable) => some (files.insert path (.file text executable))
    | none => some (files.insert path (.file text false))
  else none

/-- `os.unlink` or `os.rmdir`, of something that has nothing in it. -/
def Files.remove (path : List Text) (files : Files) : Option Files :=
  if files.lookup path = none ∨ files.keys.any (fun key => path <+: key && key ≠ path) then none
  else some (files.erase path)

/-- `os.replace` of a file. -/
def Files.replaceFile (src dst : List Text) (files : Files) : Option Files :=
  match files.lookup src, files.lookup dst with
  | some (.file text executable), none | some (.file text executable), some (.file _ _) =>
    some ((files.erase src).insert dst (.file text executable))
  | _, _ => none

/-- What is written to a file that is open; it may end anywhere. -/
def fill (path : List Text) (source : Files → Option Text) : Boot Unit := do
  let works ← Script.run fun s =>
    match source s with
    | none => [(false, s)]
    | some text =>
      match Files.put path text s with
      | none => [(false, s)]
      | some t => (true, t) :: (List.range (text.length + 1)).filterMap fun n =>
        (Files.put path (text.take n) s).map (false, ·)
  if works then pure () else .raise .osError

end Calls

section Code

def pylibsZip : Text := "pylibs.zip".toList
def pylibsDigest : Text := "pylibs.zip.md5".toList
def pylibs : Text := "pylibs".toList
def exlibs : Text := "exlibs".toList

/-- `digest_path.with_name(f"{digest_path.name}.tmp.{os.getpid()}")`. -/
def digestTemp (pid : ℕ) : Text := pylibsDigest ++ ".tmp.".toList ++ decimal pid

/-- The bytes of the archive, where there is one. -/
def archiveBytes (files : Files) : Option Text :=
  match files.lookup [pylibsZip] with
  | some (.file bytes _) => some bytes
  | _ => none

/-- `member` is what reading a member gives, from the bytes as they now are. -/
structure Zip extends Library where
  member : Text → ZipEntry → Option Text
  member_self : ∀ {bytes : Text} {entries : List ZipEntry} {e : ZipEntry},
    unzip bytes = some entries → e ∈ entries → member bytes e = some e.text

/-- A member with an absolute name, one with `..` in it, or a symbolic link. -/
def ZipEntry.isUnsafe (e : ZipEntry) : Bool :=
  Update.isAbsolute e.filename ∨ ['.', '.'] ∈ e.filename.splitOn '/' ∨
    (e.externalAttr / 2 ^ 16) % 2 ^ 16 / 2 ^ 12 = 10

/-- `if target.exists(): shutil.rmtree(target)`, what is deepest first. -/
def removeTree (name : Text) : Boot Unit := do
  let there ← inspect fun files => some (files.lookup [name]).isSome
  if there then do
    let below ← inspect fun files =>
      match files.lookup [name] with
      | some .dir => some ((files.keys.filter fun key => [name] <+: key).insertionSort
          fun a b => b.length ≤ a.length)
      | _ => none
    Script.forEach (fun path => attempt (Files.remove path)) below
  else pure ()

/-- `ZipFile._extract_member`. -/
def extractMember (lib : Zip) (e : ZipEntry) : Boot Unit := do
  let path := memberPath e.filename
  Script.forEach (fun upper => attempt (Files.mkdir upper)) path.dropLast.inits
  if e.isDir then attempt (Files.mkdir path)
  else do
    attempt (Files.put path [])
    fill path fun files => (archiveBytes files).bind fun bytes => lib.member bytes e

/-- The part of `safe_extract_pylibs` behind the extraction. -/
def recordDigest (lib : Zip) (pid : ℕ) : Boot Unit := do
  let bytes ← inspect archiveBytes
  attempt (Files.put [digestTemp pid] [])
  fill [digestTemp pid] fun _ => some (lib.md5 bytes ++ ['\n'])
  attempt some
  attempt (Files.replaceFile [digestTemp pid] [pylibsDigest])
  attempt (Files.remove [pylibsZip])
  attempt some

/-- `safe_extract_pylibs`. -/
def safeExtractPylibs (lib : Zip) (pid : ℕ) : Boot Unit := do
  let archive ← inspect fun files => some (archiveBytes files)
  match archive with
  | none => pure ()
  | some bytes =>
    match lib.unzip bytes with
    | none => .raise .other
    | some entries =>
      if entries.any ZipEntry.isUnsafe then .raise .other
      else do
        Script.forEach removeTree [pylibs, exlibs]
        Script.forEach (extractMember lib) entries
        attempt some
        recordDigest lib pid

end Code

section Statement

/-- The directories that come with a member. -/
def ZipEntry.dirPath (e : ZipEntry) : List Text :=
  if e.isDir then memberPath e.filename else (memberPath e.filename).dropLast

/-- What an archive has at a path: the last file of this name, or a directory. -/
def archiveNode (entries : List ZipEntry) (path : List Text) : Option Node :=
  match (entries.filter fun e => !e.isDir && memberPath e.filename = path).getLast? with
  | some e => some (.file e.text false)
  | none => if entries.any (fun e => path <+: e.dirPath) then some .dir else none

/-- Everything is in a directory. -/
def IsTree (files : Files) : Prop :=
  ∀ path name, files.lookup (path ++ [name]) ≠ none → path = [] ∨ files.lookup path = some .dir

/-- A path to one of the two trees, or in it. -/
def InLibs (path : List Text) : Prop := path.head? = some pylibs ∨ path.head? = some exlibs

/-- The two trees are those of the archive. -/
def HasTrees (entries : List ZipEntry) (files : Files) : Prop :=
  ∀ path, InLibs path → files.lookup path = archiveNode entries path

/-- What a run that completes is to leave. -/
structure Extracted (lib : Zip) (bytes : Text) (entries : List ZipEntry) (files : Files) :
    Prop where
  trees : HasTrees entries files
  digest : ∃ executable,
    files.lookup [pylibsDigest] = some (.file (lib.md5 bytes ++ ['\n']) executable)
  archive : files.lookup [pylibsZip] = none

/-- No file of the archive is written over the archive. -/
def SparesArchive (entries : List ZipEntry) : Prop :=
  ∀ e ∈ entries, e.isDir = false → memberPath e.filename ≠ [pylibsZip]

/-- Any number of runs, each left anywhere. -/
def Interrupted (lib : Zip) (s t : Files) : Prop :=
  Relation.ReflTransGen (fun s t => ∃ pid, (safeExtractPylibs lib pid).Leaves s t) s t

end Statement

section Rules

variable {I : Files → Prop} {Q : Unit → Files → Prop} {s t : Files}

/-- An early end is always possible. -/
def AnyStop : Stop → Files → Prop := fun _ _ => True

theorem wp_attempt {f : Files → Option Files} (hs : I s)
    (hworks : ∀ t, f s = some t → I t ∧ Q () t) : wp I Q AnyStop (attempt f) s := by
  unfold attempt
  rw [wp_bind, wp_run]
  refine ⟨by split <;> simp, ?_⟩
  intro o ho
  cases hf : f s with
  | none =>
    rw [hf, List.mem_singleton] at ho
    rw [ho]
    exact ⟨hs, trivial⟩
  | some t =>
    rw [hf] at ho
    rcases mem_pair ho with rfl | rfl
    · exact hworks t hf
    · exact ⟨hs, trivial⟩

theorem wp_inspect {β : Type} {f : Files → Option β} {R : β → Files → Prop} (hs : I s)
    (hworks : ∀ b, f s = some b → R b s) : wp I R AnyStop (inspect f) s := by
  unfold inspect
  rw [wp_bind, wp_run]
  refine ⟨by simp, ?_⟩
  intro o ho
  rcases mem_pair ho with rfl | rfl
  · refine ⟨hs, ?_⟩
    cases hf : f s with
    | none => trivial
    | some b => exact hworks b hf
  · exact ⟨hs, trivial⟩

theorem wp_fill {path : List Text} {source : Files → Option Text} (hs : I s)
    (hpart : ∀ text t, Files.put path text s = some t → I t)
    (hworks : ∀ text t, source s = some text → Files.put path text s = some t → Q () t) :
    wp I Q AnyStop (fill path source) s := by
  unfold fill
  rw [wp_bind, wp_run]
  cases hsource : source s with
  | none =>
    refine ⟨by simp, fun o ho => ?_⟩
    rw [List.mem_singleton.mp ho]
    exact ⟨hs, trivial⟩
  | some text =>
    dsimp only
    cases hput : Files.put path text s with
    | none =>
      refine ⟨by simp, fun o ho => ?_⟩
      rw [List.mem_singleton.mp ho]
      exact ⟨hs, trivial⟩
    | some t =>
      refine ⟨by simp, fun o ho => ?_⟩
      rcases List.mem_cons.mp ho with rfl | ho
      · exact ⟨hpart text t hput, hworks text t hsource hput⟩
      · obtain ⟨n, -, hn⟩ := List.mem_filterMap.mp ho
        obtain ⟨u, hu, rfl⟩ := Option.map_eq_some_iff.mp hn
        exact ⟨hpart _ u hu, trivial⟩

end Rules

section Changes

variable {s t : Files} {path q : List Text} {text : Text}

theorem lookup_insert (s : Files) (path q : List Text) (node : Node) :
    (s.insert path node).lookup q = if q = path then some node else s.lookup q := by
  by_cases h : q = path
  · rw [if_pos h, h, AList.lookup_insert]
  · rw [if_neg h, AList.lookup_insert_ne h]

theorem lookup_erase (s : Files) (path q : List Text) :
    (s.erase path).lookup q = if q = path then none else s.lookup q := by
  by_cases h : q = path
  · rw [if_pos h, h, AList.lookup_erase]
  · rw [if_neg h, AList.lookup_erase_ne h]

theorem mkdir_spec (h : Files.mkdir path s = some t) :
    (∀ q, t.lookup q = if q ≠ [] ∧ q = path then some .dir else s.lookup q) ∧
      (path ≠ [] → s.lookup path = none ∨ s.lookup path = some .dir) ∧
        s.parentThere path = true := by
  unfold Files.mkdir at h
  split_ifs at h with hparent
  cases path with
  | nil =>
    cases h
    exact ⟨fun q => by rw [if_neg fun hq => hq.1 hq.2], fun hne => absurd rfl hne, hparent⟩
  | cons a path =>
    unfold Files.makeDir at h
    cases hthere : s.lookup (a :: path) with
    | none =>
      rw [hthere] at h
      cases h
      refine ⟨fun q => ?_, fun _ => Or.inl rfl, hparent⟩
      rw [lookup_insert]
      by_cases hq : q = a :: path
      · rw [if_pos hq, if_pos ⟨by rw [hq]; exact List.cons_ne_nil a path, hq⟩]
      · rw [if_neg hq, if_neg fun hand => hq hand.2]
    | some node =>
      rw [hthere] at h
      cases node with
      | file text executable => cases h
      | dir =>
        cases h
        refine ⟨fun q => ?_, fun _ => Or.inr rfl, hparent⟩
        by_cases hq : q ≠ [] ∧ q = a :: path
        · rw [if_pos hq, hq.2, hthere]
        · rw [if_neg hq]

/-- The mode of a file; a new one is not executable. -/
def modeOf : Option Node → Bool
  | some (.file _ executable) => executable
  | _ => false

theorem put_spec (h : Files.put path text s = some t) :
    (∀ q, t.lookup q =
      if q = path then some (.file text (modeOf (s.lookup path))) else s.lookup q) ∧
      s.lookup path ≠ some .dir ∧ path ≠ [] ∧ s.parentThere path = true := by
  unfold Files.put at h
  split_ifs at h with hparent
  cases hthere : s.lookup path with
  | none =>
    rw [hthere] at h
    cases h
    exact ⟨fun q => lookup_insert s path q _, by simp, hparent.1, hparent.2⟩
  | some node =>
    rw [hthere] at h
    cases node with
    | file text' executable =>
      cases h
      exact ⟨fun q => lookup_insert s path q _, by simp, hparent.1, hparent.2⟩
    | dir => cases h

theorem remove_spec (h : Files.remove path s = some t) :
    (∀ q, t.lookup q = if q = path then none else s.lookup q) ∧
      ∀ q, path <+: q → q ≠ path → s.lookup q = none := by
  unfold Files.remove at h
  split_ifs at h with hnone
  cases h
  rw [not_or] at hnone
  refine ⟨lookup_erase s path, fun q hq hne => ?_⟩
  rw [AList.lookup_eq_none]
  intro hthere
  exact hnone.2 (List.any_eq_true.mpr ⟨q, AList.mem_keys.mp hthere, by simp [hq, hne]⟩)

theorem replaceFile_spec {src dst : List Text} (h : Files.replaceFile src dst s = some t) :
    (∃ text executable, s.lookup src = some (.file text executable) ∧
      ∀ q, t.lookup q = if q = dst then some (.file text executable)
        else if q = src then none else s.lookup q) ∧ s.lookup dst ≠ some .dir := by
  have hmoved : ∀ text executable,
      some ((s.erase src).insert dst (.file text executable)) = some t → ∀ q,
        t.lookup q = if q = dst then some (.file text executable)
        else if q = src then none else s.lookup q := by
    intro text executable heq q
    cases heq
    rw [lookup_insert, lookup_erase]
  unfold Files.replaceFile at h
  split at h
  · rename_i text executable hsrc hdst
    exact ⟨⟨text, executable, hsrc, hmoved text executable h⟩, by rw [hdst]; simp⟩
  · rename_i text executable text' executable' hsrc hdst
    exact ⟨⟨text, executable, hsrc, hmoved text executable h⟩, by rw [hdst]; simp⟩
  · cases h

end Changes

section Ready

variable {s t : Files} {path : List Text} {text bytes : Text}

/-- A tree with these bytes in the archive. -/
structure Ready (bytes : Text) (files : Files) : Prop where
  tree : IsTree files
  archive : ∃ executable, files.lookup [pylibsZip] = some (.file bytes executable)

theorem archiveBytes_of_ready (h : Ready bytes s) : archiveBytes s = some bytes := by
  obtain ⟨executable, harchive⟩ := h.archive
  rw [archiveBytes, harchive]

theorem ready_of_archiveBytes (htree : IsTree s) (h : archiveBytes s = some bytes) :
    Ready bytes s := by
  unfold archiveBytes at h
  split at h
  · rename_i executable harchive
    cases h
    exact ⟨htree, executable, harchive⟩
  · cases h

theorem parent_of_there {name : Text} (h : s.parentThere (path ++ [name]) = true) :
    path = [] ∨ s.lookup path = some .dir := by
  rw [Files.parentThere, List.dropLast_concat] at h
  simpa using h

theorem isTree_mkdir (hs : IsTree s) (h : Files.mkdir path s = some t) : IsTree t := by
  obtain ⟨hlookup, -, hparent⟩ := mkdir_spec h
  intro p name hthere
  have hin : p = [] ∨ s.lookup p = some .dir := by
    rw [hlookup] at hthere
    by_cases hpath : p ++ [name] = path
    · rw [← hpath] at hparent
      exact parent_of_there hparent
    · rw [if_neg fun hand => hpath hand.2] at hthere
      exact hs p name hthere
  refine hin.imp_right fun hdir => ?_
  rw [hlookup]
  split
  · rfl
  · exact hdir

theorem isTree_put (hs : IsTree s) (h : Files.put path text s = some t) : IsTree t := by
  obtain ⟨hlookup, hfile, -, hparent⟩ := put_spec h
  intro p name hthere
  have hin : p = [] ∨ s.lookup p = some .dir := by
    rw [hlookup] at hthere
    by_cases hpath : p ++ [name] = path
    · rw [← hpath] at hparent
      exact parent_of_there hparent
    · rw [if_neg hpath] at hthere
      exact hs p name hthere
  refine hin.imp_right fun hdir => ?_
  rw [hlookup, if_neg, hdir]
  rintro rfl
  exact hfile hdir

theorem isTree_remove (hs : IsTree s) (h : Files.remove path s = some t) : IsTree t := by
  obtain ⟨hlookup, hempty⟩ := remove_spec h
  intro p name hthere
  rw [hlookup] at hthere
  by_cases hpath : p ++ [name] = path
  · rw [if_pos hpath] at hthere
    exact absurd rfl hthere
  · rw [if_neg hpath] at hthere
    refine (hs p name hthere).imp_right fun hdir => ?_
    rw [hlookup, if_neg, hdir]
    rintro rfl
    exact hthere (hempty _ (List.prefix_append p [name]) hpath)

theorem isTree_replaceFile {src : List Text} {name : Text} (hs : IsTree s)
    (h : Files.replaceFile src [name] s = some t) : IsTree t := by
  obtain ⟨⟨text, executable, hsrc, hlookup⟩, hdst⟩ := replaceFile_spec h
  intro p n hthere
  rw [hlookup] at hthere
  by_cases hp : p = []
  · exact Or.inl hp
  · have hlonger : p ++ [n] ≠ [name] := by
      cases p with
      | nil => exact absurd rfl hp
      | cons a p => simp
    rw [if_neg hlonger] at hthere
    by_cases hpn : p ++ [n] = src
    · rw [if_pos hpn] at hthere
      exact absurd rfl hthere
    · rw [if_neg hpn] at hthere
      rcases hs p n hthere with hnil | hdir
      · exact Or.inl hnil
      · right
        have hdst' : p ≠ [name] := by
          rintro rfl
          exact hdst hdir
        have hsrc' : p ≠ src := by
          rintro rfl
          rw [hsrc] at hdir
          cases hdir
        rw [hlookup, if_neg hdst', if_neg hsrc', hdir]

theorem ready_mkdir (hs : Ready bytes s) (h : Files.mkdir path s = some t) : Ready bytes t := by
  refine ⟨isTree_mkdir hs.tree h, ?_⟩
  obtain ⟨hlookup, hnew, -⟩ := mkdir_spec h
  obtain ⟨executable, harchive⟩ := hs.archive
  refine ⟨executable, ?_⟩
  rw [hlookup, if_neg, harchive]
  rintro ⟨hne, rfl⟩
  rcases hnew hne with hnone | hdir
  · rw [harchive] at hnone
    cases hnone
  · rw [harchive] at hdir
    cases hdir

theorem ready_put (hs : Ready bytes s) (hpath : path ≠ [pylibsZip])
    (h : Files.put path text s = some t) : Ready bytes t := by
  refine ⟨isTree_put hs.tree h, ?_⟩
  obtain ⟨hlookup, -⟩ := put_spec h
  obtain ⟨executable, harchive⟩ := hs.archive
  exact ⟨executable, by rw [hlookup, if_neg (Ne.symm hpath), harchive]⟩

theorem ready_remove (hs : Ready bytes s) (hpath : path ≠ [pylibsZip])
    (h : Files.remove path s = some t) : Ready bytes t := by
  refine ⟨isTree_remove hs.tree h, ?_⟩
  obtain ⟨hlookup, -⟩ := remove_spec h
  obtain ⟨executable, harchive⟩ := hs.archive
  exact ⟨executable, by rw [hlookup, if_neg (Ne.symm hpath), harchive]⟩

end Ready

section Trees

variable {s t : Files} {bytes : Text} {lib : Zip} {entries : List ZipEntry}

theorem lookup_below (hs : IsTree s) {name : Text} (hnone : s.lookup [name] = none)
    (below : List Text) : s.lookup (name :: below) = none := by
  induction below using List.reverseRecOn with
  | nil => exact hnone
  | append_singleton below last ih =>
    by_contra hthere
    rcases hs (name :: below) last hthere with hnil | hdir
    · cases hnil
    · rw [ih] at hdir
      cases hdir

theorem wp_removeTree {name : Text} (hname : name ≠ pylibsZip) (hs : Ready bytes s) :
    wp (Ready bytes) (fun _ t => Ready bytes t ∧
      (∀ path, path.head? = some name → t.lookup path = none) ∧
        ∀ path, path.head? ≠ some name → t.lookup path = s.lookup path) AnyStop
      (removeTree name) s := by
  unfold removeTree
  rw [wp_bind]
  refine wp_inspect hs fun there hthere => ?_
  obtain rfl : (s.lookup [name]).isSome = there := Option.some.inj hthere
  split
  · rw [wp_bind]
    refine wp_inspect hs fun below hbelow => ?_
    have hmem : ∀ path, path ∈ below ↔ path ∈ s.keys ∧ path.head? = some name := by
      split at hbelow
      · cases hbelow
        intro path
        rw [List.mem_insertionSort, List.mem_filter, decide_eq_true_eq]
        refine and_congr_right fun _ => ?_
        cases path with
        | nil => simp
        | cons a path => simp [List.cons_prefix_cons, eq_comm]
      · cases hbelow
    refine wp_mono (wp_forEach (fun rest t => Ready bytes t ∧
      (∀ path ∈ rest, path.head? = some name) ∧
      (∀ path, path.head? = some name → t.lookup path ≠ none → path ∈ rest) ∧
        ∀ path, path.head? ≠ some name → t.lookup path = s.lookup path) ?_ ?_ below ?_)
      (fun _ h => h) (fun _ _ h => h) (fun _ _ h => h)
    · rintro path rest t ⟨ht, hheads, hleft, hother⟩
      refine wp_attempt ht fun u hu => ?_
      obtain ⟨hlookup, -⟩ := remove_spec hu
      have hhead := hheads path List.mem_cons_self
      have hpath : path ≠ [pylibsZip] := by
        rintro rfl
        exact hname (Option.some.inj hhead).symm
      have hu' := ready_remove ht hpath hu
      refine ⟨hu', hu', fun p hp => hheads p (List.mem_cons_of_mem _ hp), fun p hp hthere => ?_,
        fun p hp => ?_⟩
      · rw [hlookup] at hthere
        by_cases hsame : p = path
        · rw [if_pos hsame] at hthere
          exact absurd rfl hthere
        · rw [if_neg hsame] at hthere
          exact (List.mem_cons.mp (hleft p hp hthere)).resolve_left hsame
      · rw [hlookup, if_neg, hother p hp]
        rintro rfl
        exact hp hhead
    · rintro t ⟨ht, -, hleft, hother⟩
      refine ⟨ht, fun path hpath => ?_, hother⟩
      by_contra hthere
      exact absurd (hleft path hpath hthere) List.not_mem_nil
    · refine ⟨hs, fun path hpath => ((hmem path).mp hpath).2, fun path hpath hthere => ?_,
        fun _ _ => rfl⟩
      refine (hmem path).mpr ⟨?_, hpath⟩
      rw [Ne, AList.lookup_eq_none] at hthere
      exact AList.mem_keys.mp (not_not.mp hthere)
  · rename_i hnone
    have hgone : s.lookup [name] = none := by simpa using hnone
    refine ⟨hs, fun path hpath => ?_, fun _ _ => rfl⟩
    cases path with
    | nil => cases hpath
    | cons a path =>
      obtain rfl : a = name := Option.some.inj hpath
      exact lookup_below hs.tree hgone path

/-- What extracting a member adds. -/
structure Adds (e : ZipEntry) (s t : Files) : Prop where
  lookup : ∀ q, t.lookup q = if e.isDir = false ∧ q = memberPath e.filename then
    some (.file e.text (modeOf (s.lookup q)))
    else if q ≠ [] ∧ q <+: e.dirPath then some .dir else s.lookup q
  free : ∀ q, q ≠ [] → q <+: e.dirPath → s.lookup q = none ∨ s.lookup q = some .dir

theorem wp_mkdirs (hs : Ready bytes s) (paths : List (List Text)) :
    wp (Ready bytes) (fun _ t => Ready bytes t ∧
      (∀ q, t.lookup q = if q ≠ [] ∧ q ∈ paths then some .dir else s.lookup q) ∧
        ∀ q ∈ paths, q ≠ [] → s.lookup q = none ∨ s.lookup q = some .dir) AnyStop
      (Script.forEach (fun path => attempt (Files.mkdir path)) paths) s := by
  refine wp_mono (wp_forEach (fun rest t => Ready bytes t ∧ ∃ done, paths = done ++ rest ∧
    (∀ q, t.lookup q = if q ≠ [] ∧ q ∈ done then some .dir else s.lookup q) ∧
      ∀ q ∈ done, q ≠ [] → s.lookup q = none ∨ s.lookup q = some .dir) ?_ ?_ paths ?_)
    (fun _ h => h) (fun _ _ h => h) (fun _ _ h => h)
  · rintro path rest t ⟨ht, done, rfl, hlookup, hfree⟩
    refine wp_attempt ht fun u hu => ?_
    obtain ⟨hnew, hwas, -⟩ := mkdir_spec hu
    have hu' := ready_mkdir ht hu
    refine ⟨hu', hu', done ++ [path], by simp, fun q => ?_, fun q hq hne => ?_⟩
    · rw [hnew, hlookup]
      by_cases hq : q ≠ [] ∧ q = path
      · rw [if_pos hq, if_pos ⟨hq.1, by simp [hq.2]⟩]
      · rw [if_neg hq]
        refine if_congr (and_congr_right fun hne => ?_) rfl rfl
        rw [List.mem_append, List.mem_singleton, or_iff_left fun h => hq ⟨hne, h⟩]
    · rcases List.mem_append.mp hq with hq | hq
      · exact hfree q hq hne
      · obtain rfl := List.mem_singleton.mp hq
        have hthere := hwas hne
        rw [hlookup] at hthere
        by_cases hdone : q ∈ done
        · exact hfree q hdone hne
        · rwa [if_neg fun hand => hdone hand.2] at hthere
  · rintro t ⟨ht, done, hdone, hlookup, hfree⟩
    rw [List.append_nil] at hdone
    rw [hdone]
    exact ⟨ht, hlookup, hfree⟩
  · exact ⟨hs, [], rfl, by simp, by simp⟩

theorem wp_extractMember {e : ZipEntry} (hself : lib.member bytes e = some e.text)
    (hspares : e.isDir = false → memberPath e.filename ≠ [pylibsZip]) (hs : Ready bytes s) :
    wp (Ready bytes) (fun _ t => Ready bytes t ∧ Adds e s t) AnyStop (extractMember lib e) s := by
  unfold extractMember
  dsimp only
  rw [wp_bind]
  refine wp_mono (wp_mkdirs hs _) (fun _ h => h) (fun _ t h => ?_) (fun _ _ h => h)
  obtain ⟨ht, hlookup, hfree⟩ := h
  simp only [List.mem_inits] at hlookup hfree
  have hfront : ∀ q : List Text, q <+: (memberPath e.filename).dropLast →
      q ≠ memberPath e.filename ∨ memberPath e.filename = [] := by
    rintro q hq
    by_cases hnil : memberPath e.filename = []
    · exact Or.inr hnil
    · left
      rintro rfl
      have hle := hq.length_le
      have hpos := List.length_pos_of_ne_nil hnil
      rw [List.length_dropLast] at hle
      omega
  cases hdir : e.isDir with
  | true =>
    have hpath : e.dirPath = memberPath e.filename := by rw [ZipEntry.dirPath, if_pos hdir]
    have hbelow : ∀ q : List Text, q <+: memberPath e.filename ↔
        q = memberPath e.filename ∨ q <+: (memberPath e.filename).dropLast := by
      intro q
      rcases List.eq_nil_or_concat (memberPath e.filename) with hnil | ⟨front, last, hlast⟩
      · rw [hnil]
        simp
      · rw [hlast, List.concat_eq_append, List.dropLast_concat]
        exact List.prefix_concat_iff
    rw [if_pos rfl]
    refine wp_attempt ht fun u hu => ?_
    obtain ⟨hnew, hwas, -⟩ := mkdir_spec hu
    have hu' := ready_mkdir ht hu
    refine ⟨hu', hu', fun q => ?_, fun q hne hq => ?_⟩
    · have hnot : ¬(e.isDir = false ∧ q = memberPath e.filename) := by
        rw [hdir]
        simp
      rw [hnew, hlookup, if_neg hnot, hpath]
      by_cases hq : q ≠ []
      · by_cases hsame : q = memberPath e.filename
        · rw [if_pos ⟨hq, hsame⟩, if_pos ⟨hq, (hbelow q).mpr (Or.inl hsame)⟩]
        · rw [if_neg fun h => hsame h.2]
          refine if_congr (and_congr_right fun _ => ?_) rfl rfl
          rw [hbelow, or_iff_right hsame]
      · rw [if_neg fun h => hq h.1, if_neg fun h => hq h.1, if_neg fun h => hq h.1]
    · rw [hpath, hbelow] at hq
      rcases hq with rfl | hq
      · have hthere := hwas hne
        rw [hlookup] at hthere
        by_cases hfresh : memberPath e.filename <+: (memberPath e.filename).dropLast
        · exact hfree _ hfresh hne
        · rwa [if_neg fun h => hfresh h.2] at hthere
      · exact hfree q hq hne
  | false =>
    have hpath : e.dirPath = (memberPath e.filename).dropLast := by
      rw [ZipEntry.dirPath, if_neg (by rw [hdir]; exact Bool.false_ne_true)]
    rw [if_neg Bool.false_ne_true, wp_bind]
    refine wp_attempt ht fun u hu => ?_
    obtain ⟨hopen, -, hne, -⟩ := put_spec hu
    have hu' := ready_put ht (hspares hdir) hu
    refine ⟨hu', wp_fill hu' (fun text v hv => ready_put hu' (hspares hdir) hv)
      fun text v htext hv => ?_⟩
    rw [archiveBytes_of_ready hu', Option.bind_some, hself] at htext
    cases htext
    obtain ⟨hwritten, -⟩ := put_spec hv
    refine ⟨ready_put hu' (hspares hdir) hv, fun q => ?_, fun q hq hin => ?_⟩
    · have hmode : modeOf (u.lookup (memberPath e.filename)) =
          modeOf (s.lookup (memberPath e.filename)) := by
        rw [hopen, if_pos rfl, hlookup, if_neg fun h => ((hfront _ h.2).resolve_right hne) rfl]
        rfl
      rw [hwritten]
      by_cases hsame : q = memberPath e.filename
      · rw [if_pos hsame, if_pos ⟨hdir, hsame⟩, hmode, hsame]
      · have hnot : ¬(e.isDir = false ∧ q = memberPath e.filename) := fun h => hsame h.2
        rw [if_neg hsame, hopen, if_neg hsame, hlookup, if_neg hnot, hpath]
    · rw [hpath] at hin
      exact hfree q hin hq

theorem hasTrees_append {done : List ZipEntry} {e : ZipEntry} (h : HasTrees done s)
    (hadds : Adds e s t) : HasTrees (done ++ [e]) t := by
  intro q hq
  have hne : q ≠ [] := by
    rintro rfl
    rcases hq with hnil | hnil <;> cases hnil
  have hwas := h q hq
  rw [hadds.lookup, archiveNode, List.filter_append, List.any_append]
  by_cases hfile : e.isDir = false ∧ q = memberPath e.filename
  · have hmode : modeOf (s.lookup q) = false := by
      rw [hwas, archiveNode]
      split
      · rfl
      · split <;> rfl
    rw [if_pos hfile, hmode]
    simp [hfile.1, hfile.2]
  · have hnot : (!e.isDir && decide (memberPath e.filename = q)) = false := by
      cases hdir : e.isDir with
      | true => rfl
      | false => simpa using fun heq => hfile ⟨hdir, heq.symm⟩
    have hfilter : [e].filter (fun e => !e.isDir && decide (memberPath e.filename = q)) = [] := by
      rw [List.filter_cons, hnot]
      rfl
    rw [if_neg hfile, hfilter, List.append_nil]
    by_cases hin : q <+: e.dirPath
    · rw [if_pos ⟨hne, hin⟩]
      have hfree := hadds.free q hne hin
      rw [hwas, archiveNode] at hfree
      split at hfree
      · simp at hfree
      · simp [hin]
    · rw [if_neg fun h => hin h.2, hwas, archiveNode]
      simp [hin]

end Trees

section Digest

variable {s t : Files} {bytes : Text} {lib : Zip} {entries : List ZipEntry} {pid : ℕ}

theorem digestTemp_ne (pid : ℕ) {name : Text} (h : name.length ≤ 14) : digestTemp pid ≠ name := by
  have hdigest : pylibsDigest.length = 14 ∧ ".tmp.".toList.length = 5 := by decide
  rintro rfl
  rw [digestTemp, List.length_append, List.length_append, hdigest.1, hdigest.2] at h
  omega

theorem ne_of_inLibs {q : List Text} {name : Text} (hq : InLibs q) (hpylibs : name ≠ pylibs)
    (hexlibs : name ≠ exlibs) : q ≠ [name] := by
  rintro rfl
  rcases hq with hhead | hhead
  · exact hpylibs (Option.some.inj hhead)
  · exact hexlibs (Option.some.inj hhead)

theorem hasTrees_congr (h : HasTrees entries s)
    (hsame : ∀ q, InLibs q → t.lookup q = s.lookup q) : HasTrees entries t :=
  fun q hq => (hsame q hq).trans (h q hq)

/-- The archive is as it was, or all is done. -/
def Midway (lib : Zip) (bytes : Text) (entries : List ZipEntry) (files : Files) : Prop :=
  Ready bytes files ∨ Extracted lib bytes entries files

theorem wp_recordDigest (hs : Ready bytes s) (htrees : HasTrees entries s) :
    wp (Midway lib bytes entries) (fun _ t => Extracted lib bytes entries t) AnyStop
      (recordDigest lib pid) s := by
  have hzip : digestTemp pid ≠ pylibsZip := digestTemp_ne pid (by decide)
  have hpylibs : digestTemp pid ≠ pylibs := digestTemp_ne pid (by decide)
  have hexlibs : digestTemp pid ≠ exlibs := digestTemp_ne pid (by decide)
  have hnames : pylibsDigest ≠ pylibs ∧ pylibsDigest ≠ exlibs ∧ pylibsZip ≠ pylibs ∧
      pylibsZip ≠ exlibs ∧ pylibsZip ≠ pylibsDigest := by decide
  have htemp : ([digestTemp pid] : List Text) ≠ [pylibsZip] := by simpa using hzip
  have hput : ∀ {s t : Files} {text : Text}, Ready bytes s → HasTrees entries s →
      Files.put [digestTemp pid] text s = some t → Ready bytes t ∧ HasTrees entries t := by
    intro s t text hs htrees h
    refine ⟨ready_put hs htemp h, hasTrees_congr htrees fun q hq => ?_⟩
    rw [(put_spec h).1, if_neg (ne_of_inLibs hq hpylibs hexlibs)]
  unfold recordDigest
  rw [wp_bind]
  refine wp_inspect (Or.inl hs) fun b hb => ?_
  rw [archiveBytes_of_ready hs, Option.some_inj] at hb
  subst hb
  rw [wp_bind]
  refine wp_attempt (Or.inl hs) fun t₁ h₁ => ?_
  obtain ⟨hs₁, htrees₁⟩ := hput hs htrees h₁
  refine ⟨Or.inl hs₁, ?_⟩
  rw [wp_bind]
  refine wp_fill (Or.inl hs₁) (fun text t h => Or.inl (hput hs₁ htrees₁ h).1)
    fun text t₂ htext h₂ => ?_
  obtain ⟨hs₂, htrees₂⟩ := hput hs₁ htrees₁ h₂
  cases htext
  rw [wp_bind]
  refine wp_attempt (Or.inl hs₂) fun t₃ h₃ => ?_
  cases h₃
  refine ⟨Or.inl hs₂, ?_⟩
  rw [wp_bind]
  refine wp_attempt (Or.inl hs₂) fun t₃ h₃ => ?_
  obtain ⟨⟨text, executable, hsrc, hlookup⟩, -⟩ := replaceFile_spec h₃
  have htext : text = lib.md5 bytes ++ ['\n'] := by
    rw [(put_spec h₂).1, if_pos rfl] at hsrc
    cases hsrc
    rfl
  subst htext
  have hs₃ : Ready bytes t₃ := by
    refine ⟨isTree_replaceFile hs₂.tree h₃, ?_⟩
    obtain ⟨mode, harchive⟩ := hs₂.archive
    refine ⟨mode, ?_⟩
    rw [hlookup, if_neg (by simpa using hnames.2.2.2.2), if_neg (Ne.symm htemp), harchive]
  have htrees₃ : HasTrees entries t₃ := by
    refine hasTrees_congr htrees₂ fun q hq => ?_
    rw [hlookup, if_neg (ne_of_inLibs hq hnames.1 hnames.2.1),
      if_neg (ne_of_inLibs hq hpylibs hexlibs)]
  refine ⟨Or.inl hs₃, ?_⟩
  rw [wp_bind]
  refine wp_attempt (Or.inl hs₃) fun t₄ h₄ => ?_
  obtain ⟨hgone, -⟩ := remove_spec h₄
  have hdone : Extracted lib bytes entries t₄ := by
    refine ⟨hasTrees_congr htrees₃ fun q hq => ?_, ⟨executable, ?_⟩, ?_⟩
    · rw [hgone, if_neg (ne_of_inLibs hq hnames.2.2.1 hnames.2.2.2.1)]
    · rw [hgone, if_neg (by simpa using Ne.symm hnames.2.2.2.2), hlookup, if_pos rfl]
    · rw [hgone, if_pos rfl]
  refine ⟨Or.inr hdone, wp_attempt (Or.inr hdone) fun t₅ h₅ => ?_⟩
  cases h₅
  exact ⟨Or.inr hdone, hdone⟩

theorem wp_safeExtractPylibs (hunzip : lib.unzip bytes = some entries)
    (hsafe : entries.any ZipEntry.isUnsafe = false) (hspares : SparesArchive entries)
    (hs : Midway lib bytes entries s) :
    wp (Midway lib bytes entries) (fun _ t => Extracted lib bytes entries t) AnyStop
      (safeExtractPylibs lib pid) s := by
  unfold safeExtractPylibs
  rw [wp_bind]
  refine wp_inspect hs fun archive harchive => ?_
  cases harchive
  rcases hs with hs | hs
  · have hnames : pylibs ≠ pylibsZip ∧ exlibs ≠ pylibsZip ∧ pylibs ≠ exlibs := by decide
    rw [archiveBytes_of_ready hs]
    dsimp only
    rw [hunzip]
    dsimp only
    rw [hsafe, if_neg Bool.false_ne_true, wp_bind, Script.forEach, wp_bind]
    refine wp_mono (wp_removeTree hnames.1 hs) (fun _ h => Or.inl h) (fun _ t₁ h₁ => ?_)
      (fun _ _ h => h)
    obtain ⟨hs₁, hpylibs, -⟩ := h₁
    rw [Script.forEach, wp_bind]
    refine wp_mono (wp_removeTree hnames.2.1 hs₁) (fun _ h => Or.inl h) (fun _ t₂ h₂ => ?_)
      (fun _ _ h => h)
    obtain ⟨hs₂, hexlibs, hother⟩ := h₂
    have hempty : HasTrees [] t₂ := by
      rintro path (hhead | hhead)
      · rw [hother path (by rw [hhead]; simpa using hnames.2.2), hpylibs path hhead]
        rfl
      · rw [hexlibs path hhead]
        rfl
    rw [Script.forEach, wp_pure]
    have hextract : wp (Ready bytes) (fun _ t => Ready bytes t ∧ HasTrees entries t) AnyStop
        (Script.forEach (extractMember lib) entries) t₂ := by
      refine wp_forEach (fun rest t => Ready bytes t ∧ ∃ done, entries = done ++ rest ∧
        HasTrees done t) ?_ ?_ entries ⟨hs₂, [], rfl, hempty⟩
      · rintro e rest t ⟨ht, done, hdone, htrees⟩
        have hmem : e ∈ entries := by
          rw [hdone]
          exact List.mem_append_right _ List.mem_cons_self
        refine wp_mono (wp_extractMember (lib.member_self hunzip hmem) (hspares e hmem) ht)
          (fun _ h => h) (fun _ u hu => ?_) (fun _ _ h => h)
        refine ⟨hu.1, done ++ [e], ?_, hasTrees_append htrees hu.2⟩
        rw [hdone, List.append_assoc, List.singleton_append]
      · rintro t ⟨ht, done, hdone, htrees⟩
        rw [List.append_nil] at hdone
        rw [hdone]
        exact ⟨ht, htrees⟩
    rw [wp_bind]
    refine wp_mono hextract (fun _ h => Or.inl h) (fun _ t₃ h₃ => ?_) (fun _ _ h => h)
    rw [wp_bind]
    refine wp_attempt (Or.inl h₃.1) fun t₄ h₄ => ?_
    cases h₄
    exact ⟨Or.inl h₃.1, wp_recordDigest h₃.1 h₃.2⟩
  · have hnone : archiveBytes s = none := by
      rw [archiveBytes, hs.archive]
    rw [hnone]
    exact hs

end Digest

section Interruptions

variable {s t u : Files} {bytes : Text} {lib : Zip} {entries : List ZipEntry} {pid : ℕ}

theorem midway_interrupted (hunzip : lib.unzip bytes = some entries)
    (hsafe : entries.any ZipEntry.isUnsafe = false) (hspares : SparesArchive entries)
    (hs : Midway lib bytes entries s) (h : Interrupted lib s t) :
    Midway lib bytes entries t := by
  induction h with
  | refl => exact hs
  | tail _ hrun ih =>
    obtain ⟨pid, hleaves⟩ := hrun
    exact leaves_of_wp (wp_safeExtractPylibs hunzip hsafe hspares ih) ih hleaves

theorem wp_refused (harchive : archiveBytes s = some bytes)
    (hunzip : lib.unzip bytes = some entries) (hrefused : entries.any ZipEntry.isUnsafe = true) :
    wp (fun t => t = s) (fun _ t => t = s) AnyStop (safeExtractPylibs lib pid) s := by
  unfold safeExtractPylibs
  rw [wp_bind]
  refine wp_inspect rfl fun archive heq => ?_
  rw [harchive] at heq
  cases heq
  dsimp only
  rw [hunzip]
  dsimp only
  rw [if_pos hrefused]
  trivial

theorem unsafe_stays (harchive : archiveBytes s = some bytes)
    (hunzip : lib.unzip bytes = some entries) (hrefused : entries.any ZipEntry.isUnsafe = true)
    (h : Interrupted lib s t) : t = s := by
  induction h with
  | refl => rfl
  | tail _ hrun ih =>
    obtain ⟨pid, hleaves⟩ := hrun
    rw [ih] at hleaves
    have hsame := leaves_of_wp (wp_refused harchive hunzip hrefused) rfl hleaves
    exact hsame

theorem extracted_of_returns (htree : IsTree s) (harchive : archiveBytes s = some bytes)
    (hunzip : lib.unzip bytes = some entries)
    (hsafe : entries.any ZipEntry.isUnsafe = false) (hspares : SparesArchive entries)
    (h : Interrupted lib s t) (hreturn : (safeExtractPylibs lib pid).Returns t () u) :
    Extracted lib bytes entries u := by
  have hready := ready_of_archiveBytes htree harchive
  have ht := midway_interrupted hunzip hsafe hspares (Or.inl hready) h
  have hwp : wp (Midway lib bytes entries) (fun _ t => Extracted lib bytes entries t) AnyStop
      (safeExtractPylibs lib pid) t := wp_safeExtractPylibs hunzip hsafe hspares ht
  have hdone := returns_of_wp hwp ht hreturn
  exact hdone

end Interruptions

end PlumosBubble.PortMaster
