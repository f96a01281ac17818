import Mathlib.Logic.Function.Basic
import PlumosBubble.Script.Basic
import PlumosBubble.Transition.Run
import PlumosBubble.Update.Text

/-! `plumos-library-index-media` in the starts of the frontend: the library index that is kept
for damaged media is one of these media, where no start ends between a new index and the record
of its owner while that record names other media. -/

namespace PlumosBubble.Frontend.MediaIndex

open Scripts Transition
open Update (Text)

section Keys

/-- A file of `key=value` lines, by their first two fields. -/
abbrev Fields := List (Text × Text)

/-- `awk -F= '$1 == key { print $2; exit }'`. -/
def fieldValue (fields : Fields) (key : String) : Text :=
  ((fields.find? fun field => field.1 = key.toList).map Prod.snd).getD []

/-- The health status and the identity of SD2, where they are readable. -/
structure Media where
  status : Option Fields
  identity : Option Fields

/-- `${device##*/}`. -/
def baseName (device : Text) : Text := (device.reverse.takeWhile (· ≠ '/')).reverse

/-- `[A-Za-z0-9_.-]`. -/
def isKeyChar (c : Char) : Bool := c.isAlphanum || c ∈ ['_', '.', '-']

def uuidKey (identity : Fields) : Option Text :=
  let uuid := fieldValue identity "uuid"
  if uuid ≠ [] ∧ uuid.all (fun c => isKeyChar c || c = '+') then some ("uuid-".toList ++ uuid)
  else none

/-- `media_key`; it fails without a status. -/
def Media.key (media : Media) : Option Text :=
  media.status.map fun status =>
    let key :=
      if fieldValue status "mount_path" = "/run/media/sd2".toList then
        (media.identity.bind uuidKey).getD []
      else []
    let key := if key = [] then "device-".toList ++ baseName (fieldValue status "device") else key
    key.map fun c => if isKeyChar c then c else '_'

def Media.damaged (media : Media) : Bool :=
  match media.status with
  | none => false
  | some status => fieldValue status "result" ∈ ["dirty".toList, "inconsistent".toList]

end Keys

/-- An index: what a scan made, with the `media_key` at the time, or a copy that was cut off. -/
inductive Index where
  | scan (key : Option Text)
  | broken
  deriving DecidableEq

/-- The index, the copies by key, and the owner on record. `replaced` tells of an index that the
present start has put in place and not recorded yet; nothing reads it. -/
structure State where
  index : Option Index
  indexNew : Option Index
  cache : Text → Option Index
  cacheNew : Text → Option Index
  owner : Option Text
  ownerNew : Option Text
  replaced : Bool

/-- A script that ends with a failure under `set -e`. -/
abbrev Sh := Script State Unit

section Commands

def command (f : State → State) : Sh Unit := do
  let ok ← Script.run fun s => [(true, f s), (false, s)]
  if ok then pure () else Script.raise ()

/-- `cp`, which can leave a part of the file. -/
def copy (f : Option Index → State → State) (source : State → Option Index) : Sh Unit := do
  let ok ← Script.run fun s => [(true, f (source s) s), (false, f (some .broken) s)]
  if ok then pure () else Script.raise ()

def State.setCacheNew (s : State) (key : Text) (index : Option Index) : State :=
  { s with cacheNew := Function.update s.cacheNew key index }

def State.moveCache (s : State) (key : Text) : State :=
  { s with cache := Function.update s.cache key (s.cacheNew key) }

def writeOwner (key : Text) : Sh Unit := do
  command fun s => { s with ownerNew := some key }
  command fun s => { s with owner := s.ownerNew, replaced := false }

/-- The index of the cache comes back. -/
def restore (key : Text) : Sh Unit := do
  copy (fun index s => { s with indexNew := index }) fun s => s.cache key
  command fun s => { s with index := s.indexNew, replaced := true }
  writeOwner key

/-- `prepare` for damaged media. -/
def prepareDamaged (key : Text) (owner : Option Text) : Sh Bool := do
  let present ← Script.read fun s => s.index.isSome
  if present && owner = some key then pure true
  else do
    let cached ← Script.read fun s => (s.cache key).isSome
    if cached then do
      restore key
      pure true
    else pure false

/-- `prepare`: whether it answers `preserved`. -/
def prepare (media : Media) : Sh Bool :=
  match media.key with
  | none => Script.raise ()
  | some key => do
    let owner ← Script.read State.owner
    command id
    if media.damaged then prepareDamaged key owner else pure false

/-- `record`. -/
def record (media : Media) : Sh Unit := do
  let present ← Script.read fun s => s.index.isSome
  if present then
    match media.key with
    | none => Script.raise ()
    | some key => do
      command id
      copy (fun index s => s.setCacheNew key index) State.index
      command fun s => s.moveCache key
      writeOwner key
  else Script.raise ()

/-- `plumos-library-scan`: it completes, or it ends early with or without a new index. -/
def scan (media : Media) : Sh Bool :=
  Script.run fun s =>
    let new := { s with index := some (.scan media.key), replaced := true }
    [(true, new), (false, new), (false, s)]

/-- The scan decision of a start, with the tool installed or not. -/
def decision (media : Media) (installed : Bool) : Sh Bool := do
  Script.run fun s => [((), { s with replaced := false })]
  if installed then (prepare media).handle fun _ => pure false else pure false

def scanAndRecord (media : Media) (installed : Bool) : Sh Unit := do
  let complete ← scan media
  if complete && installed then (record media).handle fun _ => pure () else pure ()

/-- A start of the frontend. -/
def start (media : Media) (installed : Bool) : Sh Unit := do
  let preserved ← decision media installed
  if preserved then pure () else scanAndRecord media installed

end Commands

/-- The index is as it was or recorded, or the owner on record is no other one. -/
def Settled (media : Media) (s : State) : Prop :=
  s.replaced = false ∨ s.owner = none ∨ s.owner = media.key

/-- A start that can end anywhere. -/
def Started (s : State) (e : Media × Bool) (t : State) : Prop := (start e.1 e.2).Leaves s t

/-- One that ends settled. -/
def SettledStart (s : State) (e : Media × Bool) (t : State) : Prop :=
  Started s e t ∧ Settled e.1 t

/-- Nothing is recorded. -/
def State.fresh (index : Option Index) : State where
  index := index
  indexNew := none
  cache _ := none
  cacheNew _ := none
  owner := none
  ownerNew := none
  replaced := false

section Kept

/-- The index and the copies belong to whom they are recorded for. -/
structure Right (s : State) : Prop where
  cached : ∀ key index, s.cache key = some index → index = .scan (some key)
  owned : ∀ key, s.owner = some key → s.index = some (.scan (some key))

/-- All through a start: an index that is not recorded yet is one of the media inserted. -/
structure Kept (media : Media) (s : State) : Prop where
  cached : ∀ key index, s.cache key = some index → index = .scan (some key)
  owned : s.replaced = false → ∀ key, s.owner = some key → s.index = some (.scan (some key))
  new : s.replaced = true → s.index = some (.scan media.key)

variable {media : Media} {s : State} {key : Text} {installed : Bool}

theorem Kept.right (hs : Kept media s) (hend : Settled media s) : Right s := by
  refine ⟨hs.cached, fun key howner => ?_⟩
  cases hnew : s.replaced with
  | false => exact hs.owned hnew key howner
  | true =>
    rw [hs.new hnew]
    rcases hend with h | h | h
    · rw [hnew] at h
      cases h
    · rw [howner] at h
      cases h
    · rw [← h, howner]

theorem wp_command {I : State → Prop} {Q : Unit → State → Prop} {E : Unit → State → Prop}
    {f : State → State} (hs : I s) (hE : E () s) (hf : I (f s)) (hQ : Q () (f s)) :
    wp I Q E (command f) s := by
  unfold command
  rw [wp_bind, wp_run]
  refine ⟨by simp, fun o ho => ?_⟩
  simp only [List.mem_cons, List.not_mem_nil, or_false] at ho
  rcases ho with rfl | rfl
  · exact ⟨hf, hQ⟩
  · exact ⟨hs, hE⟩

theorem wp_copy {I : State → Prop} {Q : Unit → State → Prop} {E : Unit → State → Prop}
    {f : Option Index → State → State} {source : State → Option Index}
    (hf : ∀ index, I (f index s)) (hE : E () (f (some .broken) s))
    (hQ : Q () (f (source s) s)) : wp I Q E (copy f source) s := by
  unfold copy
  rw [wp_bind, wp_run]
  refine ⟨by simp, fun o ho => ?_⟩
  simp only [List.mem_cons, List.not_mem_nil, or_false] at ho
  rcases ho with rfl | rfl
  · exact ⟨hf _, hQ⟩
  · exact ⟨hf _, hE⟩

theorem wp_writeOwner (hs : Kept media s) (hindex : s.index = some (.scan (some key))) :
    wp (Kept media)
      (fun _ t => Kept media t ∧ t.index = some (.scan (some key))) (fun _ => Kept media)
      (writeOwner key) s := by
  unfold writeOwner
  rw [wp_bind]
  have hwritten : Kept media { s with ownerNew := some key } := ⟨hs.cached, hs.owned, hs.new⟩
  apply wp_command hs hs hwritten
  have hmoved : Kept media
      { s with ownerNew := some key, owner := some key, replaced := false } := by
    refine ⟨hs.cached, fun _ key' h => ?_, fun h => by cases h⟩
    cases h
    exact hindex
  exact wp_command hwritten hwritten hmoved ⟨hmoved, hindex⟩

theorem wp_restore (hs : Kept media s) (hkey : media.key = some key)
    (hcached : (s.cache key).isSome) :
    wp (Kept media)
      (fun _ t => Kept media t ∧ t.index = some (.scan (some key))) (fun _ => Kept media)
      (restore key) s := by
  obtain ⟨index, hindex⟩ := Option.isSome_iff_exists.mp hcached
  have hscan : s.cache key = some (.scan (some key)) := by
    rw [hindex, hs.cached key index hindex]
  have hcopied : ∀ index, Kept media { s with indexNew := index } :=
    fun _ => ⟨hs.cached, hs.owned, hs.new⟩
  unfold restore
  rw [wp_bind]
  apply wp_copy hcopied (hcopied _)
  rw [wp_bind]
  have hmoved : Kept media
      { s with indexNew := s.cache key, index := s.cache key, replaced := true } := by
    refine ⟨hs.cached, (fun h => by cases h), fun _ => ?_⟩
    rw [hkey]
    exact hscan
  exact wp_command (hcopied _) (hcopied _) hmoved (wp_writeOwner hmoved hscan)

/-- The answer `preserved` is given for an index of these media. -/
def Answered (media : Media) (preserved : Bool) (s : State) : Prop :=
  Kept media s ∧ (preserved = true →
    ∃ key, media.key = some key ∧ s.index = some (.scan (some key)))

theorem wp_prepare (hs : Kept media s) (hold : s.replaced = false) :
    wp (Kept media) (Answered media) (fun _ => Kept media) (prepare media) s := by
  have hscan : ∀ {t}, Kept media t → Answered media false t :=
    fun ht => ⟨ht, fun h => by cases h⟩
  unfold prepare
  split
  · exact hs
  · rename_i key hkey
    rw [wp_bind, wp_read]
    refine ⟨hs, ?_⟩
    rw [wp_bind]
    apply wp_command hs hs hs
    split
    · unfold prepareDamaged
      rw [wp_bind, wp_read]
      refine ⟨hs, ?_⟩
      split
      · rename_i hactive
        rw [Bool.and_eq_true, decide_eq_true_eq] at hactive
        exact ⟨hs, fun _ => ⟨key, hkey, hs.owned hold key hactive.2⟩⟩
      · rw [wp_bind, wp_read]
        refine ⟨hs, ?_⟩
        split
        · rename_i hcached
          rw [wp_bind]
          apply wp_mono (wp_restore hs hkey hcached) (fun _ h => h) ?_ fun _ _ h => h
          exact fun _ t ht => ⟨ht.1, fun _ => ⟨key, hkey, ht.2⟩⟩
        · exact hscan hs
    · exact hscan hs

theorem wp_record (hs : Kept media s) (hnew : s.replaced = true) :
    wp (Kept media) (fun _ => Kept media) (fun _ => Kept media) (record media) s := by
  have hindex := hs.new hnew
  unfold record
  rw [wp_bind, wp_read]
  refine ⟨hs, ?_⟩
  split
  · split
    · exact hs
    · rename_i key hkey
      rw [hkey] at hindex
      have hcopied : ∀ index, Kept media (s.setCacheNew key index) :=
        fun _ => ⟨hs.cached, hs.owned, hs.new⟩
      rw [wp_bind]
      apply wp_command hs hs hs
      rw [wp_bind]
      apply wp_copy hcopied (hcopied _)
      rw [wp_bind]
      have hmoved : Kept media ((s.setCacheNew key s.index).moveCache key) := by
        refine ⟨fun key' index h => ?_, hs.owned, hs.new⟩
        by_cases hk : key' = key
        · subst hk
          simp only [State.moveCache, State.setCacheNew, Function.update_self, hindex,
            Option.some.injEq] at h
          exact h.symm
        · simp only [State.moveCache, Function.update_of_ne hk] at h
          exact hs.cached key' index h
      apply wp_command (hcopied _) (hcopied _) hmoved
      exact wp_mono (wp_writeOwner hmoved hindex) (fun _ h => h) (fun _ _ h => h.1)
        fun _ _ h => h
  · exact hs

theorem wp_decision (hs : Right s) :
    wp (Kept media) (Answered media) (fun _ _ => False) (decision media installed) s := by
  have hbegun : Kept media { s with replaced := false } :=
    ⟨hs.cached, fun _ => hs.owned, fun h => by cases h⟩
  have hno : ∀ {t}, Kept media t → Answered media false t :=
    fun ht => ⟨ht, fun h => by cases h⟩
  unfold decision
  rw [wp_bind, wp_run]
  refine ⟨by simp, fun o ho => ?_⟩
  rw [List.mem_singleton.mp ho]
  refine ⟨hbegun, ?_⟩
  split
  · rw [wp_handle]
    exact wp_mono (wp_prepare hbegun rfl) (fun _ h => h) (fun _ _ h => h) fun _ _ ht => hno ht
  · exact hno hbegun

theorem wp_scanAndRecord (hs : Kept media s) :
    wp (Kept media) (fun _ => Kept media) (fun _ _ => False) (scanAndRecord media installed)
      s := by
  have hscanned : Kept media { s with index := some (.scan media.key), replaced := true } :=
    ⟨hs.cached, (fun h => by cases h), fun _ => rfl⟩
  unfold scanAndRecord scan
  rw [wp_bind, wp_run]
  refine ⟨by simp, fun o ho => ?_⟩
  simp only [List.mem_cons, List.not_mem_nil, or_false] at ho
  rcases ho with rfl | rfl | rfl
  · refine ⟨hscanned, ?_⟩
    split
    · rw [wp_handle]
      exact wp_mono (wp_record hscanned rfl) (fun _ h => h) (fun _ _ h => h) fun _ _ ht => ht
    · exact hscanned
  · exact ⟨hscanned, hscanned⟩
  · exact ⟨hs, hs⟩

theorem wp_start (hs : Right s) :
    wp (Kept media) (fun _ => Kept media) (fun _ _ => False) (start media installed) s := by
  unfold start
  rw [wp_bind]
  apply wp_mono (wp_decision hs) (fun _ h => h) ?_ fun _ _ h => h
  intro preserved t ht
  split
  · exact ht.1
  · exact wp_scanAndRecord ht.1

end Kept

section Starts

variable {s t : State} {es : List (Media × Bool)} {media : Media} {installed : Bool}

theorem SettledStart.right {e : Media × Bool} (h : SettledStart s e t) (hs : Right s) :
    Right t := by
  have hwp : wp (fun u => Kept e.1 u ∨ Right u) (fun _ => Kept e.1) (fun _ _ => False)
      (start e.1 e.2) s :=
    wp_mono (wp_start hs) (fun _ hu => Or.inl hu) (fun _ _ h => h) fun _ _ h => h
  rcases leaves_of_wp hwp (Or.inr hs) h.1 with ht | ht
  · exact ht.right h.2
  · exact ht

theorem fresh_right (index : Option Index) : Right (.fresh index) :=
  ⟨(fun _ _ h => by cases h), fun _ h => by cases h⟩

/-- After any settled starts, cut anywhere, `preserved` is the answer for an index that a scan
of media with this key made. -/
theorem preserved_right {index : Option Index} (hrun : Run SettledStart (.fresh index) es s)
    (hanswer : (decision media installed).Returns s true t) :
    ∃ key, media.key = some key ∧ t.index = some (.scan (some key)) := by
  have hs : Right s := hrun.keeps (fresh_right index) fun hs hstep => hstep.right hs
  have hwp : wp (fun _ => True) (Answered media) (fun _ _ => False)
      (decision media installed) s :=
    wp_mono (wp_decision hs) (fun _ _ => trivial) (fun _ _ h => h) fun _ _ h => h
  exact (returns_of_wp hwp trivial hanswer).2 rfl

def fieldsOf (lines : List (String × String)) : Fields :=
  lines.map fun line => (line.1.toList, line.2.toList)

/-- SD2 with errors on it. -/
def dirtyCard : Media where
  status := some (fieldsOf [("result", "dirty"), ("mount_path", "/run/media/sd2"),
    ("device", "/dev/mmcblk3p1")])
  identity := some (fieldsOf [("uuid", "130C-1033")])

/-- No SD2. -/
def noCard : Media where
  status := some (fieldsOf [("result", "observed"), ("mount_path", "/storage"),
    ("device", "/dev/mmcblk1p3")])
  identity := some (fieldsOf [("uuid", "130C-1033")])

/-- A start with the listed outcomes. -/
def played (choices : List ℕ) (media : Media) (s : State) : State :=
  (Script.play choices (start media true) s).2

/-- The outcomes of a start that scans and records. -/
def recording : List ℕ := List.replicate 13 0

theorem started_played (choices : List ℕ) (media : Media) (s : State) :
    Started s (media, true) (played choices media s) :=
  Script.leaves_play choices _ s

/-- The card is recorded, then found to be damaged. -/
theorem preserved_right_sample :
    ∃ key, dirtyCard.key = some key ∧
      (Script.play [0, 0, 0, 0] (decision dirtyCard true)
        (played recording dirtyCard (.fresh none))).2.index = some (.scan (some key)) := by
  have hstart : SettledStart (.fresh none) (dirtyCard, true)
      (played recording dirtyCard (.fresh none)) :=
    ⟨started_played _ _ _, Or.inl (by decide +kernel)⟩
  exact preserved_right (.single hstart) (Script.returns_play (by decide +kernel))

/-- The card is recorded; a start without it is cut off after its scan; with the card again, the
index of that scan is the one that is preserved. -/
theorem other_index_preserved : ∃ es s t,
    Run Started (.fresh none) es s ∧ (decision dirtyCard true).Returns s true t ∧
    dirtyCard.key ≠ noCard.key ∧ t.index = some (.scan noCard.key) := by
  have hrun := (Run.single (started_played recording dirtyCard (.fresh none))).concat
    (started_played [0, 0, 0, 0] noCard _)
  have hanswer : (decision dirtyCard true).Returns
      (played [0, 0, 0, 0] noCard (played recording dirtyCard (.fresh none))) true _ :=
    @Script.returns_play _ _ _ [0, 0, 0, 0] _ _ _ (by decide +kernel)
  exact ⟨_, _, _, hrun, hanswer, by decide +kernel, by decide +kernel⟩

end Starts

end PlumosBubble.Frontend.MediaIndex
