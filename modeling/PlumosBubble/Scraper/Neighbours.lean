import Mathlib.Algebra.BigOperators.Group.List.Basic
import Mathlib.Algebra.Group.Nat.Defs
import Mathlib.Algebra.Group.Pi.Basic
import PlumosBubble.Scraper.CrcWorker

/-! What a worker writes for a ROM, beside what it would write for this ROM alone. The search for
the index files of a system that has none overwrites the variables of the system before, which
still counts as ready. -/

namespace PlumosBubble.Scraper

open Frontend Sequence

variable {Payload : Type} {a : Around Payload}

namespace Around

/-- All index files of the system are there. -/
def Available (a : Around Payload) (system : CString) : Prop :=
  (a.indexesOf system).dat ≠ [] ∧ (a.indexesOf system).thumb ≠ [] ∧
    (a.indexesOf system).base ≠ []

/-- What a worker writes for a ROM that it gets alone: this depends on the ROM, its
`lookup_system` and the index files of this system. -/
def alone (a : Around Payload) (line : QueueLine) : Outcome :=
  (a.process Cache.fresh line []).1

/-- The variables of a worker behind some lines. -/
def cacheBehind (a : Around Payload) (lines : List QueueLine) : Cache :=
  lines.foldl a.nextCache Cache.fresh

/-- Where the system of a ROM counts as ready, but the variables are those of another one, the
lookups in the files of the latter give what those in its own do, and no line of the queue is
read. -/
def Careful (a : Around Payload) (cache : Cache) (line : QueueLine) (rest : List QueueLine) :
    Prop :=
  ∀ system single payload, a.prepare line = .payload system single payload →
    cache.ready = true → cache.system = system → cache.indexes ≠ a.indexesOf system →
      a.computePayloadCrc32 system payload ≠ [] →
        a.lookups cache.indexes (a.computePayloadCrc32 system payload) rest =
          a.lookups (a.indexesOf system) (a.computePayloadCrc32 system payload) rest

/-- No ROM sees those around it: each is processed once, as if it were alone, whatever the queue,
its order and the number of workers. -/
structure Independent (a : Around Payload) (workerCount : ℕ) (queue : List QueueLine) :
    Prop where
  each : ∀ w ∈ List.range' 1 workerCount,
    a.fetchCrcWorker (splitWorkerQueue workerCount queue w) =
      (splitWorkerQueue workerCount queue w).map fun line => (line, a.alone line)
  once : (a.fetchCrc workerCount queue).Perm (queue.map fun line => (line, a.alone line))
  totals : aggregateCrcResults (a.fetchCrc workerCount queue) =
    (queue.filterMap fun line => (a.alone line).row).sum
  candidates : (downloadQueue (a.fetchCrc workerCount queue)).Perm
    (queue.filterMap fun line => (a.alone line).candidate)

/-! ### Reading the queue -/

theorem readQueue_left (key : CString) (stdin : List QueueLine) :
    Left stdin (a.readQueue key stdin).2 := by
  have hle := (List.dropWhile_suffix (fun line => !a.same line.aliasDir key)
    (l := stdin)).length_le
  unfold readQueue
  cases hdrop : stdin.dropWhile fun line => !a.same line.aliasDir key with
  | nil =>
    cases stdin with
    | nil => exact Left.all []
    | cons line rest => exact Or.inr (Nat.zero_lt_succ _)
  | cons line rest =>
    have hleft := a.left_length rest
    rw [hdrop, List.length_cons] at hle
    right
    show (a.left rest).length < stdin.length
    omega

theorem lookup_left (index key : CString) (stdin : List QueueLine) :
    Left stdin (a.lookup index key stdin).2 := by
  unfold lookup
  by_cases hindex : index = []
  · rw [if_pos hindex]
    exact readQueue_left key stdin
  · rw [if_neg hindex]
    exact Left.all stdin

theorem lookups_left (indexes : Indexes) (crc : CString) (stdin : List QueueLine) :
    Left stdin (a.lookups indexes crc stdin).2 := by
  have hcanonical : Left stdin (a.lookupCrcName indexes.dat crc stdin).2 :=
    lookup_left indexes.dat crc stdin
  unfold lookups
  by_cases hname : (a.lookupCrcName indexes.dat crc stdin).1 = []
  · rw [if_pos hname]
    exact hcanonical
  · have hhref := hcanonical.trans (lookup_left (a := a) indexes.thumb
      (a.lookupCrcName indexes.dat crc stdin).1 (a.lookupCrcName indexes.dat crc stdin).2)
    rw [if_neg hname]
    dsimp only
    split
    · exact hhref
    · split <;> exact hhref

theorem process_left (cache : Cache) (line : QueueLine) (stdin : List QueueLine) :
    Left stdin (a.process cache line stdin).2 := by
  unfold process
  cases a.prepare line with
  | skipped => exact Left.all stdin
  | settled row => exact Left.all stdin
  | payload system single payload =>
    dsimp only
    split
    · exact Left.all stdin
    · exact lookups_left _ _ _

theorem lookups_of_files {indexes : Indexes} (hdat : indexes.dat ≠ [])
    (hthumb : indexes.thumb ≠ []) (crc : CString) (stdin : List QueueLine) :
    a.lookups indexes crc stdin = ((a.lookups indexes crc []).1, stdin) := by
  have hname : ∀ stdin, a.lookupCrcName indexes.dat crc stdin =
      (a.firstField (a.rows indexes.dat) crc, stdin) := fun _ => if_neg hdat
  have hhref : ∀ name stdin, a.lookupThumbHref indexes.thumb name stdin =
      (a.firstField (a.rows indexes.thumb) name, stdin) := fun _ _ => if_neg hthumb
  unfold lookups
  simp only [hname, hhref]
  split
  · rfl
  · split
    · rfl
    · split <;> rfl

/-! ### The variables of a worker -/

/-- The ready system has its files, and a failed one has not. -/
structure Sound (a : Around Payload) (cache : Cache) : Prop where
  ready : cache.ready = true → a.Available cache.system
  failed : ∀ system ∈ cache.failed, ¬a.Available system

theorem sound_fresh : Sound a Cache.fresh where
  ready := fun h => absurd h Bool.false_ne_true
  failed := fun _ h => absurd h List.not_mem_nil

theorem not_available_iff (system : CString) :
    ((a.indexesOf system).dat = [] ∨ (a.indexesOf system).thumb = [] ∨
      (a.indexesOf system).base = []) ↔ ¬a.Available system := by
  unfold Available
  rw [not_and_or, not_and_or, not_not, not_not, not_not]

theorem ensured_cases {cache : Cache} (h : Sound a cache) (system : CString) :
    cache.ready = true ∧ cache.system = system ∧ a.ensured cache system = (cache, true) ∨
      ¬a.Available system ∧ (a.ensured cache system).2 = false ∧
        Sound a (a.ensured cache system).1 ∨
      a.Available system ∧ (a.ensured cache system).2 = true ∧
        (a.ensured cache system).1.indexes = a.indexesOf system ∧
        (a.ensured cache system).1.system = system ∧ Sound a (a.ensured cache system).1 := by
  unfold ensured
  by_cases hready : (cache.ready && cache.system = system) = true
  · rw [if_pos hready]
    rw [Bool.and_eq_true, decide_eq_true_eq] at hready
    exact Or.inl ⟨hready.1, hready.2, rfl⟩
  · rw [if_neg hready]
    by_cases hfailed : system ∈ cache.failed
    · rw [if_pos hfailed]
      exact Or.inr (Or.inl ⟨h.failed system hfailed, rfl, h⟩)
    · rw [if_neg hfailed]
      by_cases havailable : a.Available system
      · rw [if_neg ((not_available_iff system).not.mpr (not_not.mpr havailable))]
        exact Or.inr (Or.inr ⟨havailable, rfl, rfl, rfl, fun _ => havailable, h.failed⟩)
      · rw [if_pos ((not_available_iff system).mpr havailable)]
        refine Or.inr (Or.inl ⟨havailable, rfl, h.ready, fun other hother => ?_⟩)
        rcases List.mem_append.mp hother with hold | hnew
        · exact h.failed other hold
        · rwa [List.mem_singleton.mp hnew]

theorem sound_next {cache : Cache} (h : Sound a cache) (line : QueueLine) :
    Sound a (a.nextCache cache line) := by
  unfold nextCache
  cases a.prepare line with
  | skipped => exact h
  | settled row => exact h
  | payload system single payload =>
    dsimp only
    rcases ensured_cases h system with ⟨-, -, heq⟩ | ⟨-, -, hsound⟩ | ⟨-, -, -, -, hsound⟩
    · rw [heq]
      exact h
    · exact hsound
    · exact hsound

theorem sound_behind (lines : List QueueLine) : Sound a (a.cacheBehind lines) := by
  unfold cacheBehind
  induction lines using List.reverseRecOn with
  | nil => exact sound_fresh
  | append_singleton lines line ih =>
    rw [List.foldl_append]
    exact sound_next ih line

/-- The files of a ready system are at hand. -/
def AtHand (a : Around Payload) (cache : Cache) : Prop :=
  cache.ready = true → cache.indexes = a.indexesOf cache.system

/-- Among the lines is a ROM whose system lacks files. -/
def Lacking (a : Around Payload) (lines : List QueueLine) : Prop :=
  ∃ line ∈ lines, ∃ system single payload,
    a.prepare line = .payload system single payload ∧ ¬a.Available system

theorem atHand_behind (lines : List QueueLine) :
    a.AtHand (a.cacheBehind lines) ∨ a.Lacking lines := by
  induction lines using List.reverseRecOn with
  | nil => exact Or.inl fun hready => absurd hready Bool.false_ne_true
  | append_singleton lines line ih =>
    have hbehind : a.cacheBehind (lines ++ [line]) = a.nextCache (a.cacheBehind lines) line := by
      unfold cacheBehind
      rw [List.foldl_append]
      rfl
    have hsame : a.nextCache (a.cacheBehind lines) line = a.cacheBehind lines →
        a.AtHand (a.nextCache (a.cacheBehind lines) line) ∨ a.Lacking (lines ++ [line]) := by
      intro heq
      rw [heq]
      rcases ih with hhand | ⟨other, hmem, hother⟩
      · exact Or.inl hhand
      · exact Or.inr ⟨other, List.mem_append_left _ hmem, hother⟩
    rw [hbehind]
    cases hprepare : a.prepare line with
    | skipped => exact hsame (by simp [nextCache, hprepare])
    | settled row => exact hsame (by simp [nextCache, hprepare])
    | payload system single payload =>
      have hnext : a.nextCache (a.cacheBehind lines) line =
          (a.ensured (a.cacheBehind lines) system).1 := by
        unfold nextCache
        rw [hprepare]
      rcases ensured_cases (sound_behind lines) system with ⟨-, -, heq⟩ | ⟨hnot, -, -⟩ |
        ⟨-, -, hindexes, hsystem, -⟩
      · exact hsame (by rw [hnext, heq])
      · exact Or.inr ⟨line, by simp, system, single, payload, hprepare, hnot⟩
      · rw [hnext]
        exact Or.inl fun _ => by rw [hindexes, hsystem]

theorem careful_of_not_lacking {before : List QueueLine} (h : ¬a.Lacking before)
    (line : QueueLine) (rest : List QueueLine) :
    a.Careful (a.cacheBehind before) line rest := by
  intro system single payload _ hready hsystem hne _
  have hindexes := (atHand_behind before).resolve_right h hready
  exact absurd (hsystem ▸ hindexes) hne

/-! ### One ROM -/

theorem row_injective {found other : Found} {single : Bool}
    (h : found.row single = other.row single) (hhref : found.href = other.href) :
    found = other := by
  have htoNat : ∀ b c : Bool, b.toNat = c.toNat → b = c := by decide
  have hmatched := htoNat _ _ (congrFun h 1)
  have hno := htoNat _ _ (congrFun h 2)
  have hcrc := htoNat _ _ (congrFun h 3)
  have hthumbnail := htoNat _ _ (congrFun h 4)
  have hrescued := htoNat _ _ (congrFun h 7)
  have hexternal := htoNat _ _ (congrFun h 8)
  cases found
  cases other
  simp_all

theorem candidate_injective {line : QueueLine} {system href other : CString}
    (h : a.candidate line system href = a.candidate line system other) : href = other := by
  unfold candidate at h
  by_cases hhref : href = []
  · by_cases hother : other = []
    · exact hhref.trans hother.symm
    · rw [if_pos hhref, if_neg hother] at h
      cases h
  · by_cases hother : other = []
    · rw [if_neg hhref, if_pos hother] at h
      cases h
    · rw [if_neg hhref, if_neg hother] at h
      exact (Candidate.mk.inj (Option.some.inj h)).2.1

theorem process_of_missing {cache : Cache} {line : QueueLine} {system : CString} {single : Bool}
    {payload : Payload} (hprepare : a.prepare line = .payload system single payload)
    (hmissing : (a.ensured cache system).2 = false ∨ a.computePayloadCrc32 system payload = [])
    (stdin : List QueueLine) :
    a.process cache line stdin = (⟨some (skippedToolRow single), none⟩, stdin) := by
  unfold process
  rw [hprepare]
  exact if_pos hmissing

theorem process_of_found {cache : Cache} {line : QueueLine} {system : CString} {single : Bool}
    {payload : Payload} (hprepare : a.prepare line = .payload system single payload)
    (havailable : (a.ensured cache system).2 = true)
    (hcrc : a.computePayloadCrc32 system payload ≠ []) (stdin : List QueueLine) :
    a.process cache line stdin =
      let found := a.lookups (a.ensured cache system).1.indexes
        (a.computePayloadCrc32 system payload) stdin
      (⟨some (found.1.row single), a.candidate line system found.1.href⟩, found.2) := by
  unfold process
  rw [hprepare]
  refine if_neg ?_
  rw [not_or, havailable]
  exact ⟨Bool.noConfusion, hcrc⟩

theorem ensured_fresh {system : CString} (h : a.Available system) :
    (a.ensured Cache.fresh system).2 = true ∧
      (a.ensured Cache.fresh system).1.indexes = a.indexesOf system := by
  rcases ensured_cases sound_fresh system with ⟨hready, -, -⟩ | ⟨hnot, -, -⟩ |
    ⟨-, htrue, hindexes, -, -⟩
  · exact absurd hready Bool.false_ne_true
  · exact absurd h hnot
  · exact ⟨htrue, hindexes⟩

theorem ensured_fresh_of_not {system : CString} (h : ¬a.Available system) :
    (a.ensured Cache.fresh system).2 = false := by
  rcases ensured_cases sound_fresh system with ⟨hready, -, -⟩ | ⟨-, hfalse, -⟩ |
    ⟨havailable, -, -, -, -⟩
  · exact absurd hready Bool.false_ne_true
  · exact hfalse
  · exact absurd havailable h

theorem alone_of_found {line : QueueLine} {system : CString} {single : Bool} {payload : Payload}
    (hprepare : a.prepare line = .payload system single payload) (h : a.Available system)
    (hcrc : a.computePayloadCrc32 system payload ≠ []) :
    a.alone line =
      let found := (a.lookups (a.indexesOf system) (a.computePayloadCrc32 system payload) []).1
      ⟨some (found.row single), a.candidate line system found.href⟩ := by
  unfold alone
  rw [process_of_found hprepare (ensured_fresh h).1 hcrc, (ensured_fresh h).2]

/-- The lookups in the files at hand give what is written for the ROM alone, and read nothing,
exactly if they are those in its own files. -/
theorem found_eq_alone_iff {line : QueueLine} {system : CString} {single : Bool}
    {payload : Payload} (hprepare : a.prepare line = .payload system single payload)
    (h : a.Available system) (hcrc : a.computePayloadCrc32 system payload ≠ [])
    (found : Found × List QueueLine) (stdin : List QueueLine) :
    ((⟨some (found.1.row single), a.candidate line system found.1.href⟩, found.2) :
        Outcome × List QueueLine) = (a.alone line, stdin) ↔
      found = a.lookups (a.indexesOf system) (a.computePayloadCrc32 system payload) stdin := by
  rw [alone_of_found hprepare h hcrc, lookups_of_files h.1 h.2.1 _ stdin]
  constructor
  · intro heq
    obtain ⟨houtcome, hrest⟩ := Prod.mk.inj heq
    obtain ⟨hrow, hcandidate⟩ := Outcome.mk.inj houtcome
    exact Prod.ext (row_injective (Option.some.inj hrow) (candidate_injective hcandidate)) hrest
  · intro heq
    rw [heq]

/-- The step lemma: a ROM is processed as if it were alone exactly if the condition is met. -/
theorem process_eq_alone_iff {cache : Cache} (h : Sound a cache) (line : QueueLine)
    (rest : List QueueLine) :
    a.process cache line rest = (a.alone line, rest) ↔ a.Careful cache line rest := by
  unfold Careful
  cases hprepare : a.prepare line with
  | skipped =>
    refine iff_of_true ?_ fun _ _ _ heq => by cases heq
    unfold alone process
    rw [hprepare]
  | settled row =>
    refine iff_of_true ?_ fun _ _ _ heq => by cases heq
    unfold alone process
    rw [hprepare]
  | payload system single payload =>
    by_cases hcrc : a.computePayloadCrc32 system payload = []
    · refine iff_of_true ?_ fun _ _ _ heq _ _ _ hne => ?_
      · unfold alone
        rw [process_of_missing hprepare (Or.inr hcrc), process_of_missing hprepare (Or.inr hcrc)]
      · cases heq
        exact absurd hcrc hne
    · rcases ensured_cases h system with ⟨hready, hsystem, heq⟩ | ⟨hnot, hfalse, -⟩ |
        ⟨havailable, htrue, hindexes, -, -⟩
      · have havailable : a.Available system := hsystem ▸ h.ready hready
        have htrue : (a.ensured cache system).2 = true := by rw [heq]
        rw [process_of_found hprepare htrue hcrc, heq,
          found_eq_alone_iff hprepare havailable hcrc]
        constructor
        · intro hsame _ _ _ hpayload _ _ _ _
          cases hpayload
          exact hsame
        · intro hall
          by_cases hindexes : cache.indexes = a.indexesOf system
          · rw [hindexes]
          · exact hall system single payload rfl hready hsystem hindexes hcrc
      · refine iff_of_true ?_ fun _ _ _ heq hready hsystem _ _ => ?_
        · unfold alone
          rw [process_of_missing hprepare (Or.inl hfalse),
            process_of_missing hprepare (Or.inl (ensured_fresh_of_not hnot))]
        · cases heq
          exact absurd (hsystem ▸ h.ready hready) hnot
      · refine iff_of_true ?_ fun _ _ _ heq hready hsystem hne _ => ?_
        · rw [process_of_found hprepare htrue hcrc, hindexes,
            found_eq_alone_iff hprepare havailable hcrc]
        · cases heq
          have hensured : a.ensured cache system = (cache, true) := by
            unfold ensured
            rw [if_pos (by simp [hready, hsystem])]
          rw [hensured] at hindexes
          exact absurd hindexes hne

theorem fetchCrcWorker_iff (queue : List QueueLine) :
    a.fetchCrcWorker queue = queue.map (fun line => (line, a.alone line)) ↔
      ∀ before line rest, queue = before ++ line :: rest →
        a.Careful (a.cacheBehind before) line rest := by
  unfold fetchCrcWorker
  rw [consume_eq_map_iff process_left (Nat.le_refl _)]
  refine forall_congr' fun before => forall_congr' fun line => forall_congr' fun rest =>
    imp_congr_right fun _ => ?_
  exact process_eq_alone_iff (sound_behind before) line rest

end Around

/-! ### All workers -/

theorem flatMap_single {α β : Type} [DecidableEq α] {xs : List α} {i : α} (hi : i ∈ xs)
    (hxs : xs.Nodup) (y : β) : xs.flatMap (fun x => if x = i then [y] else []) = [y] := by
  induction xs with
  | nil => cases hi
  | cons x xs ih =>
    obtain ⟨hx, hnodup⟩ := List.nodup_cons.mp hxs
    rw [List.flatMap_cons]
    by_cases heq : x = i
    · subst heq
      have hrest : xs.flatMap (fun z => if z = x then [y] else []) = [] := by
        rw [List.flatMap_eq_nil_iff]
        intro z hz
        refine if_neg fun hzx => hx ?_
        rwa [← hzx]
      rw [if_pos rfl, hrest, List.append_nil]
    · rw [if_neg heq, List.nil_append]
      exact ih ((List.mem_cons.mp hi).resolve_left fun h => heq h.symm) hnodup

theorem splitWorkerQueueFrom_perm {workerCount i : ℕ} (hi : i ∈ List.range' 1 workerCount)
    (queue : List QueueLine) :
    ((List.range' 1 workerCount).flatMap (splitWorkerQueueFrom workerCount i queue)).Perm
      queue := by
  induction queue generalizing i with
  | nil => simp [splitWorkerQueueFrom]
  | cons line queue ih =>
    have hnext : (if i + 1 > workerCount then 1 else i + 1) ∈ List.range' 1 workerCount := by
      rw [List.mem_range'_1] at hi ⊢
      split <;> omega
    have hone := flatMap_single hi List.nodup_range' line
    have hboth := List.flatMap_append_perm (List.range' 1 workerCount)
      (fun w => if w = i then [line] else [])
      (splitWorkerQueueFrom workerCount (if i + 1 > workerCount then 1 else i + 1) queue)
    rw [hone] at hboth
    exact hboth.symm.trans ((ih hnext).cons line)

theorem splitWorkerQueue_perm {workerCount : ℕ} (h : 0 < workerCount) (queue : List QueueLine) :
    ((List.range' 1 workerCount).flatMap (splitWorkerQueue workerCount queue)).Perm queue :=
  splitWorkerQueueFrom_perm (by rw [List.mem_range'_1]; omega) queue

namespace Around

theorem independent_of_each {workerCount : ℕ} (hcount : 0 < workerCount) {queue : List QueueLine}
    (h : ∀ w ∈ List.range' 1 workerCount,
      a.fetchCrcWorker (splitWorkerQueue workerCount queue w) =
        (splitWorkerQueue workerCount queue w).map fun line => (line, a.alone line)) :
    a.Independent workerCount queue := by
  have honce : (a.fetchCrc workerCount queue).Perm
      (queue.map fun line => (line, a.alone line)) := by
    unfold fetchCrc
    rw [List.flatMap_congr h, ← List.map_flatMap]
    exact (splitWorkerQueue_perm hcount queue).map _
  refine ⟨h, honce, ?_, ?_⟩
  · have htotals := (honce.filterMap (·.2.row)).sum_eq
    rw [List.filterMap_map] at htotals
    exact htotals
  · unfold downloadQueue
    have hqueue := honce.filterMap (·.2.candidate)
    rwa [List.filterMap_map] at hqueue

/-- The ROMs of a queue are processed each as if it were alone, for this number of workers and
this order, exactly if no worker comes back to a ready system behind the search for one without
index files, or the lookups that it then makes in what it has at hand are the same and read no
line of its queue. -/
theorem independent_iff (a : Around Payload) {workerCount : ℕ} (hcount : 0 < workerCount)
    (queue : List QueueLine) :
    a.Independent workerCount queue ↔ ∀ w ∈ List.range' 1 workerCount, ∀ before line rest,
      splitWorkerQueue workerCount queue w = before ++ line :: rest →
        a.Careful (a.cacheBehind before) line rest := by
  constructor
  · intro h w hw
    exact (fetchCrcWorker_iff _).mp (h.each w hw)
  · intro h
    exact independent_of_each hcount fun w hw => (fetchCrcWorker_iff _).mpr (h w hw)

theorem independent_of_not_lacking {workerCount : ℕ} (hcount : 0 < workerCount)
    {queue : List QueueLine} (h : ¬a.Lacking queue) : a.Independent workerCount queue := by
  refine independent_of_each hcount fun w hw => (fetchCrcWorker_iff _).mpr ?_
  intro before line rest hsplit
  refine careful_of_not_lacking (fun ⟨other, hother, hlacks⟩ => h ⟨other, ?_, hlacks⟩) line rest
  have hmem : other ∈ (List.range' 1 workerCount).flatMap (splitWorkerQueue workerCount queue) := by
    rw [List.mem_flatMap]
    exact ⟨w, hw, by rw [hsplit]; exact List.mem_append_left _ hother⟩
  exact (splitWorkerQueue_perm hcount queue).mem_iff.mp hmem

theorem Independent.same {workerCount workerCount' : ℕ} {queue queue' : List QueueLine}
    (h : a.Independent workerCount queue) (h' : a.Independent workerCount' queue')
    (hqueue : queue.Perm queue') :
    aggregateCrcResults (a.fetchCrc workerCount queue) =
        aggregateCrcResults (a.fetchCrc workerCount' queue') ∧
      (downloadQueue (a.fetchCrc workerCount queue)).Perm
        (downloadQueue (a.fetchCrc workerCount' queue')) := by
  constructor
  · rw [h.totals, h'.totals]
    exact (hqueue.filterMap _).sum_eq
  · exact h.candidates.trans ((hqueue.filterMap _).trans h'.candidates.symm)

end Around

/-- A card on which the system gbc has its index files, and gb has none. -/
def card : Around Unit where
  fetchSystemId := lit "gbc"
  extensions := [lit "gbc", lit "gb"]
  imageRoot := lit "/i"
  preloadDir := lit "/p"
  cacheDir := lit "/c"
  kind := lit "k"
  sources := [(lit "gbc", lit "G", lit "G.dat")]
  members := fun _ => []
  unzipMember := fun _ _ => none
  unzipAll := fun _ => none
  contents := fun _ => ()
  computePayloadCrc32 := fun _ _ => lit "0a"
  hasBytes := fun path => path ∈ [lit "/p/dat/gbc.crc.tsv", lit "/p/thumb-names/gbc/k.tsv"]
  rows := fun path =>
    if path = lit "/p/dat/gbc.crc.tsv" then [(lit "0a", lit "Tetris")]
    else [(lit "Tetris", lit "t.png")]
  fetches := fun _ => false
  same := fun x y => x = y
  left := id
  left_length := fun _ => Nat.le_refl _

def rom (name : CString) : QueueLine := ⟨lit "/r", lit "/r/" ++ name, []⟩

/-- The last ROM comes back to gbc behind one of gb. -/
def shelf : List QueueLine := [rom (lit "a.gbc"), rom (lit "b.gb"), rom (lit "c.gbc")]

/-- Two workers take the ROMs of the two systems apart. -/
theorem independent_sample : card.Independent 2 shelf := by
  refine (Around.independent_iff card (by decide) shelf).mpr ?_
  have hready : card.Available (lit "gbc") :=
    ⟨by decide +kernel, by decide +kernel, by decide +kernel⟩
  have hgbc : card.prepare (rom (lit "a.gbc")) = .payload (lit "gbc") false () := rfl
  intro w hw before line rest hsplit
  have hfirst : ∀ other ∈ before, other = rom (lit "a.gbc") := by
    have htwo : w = 1 ∨ w = 2 := by
      rw [List.mem_range'_1] at hw
      omega
    cases before with
    | nil => simp
    | cons first before =>
      cases before with
      | nil =>
        rcases htwo with rfl | rfl
        · have hheads : rom (lit "a.gbc") = first := (List.cons.inj hsplit).1
          simp [hheads]
        · simp [shelf, splitWorkerQueue, splitWorkerQueueFrom] at hsplit
      | cons second before =>
        have hlength := congrArg List.length hsplit
        rcases htwo with rfl | rfl <;>
          simp [shelf, splitWorkerQueue, splitWorkerQueueFrom] at hlength
  refine Around.careful_of_not_lacking ?_ line rest
  rintro ⟨other, hother, system, single, payload, hprepare, hnot⟩
  rw [hfirst other hother, hgbc] at hprepare
  cases hprepare
  exact hnot hready

/-- With one worker the last ROM is looked for in no file, and is not found; with two, or with the
ROM of gb at the end, there is a cover for it. -/
theorem lost_behind_gb : ¬card.Independent 1 shelf ∧
    Around.aggregateCrcResults (card.fetchCrc 1 shelf) 10 = 1 ∧
    Around.aggregateCrcResults (card.fetchCrc 2 shelf) 10 = 2 ∧
    Around.aggregateCrcResults
      (card.fetchCrc 1 [rom (lit "a.gbc"), rom (lit "c.gbc"), rom (lit "b.gb")]) 10 = 2 := by
  refine ⟨fun h => ?_, by decide +kernel, by decide +kernel, by decide +kernel⟩
  exact absurd (congrFun h.totals 10) (by decide +kernel)

end PlumosBubble.Scraper
