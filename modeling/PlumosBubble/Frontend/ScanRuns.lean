import PlumosBubble.Frontend.ScanWriter

/-! Scans with one output keep the list intact where one of them at a time uses the temporary
path, none renames after a failed write, the directory is synced, and a run with thumbnails
renames when the runs that were started before it have ended. -/

namespace PlumosBubble.Frontend

open Scripts Transition

theorem pwrite_end {text data : CString} {position : ℕ} (h : position = text.length) :
    pwrite text position data = text ++ data := by
  simp [pwrite, h]

theorem takeWhile_concat {xs : List ℕ} {i j : ℕ} (h : j ∈ xs) :
    (xs ++ [i]).takeWhile (· ≠ j) = xs.takeWhile (· ≠ j) := by
  induction xs with
  | nil => cases h
  | cons x xs ih =>
    by_cases hx : x = j
    · simp [hx]
    · have hj : j ∈ xs := (List.mem_cons.mp h).resolve_left (Ne.symm hx)
      simpa [List.takeWhile_cons, hx] using ih hj

section Protocol

variable (runs : ℕ → ScanRun)

/-- The invariant of all runs. -/
structure ScanInv (s : ScanFiles) : Prop where
  tempFile : ∀ fd, s.temp = some fd → fd < s.next ∧ s.cache ≠ some fd
  cacheFile : ∀ fd, s.cache = some fd → fd < s.next
  one : ∀ i j, s.writing i = true → s.writing j = true → i = j
  inPlace : s.cacheText = s.placed.head?.map Prod.snd
  complete : ∀ e ∈ s.placed, e.2 = (runs e.1).document
  succeeded : ∀ i, s.status i = some true → (i, (runs i).document) ∈ s.placed
  failed : ∀ i, s.status i = some false → ∀ t, (i, t) ∉ s.placed
  begun : ∀ e ∈ s.placed, e.1 ∈ s.started
  ended : ∀ e ∈ s.placed, (runs e.1).resolveThumbnails = true →
    ∀ j ∈ s.startedBefore e.1, s.status j ≠ none
  kept : ∀ newer e older, s.placed = newer ++ e :: older →
    (runs e.1).resolveThumbnails = true → ∀ e' ∈ newer, e'.1 ∉ s.startedBefore e.1

/-- What run `i` knows of the steps of the others. -/
structure Elsewhere (i : ℕ) (s t : ScanFiles) : Prop where
  writing : t.writing i = s.writing i
  streamError : t.streamError i = s.streamError i
  status : t.status i = s.status i
  placed : ∀ x, (i, x) ∈ t.placed ↔ (i, x) ∈ s.placed
  started : i ∈ s.started → i ∈ t.started
  temp : s.writing i = true → t.temp = s.temp ∧ ∀ fd, s.temp = some fd → t.text fd = s.text fd

/-- What it promises. -/
structure OwnStep (i : ℕ) (s t : ScanFiles) : Prop where
  inv : ScanInv runs t
  writing : ∀ j, j ≠ i → t.writing j = s.writing j
  streamError : ∀ j, j ≠ i → t.streamError j = s.streamError j
  status : ∀ j, j ≠ i → t.status j = s.status j
  placed : ∀ j x, j ≠ i → ((j, x) ∈ t.placed ↔ (j, x) ∈ s.placed)
  started : ∀ j ∈ s.started, j ∈ t.started
  temp : ∀ j, j ≠ i → s.writing j = true →
    t.temp = s.temp ∧ ∀ fd, s.temp = some fd → t.text fd = s.text fd

/-- The protocol of the scans. -/
def scanProtocol : Protocol ℕ ScanFiles where
  inv := ScanInv runs
  rely := Elsewhere
  guar := OwnStep runs
  rely_refl _ _ := ⟨rfl, rfl, rfl, fun _ => Iff.rfl, id, fun _ => ⟨rfl, fun _ _ => rfl⟩⟩
  rely_trans {i s t u} h h' := by
    refine ⟨h'.writing.trans h.writing, h'.streamError.trans h.streamError,
      h'.status.trans h.status, fun x => (h'.placed x).trans (h.placed x),
      fun hi => h'.started (h.started hi), fun hw => ?_⟩
    obtain ⟨htemp, htext⟩ := h.temp hw
    obtain ⟨htemp', htext'⟩ := h'.temp (h.writing.trans hw)
    refine ⟨htemp'.trans htemp, fun fd hfd => ?_⟩
    exact (htext' fd (htemp.trans hfd)).trans (htext fd hfd)
  keeps _ h := h.inv
  others {i j s t} hij _ h :=
    have hj := Ne.symm hij
    ⟨h.writing j hj, h.streamError j hj, h.status j hj, fun x => h.placed j x hj,
      h.started j, h.temp j hj⟩

end Protocol

section Steps

variable {runs : ℕ → ScanRun} {i : ℕ} {s t : ScanFiles}

theorem ownStep_refl (hs : ScanInv runs s) : OwnStep runs i s s :=
  ⟨hs, fun _ _ => rfl, fun _ _ => rfl, fun _ _ => rfl, fun _ _ _ => Iff.rfl, fun _ h => h,
    fun _ _ _ => ⟨rfl, fun _ _ => rfl⟩⟩

/-- While run `i` uses the temporary path nobody else counts on it. -/
theorem temp_of_writing (hs : ScanInv runs s) (hw : s.writing i = true) {P : Prop} :
    ∀ j, j ≠ i → s.writing j = true → P :=
  fun j hj hwj => absurd (hs.one j i hwj hw) hj

theorem cacheText_update {fd : ℕ} (hfd : s.cache ≠ some fd) (text : CString) :
    s.cache.map (Function.update s.text fd text) = s.cacheText := by
  unfold ScanFiles.cacheText
  cases hcache : s.cache with
  | none => rfl
  | some c =>
    have hne : c ≠ fd := fun h => hfd (by rw [hcache, h])
    simp [Function.update_of_ne hne]

theorem ScanInv.tempFile_free (hs : ScanInv runs s) : s.cache ≠ some s.tempFile := by
  unfold ScanFiles.tempFile
  cases htemp : s.temp with
  | none =>
    intro hcache
    exact absurd (hs.cacheFile _ hcache) (by simp)
  | some fd => exact (hs.tempFile fd htemp).2

theorem ownStep_openTemp (hs : ScanInv runs s) (halone : ∀ j, s.writing j = false) :
    OwnStep runs i s (s.openTemp i) := by
  have hnext : s.next ≤ (s.openTemp i).next := by
    simp only [ScanFiles.openTemp]
    split <;> omega
  have hfile : s.tempFile < (s.openTemp i).next := by
    unfold ScanFiles.openTemp ScanFiles.tempFile
    cases htemp : s.temp with
    | none => simp
    | some fd => simpa using (hs.tempFile fd htemp).1
  have hwriting : ∀ j, (s.openTemp i).writing j = true → j = i := by
    intro j hj
    by_contra hne
    have hj' : s.writing j = true := by simpa [ScanFiles.openTemp, hne] using hj
    simp [halone j] at hj'
  have hinv : ScanInv runs (s.openTemp i) :=
    { tempFile := by
        intro fd hfd
        obtain rfl : s.tempFile = fd := by simpa [ScanFiles.openTemp] using hfd
        exact ⟨hfile, hs.tempFile_free⟩
      cacheFile := fun fd hfd => (hs.cacheFile fd hfd).trans_le hnext
      one := fun j k hj hk => (hwriting j hj).trans (hwriting k hk).symm
      inPlace := (cacheText_update hs.tempFile_free []).trans hs.inPlace
      complete := hs.complete
      succeeded := hs.succeeded
      failed := hs.failed
      begun := hs.begun
      ended := hs.ended
      kept := hs.kept }
  exact
    { inv := hinv
      writing := fun j hj => by simp [ScanFiles.openTemp, hj]
      streamError := fun j hj => by simp [ScanFiles.openTemp, hj]
      status := fun _ _ => rfl
      placed := fun _ _ _ => Iff.rfl
      started := fun _ h => h
      temp := fun j _ hj => by simp [halone j] at hj }

theorem ownStep_write (hs : ScanInv runs s) (hw : s.writing i = true) {stream : Stream}
    (htemp : s.temp = some stream.fd) : OwnStep runs i s (s.write stream) where
  inv :=
    { tempFile := hs.tempFile
      cacheFile := hs.cacheFile
      one := hs.one
      inPlace := (cacheText_update (hs.tempFile _ htemp).2 _).trans hs.inPlace
      complete := hs.complete
      succeeded := hs.succeeded
      failed := hs.failed
      begun := hs.begun
      ended := hs.ended
      kept := hs.kept }
  writing _ _ := rfl
  streamError _ _ := rfl
  status _ _ := rfl
  placed _ _ _ := Iff.rfl
  started _ h := h
  temp := temp_of_writing hs hw

theorem ownStep_setStreamError (hs : ScanInv runs s) :
    OwnStep runs i s (s.setStreamError i) where
  inv := ⟨hs.tempFile, hs.cacheFile, hs.one, hs.inPlace, hs.complete, hs.succeeded, hs.failed,
    hs.begun, hs.ended, hs.kept⟩
  writing _ _ := rfl
  streamError j hj := by simp [ScanFiles.setStreamError, hj]
  status _ _ := rfl
  placed _ _ _ := Iff.rfl
  started _ h := h
  temp _ _ _ := ⟨rfl, fun _ _ => rfl⟩

theorem ownStep_leave (hs : ScanInv runs s) (hw : s.writing i = true) (temp : Option ℕ)
    (htemp : temp = s.temp ∨ temp = none) :
    OwnStep runs i s ({ s with temp := temp }.leave i) where
  inv :=
    { tempFile := by
        intro fd hfd
        rcases htemp with h | h
        · exact hs.tempFile fd (h ▸ hfd)
        · simp [ScanFiles.leave, h] at hfd
      cacheFile := hs.cacheFile
      one := by
        intro j k hj hk
        have hback : ∀ j, Function.update s.writing i false j = true → s.writing j = true := by
          intro j hj
          by_cases hji : j = i
          · rw [hji]
            exact hw
          · rwa [Function.update_of_ne hji] at hj
        exact hs.one j k (hback j hj) (hback k hk)
      inPlace := hs.inPlace
      complete := hs.complete
      succeeded := hs.succeeded
      failed := hs.failed
      begun := hs.begun
      ended := hs.ended
      kept := hs.kept }
  writing j hj := by simp [ScanFiles.leave, hj]
  streamError _ _ := rfl
  status _ _ := rfl
  placed _ _ _ := Iff.rfl
  started _ h := h
  temp := temp_of_writing hs hw

/-- Run `i` between its start and its exit, with nothing put in place; `writing` says whether it
uses the temporary path. -/
structure Running (i : ℕ) (writing : Bool) (s : ScanFiles) : Prop where
  writing : s.writing i = writing
  status : s.status i = none
  started : i ∈ s.started
  unplaced : ∀ x, (i, x) ∉ s.placed

/-- The document of run `i` was put in place. -/
structure Placed (runs : ℕ → ScanRun) (i : ℕ) (s : ScanFiles) : Prop where
  status : s.status i = none
  placed : (i, (runs i).document) ∈ s.placed

theorem ownStep_place (hs : ScanInv runs s) (hi : Running i true s) {fd : ℕ}
    (htemp : s.temp = some fd) (htext : s.text fd = (runs i).document)
    (hlast : (runs i).resolveThumbnails = true → ∀ j ∈ s.startedBefore i, s.status j ≠ none) :
    OwnStep runs i s ((s.place i fd).leave i) where
  inv :=
    { tempFile := fun _ hfd => by simp [ScanFiles.leave, ScanFiles.place] at hfd
      cacheFile := by
        intro c hc
        obtain rfl : fd = c := by simpa [ScanFiles.leave, ScanFiles.place] using hc
        exact (hs.tempFile fd htemp).1
      one := (ownStep_leave hs hi.writing s.temp (.inl rfl)).inv.one
      inPlace := rfl
      complete := by
        intro e he
        rcases List.mem_cons.mp he with rfl | he
        · exact htext
        · exact hs.complete e he
      succeeded := fun j hj => List.mem_cons_of_mem _ (hs.succeeded j hj)
      failed := by
        intro j hj x hx
        rcases List.mem_cons.mp hx with heq | hx
        · obtain rfl : j = i := (Prod.mk.inj heq).1
          have hj : s.status j = some false := hj
          rw [hi.status] at hj
          cases hj
        · exact hs.failed j hj x hx
      begun := by
        intro e he
        rcases List.mem_cons.mp he with rfl | he
        · exact hi.started
        · exact hs.begun e he
      ended := by
        intro e he
        rcases List.mem_cons.mp he with rfl | he
        · exact hlast
        · exact hs.ended e he
      kept := by
        intro newer e older hplaced hthumbnails e' he'
        cases newer with
        | nil => cases he'
        | cons first newer =>
          obtain ⟨rfl, hrest⟩ := List.cons.inj hplaced
          rcases List.mem_cons.mp he' with rfl | he'
          · -- the run renames now, so it has not ended
            intro hbefore
            have he : e ∈ s.placed := by simp [hrest]
            exact hs.ended e he hthumbnails i hbefore hi.status
          · exact hs.kept newer e older hrest hthumbnails e' he' }
  writing := (ownStep_leave hs hi.writing s.temp (.inl rfl)).writing
  streamError _ _ := rfl
  status _ _ := rfl
  placed j x hj := by
    have hne : (j, x) ≠ (i, s.text fd) := fun h => hj (Prod.mk.inj h).1
    simp [ScanFiles.leave, ScanFiles.place, hne]
  started _ h := h
  temp := temp_of_writing hs hi.writing

theorem ownStep_start (hs : ScanInv runs s) : OwnStep runs i s (s.start i) where
  inv :=
    { tempFile := hs.tempFile
      cacheFile := hs.cacheFile
      one := hs.one
      inPlace := hs.inPlace
      complete := hs.complete
      succeeded := hs.succeeded
      failed := hs.failed
      begun := fun e he => List.mem_append_left _ (hs.begun e he)
      ended := by
        intro e he hthumbnails j hj
        rw [ScanFiles.startedBefore, ScanFiles.start, takeWhile_concat (hs.begun e he)] at hj
        exact hs.ended e he hthumbnails j hj
      kept := by
        intro newer e older hplaced hthumbnails e' he'
        have he : e ∈ s.placed := by
          have hplaced : s.placed = newer ++ e :: older := hplaced
          simp [hplaced]
        rw [ScanFiles.startedBefore, ScanFiles.start, takeWhile_concat (hs.begun e he)]
        exact hs.kept newer e older hplaced hthumbnails e' he' }
  writing _ _ := rfl
  streamError _ _ := rfl
  status _ _ := rfl
  placed _ _ _ := Iff.rfl
  started _ h := List.mem_append_left _ h
  temp _ _ _ := ⟨rfl, fun _ _ => rfl⟩

theorem ownStep_exit (hs : ScanInv runs s) {ok : Bool}
    (hok : ok = true → (i, (runs i).document) ∈ s.placed)
    (hfailed : ok = false → ∀ x, (i, x) ∉ s.placed) : OwnStep runs i s (s.exit i ok) where
  inv :=
    { tempFile := hs.tempFile
      cacheFile := hs.cacheFile
      one := hs.one
      inPlace := hs.inPlace
      complete := hs.complete
      succeeded := by
        intro j hj
        by_cases hji : j = i
        · subst hji
          exact hok (by simpa [ScanFiles.exit] using hj)
        · exact hs.succeeded j (by simpa [ScanFiles.exit, hji] using hj)
      failed := by
        intro j hj
        by_cases hji : j = i
        · subst hji
          exact hfailed (by simpa [ScanFiles.exit] using hj)
        · exact hs.failed j (by simpa [ScanFiles.exit, hji] using hj)
      begun := hs.begun
      ended := by
        intro e he hthumbnails j hj
        by_cases hji : j = i
        · simp [ScanFiles.exit, hji]
        · simpa [ScanFiles.exit, hji] using hs.ended e he hthumbnails j hj
      kept := hs.kept }
  writing _ _ := rfl
  streamError _ _ := rfl
  status j hj := by simp [ScanFiles.exit, hj]
  placed _ _ _ := Iff.rfl
  started _ h := h
  temp _ _ _ := ⟨rfl, fun _ _ => rfl⟩

end Steps

section Calls

variable {runs : ℕ → ScanRun} {i : ℕ} {writing : Bool} {pre : ScanFiles → Prop} {α : Type}

/-- The protocol's triples. -/
def Does (runs : ℕ → ScanRun) (i : ℕ) (pre : ScanFiles → Prop) (m : Scanning α)
    (Q : α → ScanFiles → Prop) : Prop :=
  Triple (scanProtocol runs) (OneWriter runs i) i pre m Q fun _ _ => False

/-- What the others leave true. -/
abbrev Lasting (runs : ℕ → ScanRun) (i : ℕ) (pre : ScanFiles → Prop) : Prop :=
  Stable (scanProtocol runs) i pre

/-- Before its start. -/
structure Waiting (i : ℕ) (s : ScanFiles) : Prop where
  writing : s.writing i = false
  status : s.status i = none
  unplaced : ∀ x, (i, x) ∉ s.placed

/-- Run `i` has printed `printed`: where none of its writes has failed that is in the file, but
for what is in the buffer. -/
structure Printing (i : ℕ) (printed : CString) (stream : Stream) (s : ScanFiles) : Prop where
  running : Running i true s
  temp : s.temp = some stream.fd
  text : s.streamError i = false →
    s.text stream.fd ++ stream.buffer = printed ∧ stream.position = (s.text stream.fd).length

/-- The calls up to here reported success or not. -/
structure Flushed (i : ℕ) (document : CString) (ok : Bool) (s : ScanFiles) : Prop where
  running : Running i true s
  file : ok = true → ∃ fd, s.temp = some fd ∧ (s.streamError i = false → s.text fd = document)

/-- After `fopen`. -/
def Opened (i : ℕ) : Option Stream → ScanFiles → Prop
  | some stream => Printing i [] stream
  | none => Running i false

/-- After `rename`. -/
def Renamed (runs : ℕ → ScanRun) (i : ℕ) : Bool → ScanFiles → Prop
  | true => Placed runs i
  | false => Running i true

/-- With the result of `write_library_index`. -/
def Ended (runs : ℕ → ScanRun) (i : ℕ) : Bool → ScanFiles → Prop
  | true => Placed runs i
  | false => Running i false

theorem lasting_waiting : Lasting runs i (Waiting i) := by
  intro s t _ hs hrely _
  exact ⟨hrely.writing.trans hs.writing, hrely.status.trans hs.status,
    fun x hx => hs.unplaced x ((hrely.placed x).mp hx)⟩

theorem lasting_running : Lasting runs i (Running i writing) := by
  intro s t _ hs hrely _
  exact ⟨hrely.writing.trans hs.writing, hrely.status.trans hs.status,
    hrely.started hs.started, fun x hx => hs.unplaced x ((hrely.placed x).mp hx)⟩

theorem lasting_placed : Lasting runs i (Placed runs i) := by
  intro s t _ hs hrely _
  exact ⟨hrely.status.trans hs.status, (hrely.placed _).mpr hs.placed⟩

theorem lasting_printing {printed : CString} {stream : Stream} :
    Lasting runs i (Printing i printed stream) := by
  intro s t hinv hs hrely hinv'
  obtain ⟨htemp, htext⟩ := hrely.temp hs.running.writing
  refine ⟨lasting_running s t hinv hs.running hrely hinv', htemp.trans hs.temp, fun herror => ?_⟩
  rw [htext _ hs.temp]
  exact hs.text (hrely.streamError.symm.trans herror)

theorem lasting_flushed {document : CString} {ok : Bool} :
    Lasting runs i (Flushed i document ok) := by
  intro s t hinv hs hrely hinv'
  obtain ⟨htemp, htext⟩ := hrely.temp hs.running.writing
  refine ⟨lasting_running s t hinv hs.running hrely hinv', fun hok => ?_⟩
  obtain ⟨fd, hfd, hdocument⟩ := hs.file hok
  refine ⟨fd, htemp.trans hfd, fun herror => ?_⟩
  rw [htext fd hfd]
  exact hdocument (hrely.streamError.symm.trans herror)

theorem lasting_opened (stream : Option Stream) : Lasting runs i (Opened i stream) := by
  cases stream with
  | none => exact lasting_running
  | some stream => exact lasting_printing

theorem lasting_renamed (renamed : Bool) : Lasting runs i (Renamed runs i renamed) := by
  cases renamed with
  | false => exact lasting_running
  | true => exact lasting_placed

theorem lasting_ended (ok : Bool) : Lasting runs i (Ended runs i ok) := by
  cases ok with
  | false => exact lasting_running
  | true => exact lasting_placed

theorem does_mayFail (hpre : Lasting runs i pre) : Does runs i pre mayFail fun _ => pre := by
  apply Triple.look (fun _ => ownStep_refl) hpre fun _ => hpre
  intro s _ hp o ho
  simp only [List.mem_cons, List.not_mem_nil, or_false] at ho
  rcases ho with rfl | rfl
  · exact ⟨rfl, hp⟩
  · exact ⟨rfl, hp⟩

theorem does_start : Does runs i (Waiting i) (start i) fun _ => Running i false := by
  apply Triple.run lasting_waiting fun _ => lasting_running
  intro s hs hp o ho _
  rw [List.mem_singleton.mp ho]
  exact ⟨ownStep_start hs, hp.writing, hp.status, by simp [ScanFiles.start], hp.unplaced⟩

theorem does_exit (ok : Bool) : Does runs i (Ended runs i ok) (exit i ok) fun _ _ => True := by
  apply Triple.run (lasting_ended ok) fun _ _ _ _ _ _ _ => trivial
  intro s hs hp o ho _
  rw [List.mem_singleton.mp ho]
  refine ⟨ownStep_exit hs ?_ ?_, trivial⟩
  · rintro rfl
    exact hp.placed
  · rintro rfl
    exact hp.unplaced

theorem does_fopenTemp : Does runs i (Running i false) (fopenTemp i) (Opened i) := by
  apply Triple.run lasting_running lasting_opened
  intro s hs hp o ho hone
  simp only [List.mem_cons, List.not_mem_nil, or_false] at ho
  rcases ho with rfl | rfl
  · have halone := hone.alone hp.writing (by simp [ScanFiles.openTemp])
    refine ⟨ownStep_openTemp hs halone, ⟨?_, hp.status, hp.started, hp.unplaced⟩, rfl, fun _ => ?_⟩
    · simp [ScanFiles.openTemp]
    · simp [ScanFiles.openTemp]
  · exact ⟨ownStep_refl hs, hp⟩

theorem printing_write {printed : CString} {stream : Stream} {s : ScanFiles}
    (hp : Printing i printed stream s) (herror : s.streamError i = false) :
    (s.write stream).text stream.fd = printed := by
  obtain ⟨htext, hposition⟩ := hp.text herror
  simp [ScanFiles.write, pwrite_end hposition, htext]

theorem does_fputc (printed : CString) (stream : Stream) (c : UInt8) :
    Does runs i (Printing i printed stream) (fputc i stream c)
      (Printing i (printed ++ [c])) := by
  apply Triple.run lasting_printing fun _ => lasting_printing
  intro s hs hp o ho _
  let full : Stream := { stream with buffer := stream.buffer ++ [c] }
  have hfull : Printing i (printed ++ [c]) full s := by
    refine ⟨hp.running, hp.temp, fun herror => ?_⟩
    obtain ⟨htext, hposition⟩ := hp.text herror
    exact ⟨by simp [full, ← htext], hposition⟩
  simp only [List.mem_cons, List.not_mem_nil, or_false] at ho
  rcases ho with rfl | rfl | rfl
  · exact ⟨ownStep_refl hs, hfull⟩
  · have hstep : OwnStep runs i s (s.write full) := ownStep_write hs hp.running.writing hp.temp
    refine ⟨hstep,
      ⟨hp.running.writing, hp.running.status, hp.running.started, hp.running.unplaced⟩, hp.temp,
      fun herror => ?_⟩
    have htext := printing_write hfull herror
    obtain ⟨hprinted, hposition⟩ := hfull.text herror
    refine ⟨by simpa using htext, ?_⟩
    have hlength := congrArg List.length htext
    rw [← hprinted, List.length_append, ← hposition] at hlength
    exact hlength.symm
  · refine ⟨ownStep_setStreamError hs,
      ⟨hp.running.writing, hp.running.status, hp.running.started, hp.running.unplaced⟩, hp.temp,
      fun herror => ?_⟩
    simp [ScanFiles.setStreamError] at herror

theorem does_fprint (rest : CString) :
    ∀ (printed : CString) (stream : Stream),
      Does runs i (Printing i printed stream) (fprint i rest stream)
        (Printing i (printed ++ rest)) := by
  induction rest with
  | nil =>
    intro printed stream
    rw [List.append_nil]
    exact Triple.pure _ lasting_printing fun _ _ hp => hp
  | cons c rest ih =>
    intro printed stream
    rw [List.append_cons]
    exact Triple.bind (does_fputc printed stream c) fun stream => ih (printed ++ [c]) stream

theorem does_fflush (document : CString) (stream : Stream) :
    Does runs i (Printing i document stream) (fflush i stream) (Flushed i document) := by
  apply Triple.run lasting_printing fun _ => lasting_flushed
  intro s hs hp o ho _
  split at ho
  · rename_i hempty
    rw [List.mem_singleton.mp ho]
    refine ⟨ownStep_refl hs, hp.running, fun _ => ⟨_, hp.temp, fun herror => ?_⟩⟩
    simpa [hempty] using (hp.text herror).1
  · simp only [List.mem_cons, List.not_mem_nil, or_false] at ho
    have hrunning : ∀ t : ScanFiles, t.writing = s.writing → t.status = s.status →
        t.started = s.started → t.placed = s.placed → Running i true t := by
      intro t hwriting hstatus hstarted hplaced
      refine ⟨?_, ?_, ?_, ?_⟩
      · rw [hwriting]
        exact hp.running.writing
      · rw [hstatus]
        exact hp.running.status
      · rw [hstarted]
        exact hp.running.started
      · rw [hplaced]
        exact hp.running.unplaced
    rcases ho with rfl | rfl
    · exact ⟨ownStep_write hs hp.running.writing hp.temp, hrunning _ rfl rfl rfl rfl,
        fun _ => ⟨_, hp.temp, printing_write hp⟩⟩
    · exact ⟨ownStep_setStreamError hs, hrunning _ rfl rfl rfl rfl, fun h => by cases h⟩

theorem does_unlinkTemp : Does runs i (Running i true) (unlinkTemp i) fun _ => Running i false := by
  apply Triple.run lasting_running fun _ => lasting_running
  intro s hs hp o ho _
  simp only [List.mem_cons, List.not_mem_nil, or_false] at ho
  rcases ho with rfl | rfl
  · exact ⟨ownStep_leave hs hp.writing none (.inr rfl), by simp [ScanFiles.leave], hp.status,
      hp.started, hp.unplaced⟩
  · exact ⟨ownStep_leave hs hp.writing s.temp (.inl rfl), by simp [ScanFiles.leave], hp.status,
      hp.started, hp.unplaced⟩

theorem does_renameTemp : Does runs i (Flushed i (runs i).document true) (renameTemp i)
    (Renamed runs i) := by
  apply Triple.run lasting_flushed lasting_renamed
  intro s hs hp o ho hone
  obtain ⟨fd, htemp, hdocument⟩ := hp.file rfl
  rw [htemp] at ho
  simp only [List.mem_cons, List.not_mem_nil, or_false] at ho
  rcases ho with rfl | rfl
  · have hnew : ((s.place i fd).leave i).placed ≠ s.placed := List.cons_ne_self _ _
    have htext := hdocument (hone.written hnew)
    refine ⟨ownStep_place hs hp.running htemp htext (hone.last hnew), hp.running.status, ?_⟩
    simp [ScanFiles.leave, ScanFiles.place, htext]
  · exact ⟨ownStep_refl hs, hp.running⟩

theorem does_syncParentDir : Does runs i (Placed runs i) (syncParentDir i) (Ended runs i) := by
  apply Triple.run lasting_placed lasting_ended
  intro s hs hp o ho hone
  simp only [List.mem_cons, List.not_mem_nil, or_false] at ho
  rcases ho with rfl | rfl
  · exact ⟨ownStep_refl hs, hp⟩
  · have hsynced := hone.synced
    simp [ScanFiles.setUnsynced] at hsynced

end Calls

section Scan

variable {runs : ℕ → ScanRun} {i : ℕ}

theorem does_giveUp : Does runs i (Running i true) (giveUp i) (Ended runs i) :=
  Triple.bind does_unlinkTemp fun _ => Triple.pure _ lasting_running fun _ _ hp => hp

theorem does_afterRename (renamed : Bool) :
    Does runs i (Renamed runs i renamed) (afterRename i renamed) (Ended runs i) := by
  cases renamed with
  | false => exact does_giveUp
  | true => exact does_syncParentDir

theorem does_install (ok : Bool) :
    Does runs i (Flushed i (runs i).document ok) (install i ok) (Ended runs i) := by
  cases ok with
  | false =>
    exact Triple.conseq does_giveUp (fun s _ hp => hp.running) (fun _ _ _ h => h)
      fun _ _ _ h => h
  | true => exact Triple.bind does_renameTemp does_afterRename

theorem does_syncAfter (document : CString) (flushed : Bool) :
    Does runs i (Flushed i document flushed) (syncAfter flushed) (Flushed i document) := by
  cases flushed with
  | false => exact Triple.pure _ lasting_flushed fun _ _ hp => hp
  | true =>
    apply Triple.conseq (does_mayFail lasting_flushed) (fun _ _ hp => hp) ?_ fun _ _ _ h => h
    intro synced s _ hp
    exact ⟨hp.running, fun _ => hp.file rfl⟩

theorem does_writeStream (stream : Stream) :
    Does runs i (Printing i [] stream) (writeStream i (runs i).document stream)
      (Ended runs i) := by
  have hprint : Does runs i (Printing i [] stream) (fprint i (runs i).document stream)
      (Printing i ([] ++ (runs i).document)) := does_fprint _ _ _
  rw [List.nil_append] at hprint
  apply Triple.bind hprint
  intro stream
  apply Triple.bind (does_fflush _ stream)
  intro flushed
  apply Triple.bind (does_syncAfter _ flushed)
  intro synced
  apply Triple.bind (does_mayFail lasting_flushed)
  intro closed
  apply Triple.conseq (does_install (synced && closed)) ?_ (fun _ _ _ h => h) fun _ _ _ h => h
  intro s _ hp
  exact ⟨hp.running, fun hok => hp.file (Bool.and_eq_true_iff.mp hok).1⟩

theorem does_afterOpen (stream : Option Stream) :
    Does runs i (Opened i stream) (afterOpen i (runs i).document stream) (Ended runs i) := by
  cases stream with
  | none => exact Triple.pure _ lasting_running fun _ _ hp => hp
  | some stream => exact does_writeStream stream

theorem does_openAndWrite (ready : Bool) :
    Does runs i (Running i false) (openAndWrite i (runs i).document ready) (Ended runs i) := by
  cases ready with
  | false => exact Triple.pure _ lasting_running fun _ _ hp => hp
  | true => exact Triple.bind does_fopenTemp does_afterOpen

theorem does_scanAndWrite (loaded : Bool) :
    Does runs i (Running i false) (scanAndWrite i (runs i).document loaded) (Ended runs i) := by
  cases loaded with
  | false => exact Triple.pure _ lasting_running fun _ _ hp => hp
  | true => exact Triple.bind (does_mayFail lasting_running) does_openAndWrite

theorem does_scanMain :
    Does runs i (Waiting i) (scanMain i (runs i).document) fun _ _ => True := by
  apply Triple.bind does_start
  intro _
  apply Triple.bind (does_mayFail lasting_running)
  intro loaded
  exact Triple.bind (does_scanAndWrite loaded) does_exit

end Scan

section Runs

variable {runs : ℕ → ScanRun} {s : ScanFiles} {is : List ℕ} {q : Pool ℕ ScanFiles Empty Unit}

theorem ScanInv.intact (hs : ScanInv runs s) : Intact runs s where
  inPlace := hs.inPlace
  complete := hs.complete
  succeeded := hs.succeeded
  failed i hi e he h := hs.failed i hi e.2 (h ▸ he)
  kept newer e older hplaced hthumbnails _ := hs.kept newer e older hplaced hthumbnails

theorem Untouched.inv (hs : Untouched s) : ScanInv runs s where
  tempFile fd hfd := ⟨hs.temp fd hfd, by simp [hs.cache]⟩
  cacheFile fd hfd := by simp [hs.cache] at hfd
  one i j hi := by simp [hs.writing i] at hi
  inPlace := by simp [ScanFiles.cacheText, hs.cache, hs.placed]
  complete e he := by simp [hs.placed] at he
  succeeded i hi := by simp [hs.status i] at hi
  failed i hi := by simp [hs.status i] at hi
  begun e he := by simp [hs.placed] at he
  ended e he := by simp [hs.placed] at he
  kept newer e older h := by simp [hs.placed] at h

theorem scans_sound (runs : ℕ → ScanRun) (hs : Untouched s) :
    Pool.Sound (scanProtocol runs) (OneWriter runs) (scans runs s) := by
  have hinv : (scanProtocol runs).inv s := hs.inv
  refine ⟨hinv, fun i => ?_⟩
  have hwaiting : Waiting i s := ⟨hs.writing i, hs.status i, by simp [hs.placed]⟩
  exact (does_scanMain s hinv hwaiting).mono (fun _ _ _ _ => trivial) fun _ _ _ _ => trivial

/-- A card on which no scan has run. -/
def newCard : ScanFiles where
  cache := none
  temp := none
  next := 0
  text _ := []
  writing _ := false
  streamError _ := false
  unsynced _ := false
  status _ := none
  started := []
  placed := []

theorem newCard_untouched : Untouched newCard :=
  ⟨rfl, fun _ h => (by cases h), fun _ => rfl, fun _ => rfl, fun _ => rfl, rfl, rfl⟩

/-- An index without a system. -/
def noSystems : LibraryIndex where
  sdcardRoot := lit "/mnt/SDCARD"
  plumosRoot := lit "/mnt/SDCARD/plumos"
  systems := []
  systemCount := 0
  aliasDirsFound := 0
  filesSeen := 0
  directoriesExcluded := 0
  filesMatched := 0
  romCount := 0
  thumbnailCount := 0
  thumbnailLookupDeferred := true

/-- The refresh in the background, and the scans of the Gallery. -/
def refreshAndGallery (i : ℕ) : ScanRun :=
  (if i = 0 then ScanTrigger.backgroundRefresh else .gallery).run noSystems ⟨0, 0, 0, 0, 0⟩

/-- The refresh has started. -/
def refreshStarted : Pool ℕ ScanFiles Empty Unit :=
  Pool.play [(0, 0)] (scans refreshAndGallery newCard)

/-- The refresh writes its document; the scan of the Gallery opens the same file, and so cuts
it, and the refresh renames it. -/
def overlapping : List (ℕ × ℕ) :=
  List.replicate (7 + (refreshAndGallery 0).document.length) (0, 0) ++
    List.replicate 4 (1, 0) ++ [(0, 0)]

end Runs

end PlumosBubble.Frontend
