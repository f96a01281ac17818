import PlumosBubble.Frontend.Gallery
import PlumosBubble.Transition.Run

/-! The gallery over whole runs. Where the list is loaded anew on the gallery screen only without a
step that waits, and without a slide or to the place where the cursor already is, the slide that
is active leads to the cursor, so that the first render behind its end finishes it. -/

namespace PlumosBubble.Gallery

open Frontend Transition State

variable {s t : State}

section Lists

/-- The cursor is in the list. -/
def CursorIn (s : State) : Prop := s.romEntries = [] ∨ s.romCursor < s.romCount

/-- No slide, and no step that waits. -/
structure Quiet (s : State) : Prop where
  slide : s.slide.active = false
  pending : s.pending.active = false
  cursor : CursorIn s

theorem cursorIn_zero (h : s.romCursor = 0) : CursorIn s := by
  cases hentries : s.romEntries with
  | nil => exact Or.inl hentries
  | cons entry entries =>
    right
    rw [h, romCount, hentries]
    exact Nat.succ_pos _

theorem rememberCursor_eq (s : State) :
    ∃ memory, s.rememberCursor = { s with cursorMemory := memory } := by
  unfold rememberCursor
  split
  · exact ⟨_, rfl⟩
  · split
    · exact ⟨_, rfl⟩
    · dsimp only
      split
      · exact ⟨_, rfl⟩
      · split
        · exact ⟨_, rfl⟩
        · exact ⟨_, rfl⟩

theorem getD_findIdx?_lt {entries : List Entry} (p : Entry → Bool) (h : 0 < entries.length) :
    (entries.findIdx? p).getD 0 < entries.length := by
  cases hfind : entries.findIdx? p with
  | none => exact h
  | some i => exact (List.findIdx?_eq_some_iff_findIdx_eq.mp hfind).1

theorem restoredCursor_lt {memory : List CursorMemory} {systemId directory : CString}
    {entries : List Entry} (h : entries ≠ []) :
    restoredCursor memory systemId directory entries < entries.length := by
  have hpos : 0 < entries.length := List.length_pos_iff.mpr h
  unfold restoredCursor
  split
  · exact hpos
  · split
    · exact hpos
    · split
      · exact hpos
      · exact getD_findIdx?_lt _ hpos

theorem restoreCursor_eq (s : State) (h : CursorIn s) :
    ∃ cursor, s.restoreCursor = { s with romCursor := cursor } ∧ CursorIn s.restoreCursor := by
  unfold restoreCursor
  split
  · exact ⟨s.romCursor, rfl, h⟩
  · rename_i hnot
    exact ⟨_, rfl, Or.inr (restoredCursor_lt fun hnil => hnot (Or.inr hnil))⟩

theorem loadRomEntries_eq (s : State) (systemId : CString) (load : Load) :
    ∃ wrap, s.loadRomEntries systemId load =
      { s.loadEntries load with romCursorWrap := wrap } := by
  unfold loadRomEntries
  split
  · exact ⟨s.romCursorWrap, rfl⟩
  · exact ⟨_, rfl⟩

theorem selectAgain_eq (s : State) (relativePath : CString) (h : CursorIn s) :
    ∃ cursor, s.selectAgain relativePath = { s with romCursor := cursor } ∧
      CursorIn (s.selectAgain relativePath) := by
  unfold selectAgain
  split
  · rename_i i hfind
    exact ⟨i, rfl, Or.inr (List.findIdx?_eq_some_iff_findIdx_eq.mp hfind).1⟩
  · exact ⟨s.romCursor, rfl, h⟩

/-- The list and its cursor may be others, and nothing else of the gallery is. -/
structure Relists (s t : State) : Prop where
  slide : t.slide = s.slide
  pending : t.pending = s.pending
  pendingLoads : t.pendingLoads = s.pendingLoads
  screen : t.screen = s.screen
  cursor : CursorIn t

theorem Relists.refl (h : CursorIn s) : Relists s s := ⟨rfl, rfl, rfl, rfl, h⟩

theorem Relists.trans {u : State} (h : Relists s t) (h' : Relists t u) : Relists s u :=
  ⟨h'.slide.trans h.slide, h'.pending.trans h.pending, h'.pendingLoads.trans h.pendingLoads,
    h'.screen.trans h.screen, h'.cursor⟩

theorem Quiet.relists (hs : Quiet s) (h : Relists s t) : Quiet t where
  slide := by rw [h.slide]; exact hs.slide
  pending := by rw [h.pending]; exact hs.pending
  cursor := h.cursor

theorem Quiet.reset (h : CursorIn s) : Quiet s.resetGallery := ⟨rfl, rfl, h⟩

theorem relists_rememberCursor (h : CursorIn s) : Relists s s.rememberCursor := by
  obtain ⟨memory, heq⟩ := rememberCursor_eq s
  rw [heq]
  exact ⟨rfl, rfl, rfl, rfl, h⟩

theorem relists_loadEntries (s : State) (load : Load) : Relists s (s.loadEntries load) :=
  ⟨rfl, rfl, rfl, rfl, cursorIn_zero rfl⟩

theorem relists_loadRomEntries (s : State) (systemId : CString) (load : Load) :
    Relists s (s.loadRomEntries systemId load) := by
  obtain ⟨wrap, heq⟩ := loadRomEntries_eq s systemId load
  rw [heq]
  exact ⟨rfl, rfl, rfl, rfl, cursorIn_zero rfl⟩

theorem relists_restoreCursor (h : CursorIn s) : Relists s s.restoreCursor := by
  obtain ⟨cursor, heq, hin⟩ := restoreCursor_eq s h
  exact ⟨by rw [heq], by rw [heq], by rw [heq], by rw [heq], hin⟩

theorem relists_selectAgain (h : CursorIn s) (relativePath : CString) :
    Relists s (s.selectAgain relativePath) := by
  obtain ⟨cursor, heq, hin⟩ := selectAgain_eq s relativePath h
  exact ⟨by rw [heq], by rw [heq], by rw [heq], by rw [heq], hin⟩

theorem relists_inDirectory (h : CursorIn s) (directory : CString) :
    Relists s { s with romDirectory := directory } :=
  ⟨rfl, rfl, rfl, rfl, h⟩

theorem relists_reloadRomDirectory (h : CursorIn s) (load : Load) :
    Relists s (s.reloadRomDirectory load).2 := by
  unfold reloadRomDirectory
  split
  · exact .refl h
  · have hload := relists_loadRomEntries s s.currentSystemId load
    split
    · exact hload.trans (relists_restoreCursor hload.cursor)
    · exact hload

theorem relists_enterDirectory (h : CursorIn s) (directory : CString) (load : Load) :
    Relists s
      (reloadRomDirectory { s.rememberCursor with romDirectory := directory } load).2 := by
  have hremember := relists_rememberCursor h
  have henter := relists_inDirectory hremember.cursor directory
  exact (hremember.trans henter).trans (relists_reloadRomDirectory henter.cursor load)

theorem relists_openDirectory (h : CursorIn s) (entry : Entry) (load : Load) :
    Relists s (s.openDirectory entry load) := by
  unfold openDirectory
  split
  · exact .refl h
  · have henter := relists_enterDirectory h entry.relativePath load
    dsimp only
    split
    · exact henter
    · exact henter.trans (relists_inDirectory henter.cursor s.romDirectory)

theorem relists_openParent (h : CursorIn s) (load : Load) :
    Relists s (s.openParent load).2 := by
  unfold openParent
  split
  · exact .refl h
  · have henter := relists_enterDirectory h (parentDirectory s.romDirectory) load
    dsimp only
    split
    · exact henter
    · exact henter.trans (relists_inDirectory henter.cursor s.romDirectory)

theorem keptCursor_lt {cursor : ℕ} {entries : List Entry} (h : entries ≠ []) :
    keptCursor cursor entries < entries.length := by
  have hpos : 0 < entries.length := List.length_pos_iff.mpr h
  unfold keptCursor
  rw [if_neg h]
  split <;> omega

theorem cursorIn_kept (s : State) (cursor : ℕ) (load : Load) :
    CursorIn { s.loadEntries load with romCursor := keptCursor cursor load.entries } := by
  by_cases hnil : load.entries = []
  · exact Or.inl hnil
  · exact Or.inr (keptCursor_lt hnil)

theorem cursorIn_mark (h : CursorIn s) (entry : Entry) (isFavorite : Bool) :
    CursorIn (s.markFavorite entry isFavorite) := by
  rcases h with h | h
  · left
    show s.romEntries.set s.romCursor _ = []
    rw [h]
    rfl
  · right
    show s.romCursor < (s.romEntries.set s.romCursor _).length
    rw [List.length_set]
    exact h

theorem toggleFavorite_cases (s : State) (inputs : Inputs) :
    s.toggleFavorite inputs = s ∨
    (∃ entry isFavorite, s.toggleFavorite inputs = s.markFavorite entry isFavorite) ∨
    s.toggleFavorite inputs = { s.loadEntries inputs.load with
      romCursor := keptCursor s.romCursor inputs.load.entries } := by
  unfold toggleFavorite
  split
  · exact Or.inl rfl
  · split
    · exact Or.inl rfl
    · split
      · split
        · exact Or.inr (Or.inr rfl)
        · exact Or.inr (Or.inl ⟨_, _, rfl⟩)
      · exact Or.inr (Or.inl ⟨_, _, rfl⟩)

theorem relists_toggleFavorite (h : CursorIn s) (inputs : Inputs) :
    Relists s (s.toggleFavorite inputs) := by
  rcases toggleFavorite_cases s inputs with heq | ⟨entry, isFavorite, heq⟩ | heq
  · rw [heq]
    exact .refl h
  · rw [heq]
    exact ⟨rfl, rfl, rfl, rfl, cursorIn_mark h entry isFavorite⟩
  · rw [heq]
    exact ⟨rfl, rfl, rfl, rfl, cursorIn_kept s _ _⟩

theorem relists_refreshEntries (h : CursorIn s) (load : Load) :
    Relists s (s.refreshEntries load) := by
  unfold refreshEntries
  split
  · exact .refl h
  · have hload := relists_loadRomEntries s s.currentSystemId load
    dsimp only
    split
    · exact hload
    · exact hload.trans (relists_selectAgain hload.cursor s.selectedPath)

end Lists

section Screens

theorem Quiet.restoredIf (hs : Quiet s) (ok : Bool) :
    Quiet (if ok then s.restoreCursor else s) := by
  split
  · exact hs.relists (relists_restoreCursor hs.cursor)
  · exact hs

theorem Quiet.enterList (hs : Quiet s) (screen : Screen) (systemId : CString) :
    Quiet (s.enterList screen systemId) :=
  ⟨hs.slide, hs.pending, hs.cursor⟩

theorem Quiet.openListScreen (hs : Quiet s) (screen : Screen) (systemId : CString) (load : Load) :
    Quiet (s.openListScreen screen systemId load) :=
  ((hs.enterList screen systemId).relists (relists_loadEntries _ load)).restoredIf load.ok

theorem Quiet.openRomList (hs : Quiet s) (systemId : CString) (load : Load) :
    Quiet (s.openRomList systemId load) :=
  ((hs.enterList .roms systemId).relists (relists_loadRomEntries _ systemId load)).restoredIf
    load.ok

theorem Quiet.openRomScreen (hs : Quiet s) (systemId : CString) (inputs : Inputs) :
    Quiet (s.openRomScreen systemId inputs) := by
  unfold State.openRomScreen
  split
  · exact hs.openListScreen _ _ _
  · split
    · exact hs.openListScreen _ _ _
    · have hopened := hs.openRomList systemId inputs.load
      dsimp only
      split
      · exact Quiet.reset hopened.cursor
      · exact hopened

theorem cursorIn_refreshArtwork (h : CursorIn s) (inputs : Inputs) :
    CursorIn (s.refreshArtwork inputs) := by
  unfold refreshArtwork
  split
  · have hload := relists_loadRomEntries s s.currentSystemId inputs.load
    dsimp only
    split
    · exact hload.cursor
    · split
      · exact (relists_selectAgain hload.cursor s.selectedPath).cursor
      · split
        · exact Or.inr ‹_›
        · exact hload.cursor
  · exact h

theorem Quiet.openGallery (hs : Quiet s) (inputs : Inputs) : Quiet (s.openGallery inputs) := by
  unfold State.openGallery
  split
  · exact hs
  · exact Quiet.reset (cursorIn_refreshArtwork hs.cursor inputs)

theorem Quiet.leaveToTop (hs : Quiet s) (entryScreen : Screen) :
    Quiet (s.leaveToTop entryScreen) := by
  have hremember := hs.relists (relists_rememberCursor hs.cursor)
  exact ⟨hremember.slide, hremember.pending, hremember.cursor⟩

theorem Quiet.openCoreSelect (hs : Quiet s) : Quiet s.openCoreSelect := by
  unfold State.openCoreSelect
  split
  · exact hs
  · split
    · exact hs
    · exact ⟨hs.slide, hs.pending, hs.cursor⟩

theorem Quiet.moveTo (hs : Quiet s) {cursor : ℕ} (h : CursorIn { s with romCursor := cursor }) :
    Quiet (s.moveTo cursor) := by
  unfold State.moveTo
  split
  · exact hs
  · have hmoved : Quiet { s with romCursor := cursor } := ⟨hs.slide, hs.pending, h⟩
    exact hmoved.relists (relists_rememberCursor h)

theorem Quiet.choose (hs : Quiet s) (inputs : Inputs) : Quiet (s.choose inputs) := by
  unfold State.choose
  split
  · exact hs
  · split
    · exact hs
    · exact ⟨hs.slide, hs.pending, hs.cursor⟩
  · exact ⟨hs.slide, hs.pending, hs.cursor⟩
  · exact ⟨hs.slide, hs.pending, hs.cursor⟩
  · exact hs.openListScreen _ _ _
  · exact hs.openListScreen _ _ _
  · exact hs.openRomScreen _ _
  · exact ⟨hs.slide, hs.pending, hs.cursor⟩
  · exact hs.relists (relists_refreshEntries hs.cursor _)

end Screens

section Slides

theorem cursorAfterDelta_lt (h : s.romCount ≠ 0) (baseCursor : ℕ) (delta : ℤ) :
    s.cursorAfterDelta baseCursor delta < s.romCount := by
  unfold cursorAfterDelta
  rw [if_neg h]
  dsimp only
  generalize hbase : (if s.romCount ≤ baseCursor then s.romCount - 1 else baseCursor) = base
  have hlt : base < s.romCount := by
    rw [← hbase]
    split <;> omega
  split
  · have hcount : (0 : ℤ) < s.romCount := by omega
    have hupper := Int.tmod_lt_of_pos ((base : ℤ) + delta) hcount
    have hlower := Int.lt_tmod_of_pos ((base : ℤ) + delta) hcount
    generalize Int.tmod ((base : ℤ) + delta) s.romCount = next at hupper hlower
    split <;> omega
  · split
    · split <;> omega
    · split <;> omega

theorem cursorAfterDelta_right (h : s.romCursor + 1 < s.romCount) :
    s.cursorAfterDelta s.romCursor 1 = s.romCursor + 1 := by
  have hbase : ¬s.romCount ≤ s.romCursor := by omega
  have hcount : s.romCount ≠ 0 := by omega
  have hmod : Int.tmod ((s.romCursor : ℤ) + 1) s.romCount = s.romCursor + 1 :=
    Int.tmod_eq_of_lt (by omega) (by omega)
  unfold cursorAfterDelta
  dsimp only
  rw [if_neg hcount, if_neg hbase, hmod]
  split
  · split <;> omega
  · have hstep : (1 : ℤ).natAbs = 1 := rfl
    rw [if_neg (by decide), hstep, if_neg (by omega)]

theorem cursorAfterDelta_left (hpos : 0 < s.romCursor) (h : s.romCursor < s.romCount) :
    s.cursorAfterDelta s.romCursor (-1) = s.romCursor - 1 := by
  have hbase : ¬s.romCount ≤ s.romCursor := by omega
  have hcount : s.romCount ≠ 0 := by omega
  have hmod : Int.tmod ((s.romCursor : ℤ) + -1) s.romCount = s.romCursor + -1 :=
    Int.tmod_eq_of_lt (by omega) (by omega)
  unfold cursorAfterDelta
  dsimp only
  rw [if_neg hcount, if_neg hbase, hmod]
  split
  · split <;> omega
  · have hstep : (-1 : ℤ).natAbs = 1 := rfl
    rw [if_pos (by decide), hstep]
    split <;> omega

/-- The gallery screen: the slide that is active leads to the cursor, and the step that waits was
computed from the list. -/
structure Steady (s : State) : Prop where
  cursor : CursorIn s
  target : s.slide.active = true → s.slide.toCursor = s.romCursor
  queued : s.pending.active = true → s.pendingLoads = s.loads
  duration : s.slide.active = true → s.slide.durationMs = transitionMs

theorem Quiet.steady (hs : Quiet s) : Steady s where
  cursor := hs.cursor
  target h := by rw [hs.slide] at h; cases h
  queued h := by rw [hs.pending] at h; cases h
  duration h := by rw [hs.slide] at h; cases h

theorem Steady.rememberCursor (hs : Steady s) : Steady s.rememberCursor := by
  obtain ⟨memory, heq⟩ := rememberCursor_eq s
  rw [heq]
  exact ⟨hs.cursor, hs.target, hs.queued, hs.duration⟩

theorem slideTo_eq (s : State) {toCursor : ℕ} (direction now : ℤ) (hne : toCursor ≠ s.romCursor)
    (hcount : s.romCount ≠ 0) :
    ∃ memory side, s.slideTo toCursor direction now = { s with
      slide := ⟨s.romCursor, toCursor, now, transitionMs, side, true⟩
      romCursor := toCursor
      cursorMemory := memory } := by
  obtain ⟨memory, heq⟩ := rememberCursor_eq
    { s.startTransition s.romCursor toCursor direction now with romCursor := toCursor }
  have hgo : ¬(s.romCursor = toCursor ∨ s.romCount = 0) := not_or.mpr ⟨Ne.symm hne, hcount⟩
  unfold slideTo
  rw [heq]
  unfold startTransition
  rw [if_neg hgo]
  exact ⟨memory, _, rfl⟩

theorem Steady.slideTo (hs : Steady s) {toCursor : ℕ} (direction now : ℤ)
    (hne : toCursor ≠ s.romCursor) (hlt : toCursor < s.romCount) :
    Steady (s.slideTo toCursor direction now) := by
  obtain ⟨memory, side, heq⟩ := slideTo_eq s direction now hne (by omega)
  rw [heq]
  exact ⟨Or.inr hlt, fun _ => rfl, hs.queued, fun _ => rfl⟩

theorem Steady.moveGalleryCursor (hs : Steady s) (delta now : ℤ) :
    Steady (s.moveGalleryCursor delta now) := by
  unfold State.moveGalleryCursor
  split
  · exact hs
  · rename_i hnot
    have hcount : s.romCount ≠ 0 := fun h => hnot (Or.inl h)
    split
    · dsimp only
      split
      · exact hs
      · have hin : CursorIn { s.resetGallery with
            romCursor := s.cursorAfterDelta s.romCursor delta } :=
          Or.inr (cursorAfterDelta_lt hcount _ _)
        have hquiet : Quiet { s.resetGallery with
            romCursor := s.cursorAfterDelta s.romCursor delta } := ⟨rfl, rfl, hin⟩
        exact hquiet.steady.rememberCursor
    · split
      · dsimp only
        split
        · exact hs
        · exact ⟨hs.cursor, hs.target, fun _ => rfl, hs.duration⟩
      · dsimp only
        split
        · exact hs
        · rename_i hne
          exact hs.slideTo _ _ hne (cursorAfterDelta_lt hcount _ _)

theorem moveGalleryCursor_moves (hslide : s.slide.active = false) {delta : ℤ}
    (hdelta : delta = -1 ∨ delta = 1) (now : ℤ) (hcount : s.romCount ≠ 0) :
    (s.moveGalleryCursor delta now).romCursor = s.cursorAfterDelta s.romCursor delta := by
  unfold State.moveGalleryCursor
  have hgo : ¬(s.romCount = 0 ∨ delta = 0) := by omega
  have hone : ¬(delta < -1 ∨ 1 < delta) := by omega
  rw [if_neg hgo, if_neg hone, hslide, if_neg Bool.false_ne_true]
  dsimp only
  split
  · exact Eq.symm ‹_›
  · obtain ⟨memory, side, heq⟩ := slideTo_eq s (if delta < 0 then -1 else 1) now ‹_› hcount
    rw [heq]

theorem Steady.transitionProgress (hs : Steady s) (now : ℤ) : Steady (s.transitionProgress now) := by
  unfold State.transitionProgress
  split
  · exact hs
  · split
    · exact ⟨hs.cursor, (fun h => by cases h), hs.queued, fun h => by cases h⟩
    · exact hs

theorem transitionProgress_over {now : ℤ} (hs : Steady s)
    (hover : s.slide.startMs + transitionMs ≤ now) :
    (s.transitionProgress now).slide.active = false := by
  unfold State.transitionProgress
  cases hactive : s.slide.active with
  | false =>
    rw [if_pos (Or.inl rfl)]
    exact hactive
  | true =>
    have hduration := hs.duration hactive
    have hpos : ¬(true = false ∨ s.slide.durationMs ≤ 0) := by
      rw [hduration]
      decide
    have hlong : s.slide.durationMs ≤ now - s.slide.startMs := by omega
    rw [if_neg hpos, if_pos hlong]

theorem startPending_spec (hs : Steady s) (hslide : s.slide.active = false)
    (now : ℤ) :
    Steady (s.startPending now).2 ∧
    ((s.startPending now).1 = false → (s.startPending now).2.slide.active = false) ∧
    ((s.startPending now).1 = true → s.pending.active = true ∧
      (s.startPending now).2.slide.startMs = now) := by
  unfold startPending
  split
  · exact ⟨hs, (fun _ => hslide), fun h => by cases h⟩
  · rename_i hnot
    have hpending : s.pending.active = true := by
      cases h : s.pending.active with
      | true => rfl
      | false => exact absurd (Or.inl h) hnot
    have hcount : s.romCount ≠ 0 := fun h => hnot (Or.inr h)
    dsimp only
    generalize htarget : (if s.romCount ≤ s.pending.cursor then s.romCount - 1
      else s.pending.cursor) = toCursor
    have hlt : toCursor < s.romCount := by
      rw [← htarget]
      split <;> omega
    have htaken : Steady { s with pending := { s.pending with active := false } } :=
      ⟨hs.cursor, hs.target, (fun h => by cases h), hs.duration⟩
    split
    · exact ⟨htaken, (fun _ => hslide), fun h => by cases h⟩
    · rename_i hne
      refine ⟨htaken.slideTo _ _ hne hlt, (fun h => by cases h), fun _ => ⟨hpending, ?_⟩⟩
      obtain ⟨memory, side, heq⟩ := slideTo_eq
        { s with pending := { s.pending with active := false } } s.pending.direction now hne hcount
      rw [heq]

theorem startPending_render (hs : Steady s) (hslide : s.slide.active = false) (clock : Clock) :
    let result := s.startPending clock.start
    let t := if result.1 then result.2.transitionProgress clock.again else result.2
    Steady t ∧ (t.slide.active = false ∨
      s.pending.active = true ∧ t.slide.startMs = clock.start) := by
  obtain ⟨hsteady, hdropped, hstarted⟩ := startPending_spec hs hslide clock.start
  dsimp only
  split
  · rename_i hyes
    obtain ⟨hpending, hstart⟩ := hstarted hyes
    refine ⟨hsteady.transitionProgress _, ?_⟩
    unfold transitionProgress
    split
    · exact Or.inr ⟨hpending, hstart⟩
    · split
      · exact Or.inl rfl
      · exact Or.inr ⟨hpending, hstart⟩
  · rename_i hno
    exact ⟨hsteady, Or.inl (hdropped (by simpa using hno))⟩

theorem Steady.renderGallery (hs : Steady s) (clock : Clock) : Steady (s.renderGallery clock) := by
  unfold State.renderGallery
  split
  · have hshown := hs.transitionProgress clock.progress
    dsimp only
    split
    · exact (startPending_render hshown ‹_ ∧ _›.1 clock).1
    · exact hshown
  · split
    · exact (startPending_render hs ‹_ ∧ _›.1 clock).1
    · exact hs

theorem renderGallery_over (hs : Steady s) {clock : Clock}
    (hover : s.slide.startMs + transitionMs ≤ clock.progress) :
    (s.renderGallery clock).slide.active = false ∨
      s.pending.active = true ∧ (s.renderGallery clock).slide.startMs = clock.start := by
  have hended := transitionProgress_over hs hover
  have hpending : (s.transitionProgress clock.progress).pending = s.pending := by
    unfold transitionProgress
    split
    · rfl
    · split <;> rfl
  unfold State.renderGallery
  split
  · have hshown := hs.transitionProgress clock.progress
    dsimp only
    split
    · rw [← hpending]
      exact (startPending_render hshown ‹_ ∧ _›.1 clock).2
    · exact Or.inl hended
  · rename_i hnot
    split
    · exact (startPending_render hs ‹_ ∧ _›.1 clock).2
    · -- a slide that is active leads to the cursor
      left
      cases hactive : s.slide.active with
      | false => rfl
      | true => exact absurd ⟨hactive, hs.target hactive⟩ hnot

end Slides

section Runs

/-- Where a load of the list on the gallery screen puts the cursor. -/
def landing (s : State) : Event → Option ℕ
  | .action .a inputs =>
    match s.romEntries[s.romCursor]? with
    | none => none
    | some entry =>
      if entry.isNavigationDirectory ∧ entry.relativePath ≠ [] ∧ s.currentSystemId ≠ [] then
        some (s.openDirectory entry inputs.load).romCursor
      else none
  | .action .b inputs =>
    if s.romDirectory ≠ [] ∧ s.currentSystemId ≠ [] ∧ inputs.load.ok then
      some (s.openParent inputs.load).2.romCursor
    else none
  | .action .y inputs =>
    if (s.toggleFavorite inputs).loads = s.loads then none
    else some (keptCursor s.romCursor inputs.load.entries)
  | _ => none

/-- On the gallery screen the list is loaded anew only where no step waits, and no slide is active
or the load leaves the cursor where it is. -/
def Careful (s : State) (event : Event) : Prop :=
  s.screen = .gallery → ∀ cursor, landing s event = some cursor →
    s.pending.active = false ∧ (s.slide.active = true → cursor = s.romCursor)

/-- What holds between two events. -/
structure Sound (s : State) : Prop where
  cursor : CursorIn s
  steady : s.screen = .gallery → Steady s
  away : s.screen ≠ .gallery → s.due = false → Quiet s

theorem Quiet.sound (hs : Quiet s) : Sound s := ⟨hs.cursor, fun _ => hs.steady, fun _ _ => hs⟩

theorem Steady.relists (hs : Steady s) (h : Relists s t)
    (hcase : (t.loads = s.loads ∧ t.romCursor = s.romCursor) ∨
      (s.pending.active = false ∧ (s.slide.active = true → t.romCursor = s.romCursor))) :
    Steady t where
  cursor := h.cursor
  target hactive := by
    rw [h.slide] at hactive ⊢
    have hsame : t.romCursor = s.romCursor := by
      rcases hcase with hstays | hload
      · exact hstays.2
      · exact hload.2 hactive
    exact (hs.target hactive).trans hsame.symm
  queued hactive := by
    rw [h.pending] at hactive
    rcases hcase with hstays | hload
    · rw [h.pendingLoads, hstays.1]
      exact hs.queued hactive
    · rw [hload.1] at hactive
      cases hactive
  duration hactive := by
    rw [h.slide] at hactive ⊢
    exact hs.duration hactive

theorem loads_openDirectory (s : State) (entry : Entry) (load : Load)
    (hplain : ¬(entry.isNavigationDirectory ∧ entry.relativePath ≠ [] ∧
      s.currentSystemId ≠ [])) :
    (s.openDirectory entry load).loads = s.loads ∧
      (s.openDirectory entry load).romCursor = s.romCursor := by
  obtain ⟨memory, heq⟩ := rememberCursor_eq s
  unfold openDirectory
  split
  · exact ⟨rfl, rfl⟩
  · rename_i hnot
    have hsystem : s.currentSystemId = [] := by
      by_contra hne
      refine hplain ⟨?_, fun h => hnot (Or.inr h), hne⟩
      cases hdir : entry.isNavigationDirectory with
      | true => rfl
      | false => exact absurd (Or.inl hdir) hnot
    dsimp only
    rw [heq]
    unfold reloadRomDirectory
    rw [if_pos hsystem]
    exact ⟨rfl, rfl⟩

theorem Steady.openDirectory (hs : Steady s) {entry : Entry} {inputs : Inputs}
    (hentry : s.romEntries[s.romCursor]? = some entry) (hscreen : s.screen = .gallery)
    (hC : Careful s (.action .a inputs)) : Steady (s.openDirectory entry inputs.load) := by
  apply hs.relists (relists_openDirectory hs.cursor entry inputs.load)
  by_cases hdir : entry.isNavigationDirectory ∧ entry.relativePath ≠ [] ∧ s.currentSystemId ≠ []
  · right
    apply hC hscreen
    show (match s.romEntries[s.romCursor]? with
      | none => none
      | some entry =>
        if entry.isNavigationDirectory ∧ entry.relativePath ≠ [] ∧ s.currentSystemId ≠ [] then
          some (s.openDirectory entry inputs.load).romCursor
        else none) = _
    rw [hentry]
    exact if_pos hdir
  · exact Or.inl (loads_openDirectory s entry inputs.load hdir)

theorem Steady.openParent (hs : Steady s) {inputs : Inputs} (hscreen : s.screen = .gallery)
    (hC : Careful s (.action .b inputs)) (hopened : (s.openParent inputs.load).1 = true) :
    Steady (s.openParent inputs.load).2 := by
  apply hs.relists (relists_openParent hs.cursor inputs.load)
  right
  apply hC hscreen
  obtain ⟨memory, heq⟩ := rememberCursor_eq s
  have hloads : s.romDirectory ≠ [] ∧ s.currentSystemId ≠ [] ∧ inputs.load.ok := by
    unfold State.openParent at hopened
    split at hopened
    · cases hopened
    · rename_i hdirectory
      refine ⟨hdirectory, ?_⟩
      unfold reloadRomDirectory at hopened
      rw [heq] at hopened
      dsimp only at hopened
      split at hopened
      · simp at hopened
      · rename_i hsystem
        refine ⟨hsystem, ?_⟩
        cases hok : inputs.load.ok with
        | true => rfl
        | false =>
          rw [hok] at hopened
          simp at hopened
  exact if_pos hloads

theorem Steady.toggleFavorite (hs : Steady s) {inputs : Inputs} (hscreen : s.screen = .gallery)
    (hC : Careful s (.action .y inputs)) : Steady (s.toggleFavorite inputs) := by
  apply hs.relists (relists_toggleFavorite hs.cursor inputs)
  rcases toggleFavorite_cases s inputs with heq | ⟨entry, isFavorite, heq⟩ | heq
  · rw [heq]
    exact Or.inl ⟨rfl, rfl⟩
  · rw [heq]
    exact Or.inl ⟨rfl, rfl⟩
  · right
    have hne : (s.toggleFavorite inputs).loads ≠ s.loads := by
      rw [heq]
      exact Nat.succ_ne_self _
    have hlanding := hC hscreen (keptCursor s.romCursor inputs.load.entries) (if_neg hne)
    rw [heq]
    exact hlanding

theorem screen_transitionProgress (s : State) (now : ℤ) :
    (s.transitionProgress now).screen = s.screen := by
  unfold transitionProgress
  split
  · rfl
  · split <;> rfl

theorem screen_startPending (s : State) (now : ℤ) : (s.startPending now).2.screen = s.screen := by
  unfold startPending
  split
  · rfl
  · rename_i hnot
    dsimp only
    generalize (if s.romCount ≤ s.pending.cursor then s.romCount - 1
      else s.pending.cursor) = toCursor
    split
    · rfl
    · rename_i hne
      obtain ⟨memory, side, heq⟩ := slideTo_eq
        { s with pending := { s.pending with active := false } } s.pending.direction now hne
        fun h => hnot (Or.inr h)
      rw [heq]

theorem screen_renderGallery (s : State) (clock : Clock) :
    (s.renderGallery clock).screen = s.screen := by
  have hpending : ∀ t : State, t.screen = s.screen →
      (if (t.startPending clock.start).1 then
        (t.startPending clock.start).2.transitionProgress clock.again
      else (t.startPending clock.start).2).screen = s.screen := by
    intro t ht
    split
    · rw [screen_transitionProgress, screen_startPending, ht]
    · rw [screen_startPending, ht]
  have hshown := screen_transitionProgress s clock.progress
  unfold renderGallery
  split
  · dsimp only
    split
    · exact hpending _ hshown
    · exact hshown
  · split
    · exact hpending s rfl
    · rfl

theorem Steady.render (hs : Steady s) (hscreen : s.screen = .gallery) (clock : Clock) :
    Steady (s.render clock) := by
  have hrendered := hs.renderGallery clock
  unfold State.render
  rw [if_pos hscreen]
  exact ⟨hrendered.cursor, hrendered.target, hrendered.queued, hrendered.duration⟩

theorem Quiet.render (hs : Quiet s) (hscreen : s.screen ≠ .gallery) (clock : Clock) :
    Quiet (s.render clock) := by
  unfold State.render
  rw [if_neg hscreen]
  exact ⟨rfl, rfl, hs.cursor⟩

theorem Steady.launchCurrent (hs : Steady s) {inputs : Inputs} (hscreen : s.screen = .gallery)
    (hC : Careful s (.action .a inputs)) : Steady (s.launchCurrent inputs) := by
  unfold State.launchCurrent
  split
  · exact hs
  · rename_i entry hentry
    have hremember : s.rememberCursor.screen = .gallery := by
      rw [(relists_rememberCursor hs.cursor).screen, hscreen]
    unfold launchEntry
    split
    · exact hs
    · split
      · exact hs.openDirectory hentry hscreen hC
      · dsimp only
        split
        · exact hs.rememberCursor
        · split
          · rename_i hrecent
            rw [hscreen] at hrecent
            cases hrecent
          · exact hs.rememberCursor.render hremember inputs.clock

theorem Steady.openCoreSelect (hs : Steady s) : Steady s.openCoreSelect := by
  unfold State.openCoreSelect
  split
  · exact hs
  · split
    · exact hs
    · exact ⟨hs.cursor, hs.target, hs.queued, hs.duration⟩

theorem Steady.galleryAction (hs : Steady s) {action : Action} {inputs : Inputs}
    (hscreen : s.screen = .gallery) (hC : Careful s (.action action inputs)) :
    Steady (s.galleryAction action inputs) := by
  cases action with
  | left => exact hs.moveGalleryCursor _ _
  | right => exact hs.moveGalleryCursor _ _
  | up => exact hs.moveGalleryCursor _ _
  | down => exact hs.moveGalleryCursor _ _
  | b =>
    show Steady (if (s.openParent inputs.load).1 then (s.openParent inputs.load).2
      else ((s.openParent inputs.load).2.leaveToTop .gallery).resetGallery)
    split
    · exact hs.openParent hscreen hC ‹_›
    · have hparent := relists_openParent hs.cursor inputs.load
      have hremember := relists_rememberCursor hparent.cursor
      have hleft : CursorIn ((s.openParent inputs.load).2.leaveToTop .gallery) := hremember.cursor
      exact (Quiet.reset hleft).steady
  | x =>
    have hquiet : Quiet (s.galleryAction .x inputs) := ⟨rfl, rfl, hs.cursor⟩
    exact hquiet.steady
  | y => exact hs.toggleFavorite hscreen hC
  | a => exact hs.launchCurrent hscreen hC
  | start => exact ⟨hs.cursor, hs.target, hs.queued, hs.duration⟩
  | select => exact hs.openCoreSelect
  | none => exact hs
  | function => exact hs
  | power => exact hs
  | volumeDown => exact hs
  | volumeUp => exact hs
  | quit => exact hs

theorem Quiet.launchEntry (hs : Quiet s) (hscreen : s.screen ≠ .gallery) (entry : Entry)
    (inputs : Inputs) : Quiet (s.launchEntry entry inputs) := by
  have hremember := relists_rememberCursor hs.cursor
  have hquiet := hs.relists hremember
  have hrender := hquiet.render (by rw [hremember.screen]; exact hscreen) inputs.clock
  unfold State.launchEntry
  split
  · exact hs
  · split
    · exact hs.relists (relists_openDirectory hs.cursor entry inputs.load)
    · dsimp only
      split
      · exact hquiet
      · split
        · exact hrender.relists (relists_loadEntries _ _)
        · exact hrender

theorem cursorIn_page {cursor : ℕ} (h : s.romCount = 0 ∨ cursor < s.romCount) : CursorIn { s with romCursor := cursor } := by
  rcases h with h | h
  · exact Or.inl (List.length_eq_zero_iff.mp h)
  · exact Or.inr h

theorem pageDown_lt (cursor pageSize : ℕ) {count : ℕ} (h : count ≠ 0) :
    pageDown cursor count pageSize < count := by
  unfold pageDown
  rw [if_neg h]
  split <;> omega

theorem pageUp_le (cursor pageSize : ℕ) : pageUp cursor pageSize ≤ cursor := by
  unfold pageUp
  split <;> omega

theorem Quiet.listAction (hs : Quiet s) (hscreen : s.screen ≠ .gallery) (action : Action)
    (inputs : Inputs) : Quiet (s.listAction action inputs) := by
  have hmove : ∀ cursor, (s.romCount ≠ 0 → cursor < s.romCount) → Quiet (s.moveTo cursor) := by
    intro cursor hlt
    apply hs.moveTo (cursorIn_page _)
    by_cases hcount : s.romCount = 0
    · exact Or.inl hcount
    · exact Or.inr (hlt hcount)
  have hparent := hs.relists (relists_openParent hs.cursor inputs.load)
  cases action with
  | x => exact hs.openGallery inputs
  | up => exact hmove _ fun h => cursorAfterDelta_lt h _ _
  | down => exact hmove _ fun h => cursorAfterDelta_lt h _ _
  | right => exact hmove _ (pageDown_lt _ _)
  | left =>
    apply hmove
    intro hcount
    have hlt : s.romCursor < s.romCount := by
      rcases hs.cursor with hnil | hlt
      · exact absurd (List.length_eq_zero_iff.mpr hnil) hcount
      · exact hlt
    exact Nat.lt_of_le_of_lt (pageUp_le _ _) hlt
  | b =>
    show Quiet (if s.screen = .roms then
      if (s.openParent inputs.load).1 then (s.openParent inputs.load).2
      else (s.openParent inputs.load).2.leaveToTop .roms
      else s.leaveToTop .roms)
    split
    · split
      · exact hparent
      · exact hparent.leaveToTop _
    · exact hs.leaveToTop _
  | y => exact hs.relists (relists_toggleFavorite hs.cursor inputs)
  | a =>
    show Quiet (s.launchCurrent inputs)
    unfold launchCurrent
    split
    · exact hs
    · exact hs.launchEntry hscreen _ inputs
  | start => exact ⟨hs.slide, hs.pending, hs.cursor⟩
  | select => exact hs.openCoreSelect
  | none => exact hs
  | function => exact hs
  | power => exact hs
  | volumeDown => exact hs
  | volumeUp => exact hs
  | quit => exact hs

theorem Quiet.handleAction (hs : Quiet s) (hscreen : s.screen ≠ .gallery) (action : Action)
    (inputs : Inputs) : Quiet (s.handleAction action inputs) := by
  have hsame : ∀ screen powerBackScreen : Screen,
      Quiet { s with screen := screen, powerBackScreen := powerBackScreen } :=
    fun _ _ => ⟨hs.slide, hs.pending, hs.cursor⟩
  unfold State.handleAction
  split
  · exact hs
  · exact hs
  · exact hs
  · exact hs
  · exact hs
  · split
    · exact hs
    · exact hs
    · exact hsame _ _
  · split
    · exact hs
    · rename_i hgallery
      exact absurd hgallery hscreen
    · exact hs.listAction hscreen action inputs
    · exact hs.listAction hscreen action inputs
    · exact hs.listAction hscreen action inputs
    · split
      · exact hsame _ _
      · split
        · exact hsame _ _
        · exact hs
    · split
      · exact hsame _ _
      · exact hs
    · split
      · exact hsame _ _
      · exact hs.choose inputs
    · exact hs.choose inputs

theorem Steady.handleAction (hs : Steady s) (hscreen : s.screen = .gallery) {action : Action}
    {inputs : Inputs} (hC : Careful s (.action action inputs)) :
    Steady (s.handleAction action inputs) := by
  have hgallery := hs.galleryAction hscreen hC
  unfold State.handleAction
  rw [hscreen]
  split
  · exact hs
  · exact hs
  · exact hs
  · exact hs
  · exact hs
  · exact ⟨hs.cursor, hs.target, hs.queued, hs.duration⟩
  · exact hgallery

theorem Sound.step (hs : Sound s) {event : Event} (hC : Careful s event) (h : Step s event t) :
    Sound t := by
  obtain ⟨hdue, rfl⟩ := h
  have hclear : (∀ clock, event ≠ .render clock) → s.due = false := by
    intro hnot
    cases hs' : s.due with
    | false => rfl
    | true =>
      obtain ⟨clock, hrender⟩ := hdue hs'
      exact absurd hrender (hnot clock)
  cases event with
  | render clock =>
    by_cases hscreen : s.screen = .gallery
    · have hsteady := (hs.steady hscreen).render hscreen clock
      refine ⟨hsteady.cursor, fun _ => hsteady, fun hne => absurd ?_ hne⟩
      show (s.render clock).screen = .gallery
      unfold State.render
      rw [if_pos hscreen]
      exact (screen_renderGallery s clock).trans hscreen
    · have hreset : Quiet (s.render clock) := by
        unfold State.render
        rw [if_neg hscreen]
        exact ⟨rfl, rfl, hs.cursor⟩
      exact hreset.sound
  | scanned systemId load =>
    show Sound (s.scanned systemId load)
    unfold State.scanned
    split
    · rename_i hroms
      have hne : s.screen ≠ .gallery := by
        rw [hroms.1]
        exact Screen.noConfusion
      have hquiet := hs.away hne (hclear fun _ h => by cases h)
      have hrefreshed := hquiet.relists (relists_refreshEntries hquiet.cursor load)
      exact Quiet.sound ⟨hrefreshed.slide, hrefreshed.pending, hrefreshed.cursor⟩
    · exact hs
  | action action inputs =>
    by_cases hscreen : s.screen = .gallery
    · have hsteady := (hs.steady hscreen).handleAction hscreen hC
      refine ⟨hsteady.cursor, fun _ => ?_, fun _ hno => by cases hno⟩
      exact ⟨hsteady.cursor, hsteady.target, hsteady.queued, hsteady.duration⟩
    · have hquiet := (hs.away hscreen (hclear fun _ h => by cases h)).handleAction hscreen action
        inputs
      exact Quiet.sound ⟨hquiet.slide, hquiet.pending, hquiet.cursor⟩

/-- A step of the event loop that loads the list where it may. -/
def StepIn (s : State) (event : Event) (t : State) : Prop := Step s event t ∧ Careful s event

/-- LEFT and RIGHT move the cursor, to the next entry where there is one. -/
def Moves (s : State) : Prop :=
  ∀ inputs,
    (s.romEntries ≠ [] →
      (s.handleAction .left inputs).romCursor = s.cursorAfterDelta s.romCursor (-1) ∧
      (s.handleAction .right inputs).romCursor = s.cursorAfterDelta s.romCursor 1) ∧
    (0 < s.romCursor → s.romCursor < s.romCount →
      (s.handleAction .left inputs).romCursor = s.romCursor - 1) ∧
    (s.romCursor + 1 < s.romCount →
      (s.handleAction .right inputs).romCursor = s.romCursor + 1)

theorem moves_of_ended (hscreen : s.screen = .gallery) (hended : s.slide.active = false) :
    Moves s := by
  intro inputs
  have hleft : s.romCount ≠ 0 →
      (s.handleAction .left inputs).romCursor = s.cursorAfterDelta s.romCursor (-1) := by
    unfold State.handleAction
    rw [hscreen]
    exact moveGalleryCursor_moves hended (Or.inl rfl) _
  have hright : s.romCount ≠ 0 →
      (s.handleAction .right inputs).romCursor = s.cursorAfterDelta s.romCursor 1 := by
    unfold State.handleAction
    rw [hscreen]
    exact moveGalleryCursor_moves hended (Or.inr rfl) _
  refine ⟨fun hne => ?_, fun hpos hlt => ?_, fun hlt => ?_⟩
  · have hcount : s.romCount ≠ 0 := fun h => hne (List.length_eq_zero_iff.mp h)
    exact ⟨hleft hcount, hright hcount⟩
  · rw [hleft (by omega), cursorAfterDelta_left hpos hlt]
  · rw [hright (by omega), cursorAfterDelta_right hlt]

/-- Where every step is careful, in every state on the gallery screen the cursor is in the list,
an active slide leads to it and a waiting step was computed from the list; a render behind the
end of the last slide leaves none active but that of the waiting step, and then LEFT and RIGHT
move the cursor. -/
theorem gallery_never_wedges {s₀ : State} {events : List Event} (h₀ : Quiet s₀)
    (hrun : Run StepIn s₀ events s) (hscreen : s.screen = .gallery) :
    (s.romEntries = [] ∨ s.romCursor < s.romCount) ∧
    (s.slide.active = true → s.slide.toCursor = s.romCursor) ∧
    (s.pending.active = true → s.pendingLoads = s.loads) ∧
    ∀ clock, s.slide.startMs + transitionMs ≤ clock.progress →
      ((s.render clock).slide.active = false ∨
        s.pending.active = true ∧ (s.render clock).slide.startMs = clock.start) ∧
      ((s.render clock).slide.active = false → Moves (s.render clock)) := by
  have hsound : Sound s := hrun.keeps h₀.sound fun hs hstep => hs.step hstep.2 hstep.1
  have hsteady := hsound.steady hscreen
  refine ⟨hsteady.cursor, hsteady.target, hsteady.queued, fun clock hover => ⟨?_, ?_⟩⟩
  · unfold State.render
    rw [if_pos hscreen]
    exact renderGallery_over hsteady hover
  · have hrendered : (s.render clock).screen = .gallery := by
      unfold State.render
      rw [if_pos hscreen]
      exact (screen_renderGallery s clock).trans hscreen
    exact moves_of_ended hrendered

/-- A list of a game, a directory and a game on the gallery screen. -/
def shelf : State where
  screen := .gallery
  backScreen := .top
  powerBackScreen := .top
  coreBackScreen := .top
  galleryBackScreen := .top
  romEntryScreen := .gallery
  romEntries := [⟨lit "nes", lit "a.nes", false, false⟩, ⟨lit "nes", lit "nes/rpg", true, false⟩,
    ⟨lit "nes", lit "z.nes", false, false⟩]
  romCursor := 0
  currentSystemId := lit "nes"
  romDirectory := []
  cursorMemory := []
  romCursorWrap := true
  slide := ⟨0, 0, 0, 0, 1, false⟩
  pending := ⟨0, 0, false⟩
  loads := 0
  pendingLoads := 0
  due := false

/-- The two games of its directory. -/
def rpgs : Load where
  entries := [⟨lit "nes", lit "nes/rpg/b.nes", false, false⟩,
    ⟨lit "nes", lit "nes/rpg/c.nes", false, false⟩]
  wrap := true
  ok := true

/-- An action at a time, which finds these games where it loads a list. -/
def inputsAt (now : ℤ) : Inputs where
  clock := ⟨now, now, now⟩
  load := rpgs
  favorites := ⟨[], true, true⟩
  succeeds := true
  graphic := true
  pageSize := 10
  choice := .stay

/-- A render at a time. -/
def renderAt (now : ℤ) : Event := .render ⟨now, now, now⟩

/-- RIGHT, and A on the directory when the slide to it is over. -/
def browsed : State :=
  (((shelf.step (.action .right (inputsAt 0))).step (renderAt 0)).step (renderAt 400)).step
    (.action .a (inputsAt 500))

theorem gallery_never_wedges_sample :
    browsed.screen = .gallery ∧ browsed.romEntries = rpgs.entries ∧
    (browsed.romEntries = [] ∨ browsed.romCursor < browsed.romCount) ∧
    (browsed.slide.active = true → browsed.slide.toCursor = browsed.romCursor) := by
  have hquiet : Quiet shelf := ⟨rfl, rfl, Or.inr (by decide)⟩
  have hright : StepIn shelf (.action .right (inputsAt 0))
      (shelf.step (.action .right (inputsAt 0))) := by
    refine ⟨⟨fun h => ?_, rfl⟩, fun _ _ h => ?_⟩
    · cases h
    · cases h
  have hrender : ∀ (t : State) (now : ℤ), StepIn t (renderAt now) (t.step (renderAt now)) := by
    intro t now
    refine ⟨⟨fun _ => ⟨_, rfl⟩, rfl⟩, fun _ _ h => ?_⟩
    cases h
  have hopen : StepIn (((shelf.step (.action .right (inputsAt 0))).step (renderAt 0)).step
      (renderAt 400)) (.action .a (inputsAt 500)) browsed := by
    refine ⟨⟨fun h => absurd h (by decide +kernel), rfl⟩, fun _ _ _ => ⟨by decide +kernel, ?_⟩⟩
    exact fun h => absurd h (by decide +kernel)
  have hrun := (((Run.single hright).concat (hrender _ 0)).concat (hrender _ 400)).concat hopen
  have hscreen : browsed.screen = .gallery := by decide +kernel
  have hgood := gallery_never_wedges hquiet hrun hscreen
  exact ⟨hscreen, by decide +kernel, hgood.1, hgood.2.1⟩

/-- The same, while the slide to the directory is active. -/
def wedged : State :=
  ((shelf.step (.action .right (inputsAt 0))).step (renderAt 100)).step (.action .a (inputsAt 200))

theorem gallery_wedges :
    (∃ events, Run Step shelf events wedged) ∧ wedged.screen = .gallery ∧
    wedged.slide.active = true ∧ wedged.slide.toCursor ≠ wedged.romCursor ∧
    (wedged.step (renderAt 10000)).slide.active = true ∧
    ((wedged.step (renderAt 10000)).handleAction .right (inputsAt 10000)).romCursor =
      (wedged.step (renderAt 10000)).romCursor := by
  have hright : Step shelf (.action .right (inputsAt 0))
      (shelf.step (.action .right (inputsAt 0))) := by
    refine ⟨fun h => ?_, rfl⟩
    cases h
  have hrender : Step (shelf.step (.action .right (inputsAt 0))) (renderAt 100)
      ((shelf.step (.action .right (inputsAt 0))).step (renderAt 100)) :=
    ⟨fun _ => ⟨_, rfl⟩, rfl⟩
  have hopen : Step ((shelf.step (.action .right (inputsAt 0))).step (renderAt 100))
      (.action .a (inputsAt 200)) wedged :=
    ⟨fun h => absurd h (by decide +kernel), rfl⟩
  exact ⟨⟨_, ((Run.single hright).concat hrender).concat hopen⟩, by decide +kernel,
    by decide +kernel, by decide +kernel, by decide +kernel, by decide +kernel⟩

end Runs

end PlumosBubble.Gallery
