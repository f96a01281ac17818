import PlumosBubble.Frontend.GalleryRuns

/-! Which screen the lists of ROMs and the gallery lead to. Nothing that they do changes where B
leads from the START menu and from the power menu; the choice of a core comes back to the list
that it was opened from. -/

namespace PlumosBubble.Gallery

open Frontend State

variable {s : State}

/-- The screen, and the screens that B leads back to. -/
structure Places where
  screen : Screen
  back : Screen
  powerBack : Screen
  coreBack : Screen

def State.places (s : State) : Places :=
  ⟨s.screen, s.backScreen, s.powerBackScreen, s.coreBackScreen⟩

/-- TOP, the lists of ROMs and the gallery, whose B leads towards TOP. -/
def Base (screen : Screen) : Prop :=
  screen = .top ∨ screen = .roms ∨ screen = .favorites ∨ screen = .recent ∨ screen = .gallery

instance (screen : Screen) : Decidable (Base screen) := by
  unfold Base
  infer_instance

section Lists

@[simp]
theorem places_rememberCursor (s : State) : s.rememberCursor.places = s.places := by
  obtain ⟨memory, heq⟩ := rememberCursor_eq s
  rw [heq]
  rfl

@[simp]
theorem places_restoreCursor (s : State) : s.restoreCursor.places = s.places := by
  unfold restoreCursor
  split <;> rfl

@[simp]
theorem places_loadEntries (s : State) (load : Load) : (s.loadEntries load).places = s.places := rfl

@[simp]
theorem places_loadRomEntries (s : State) (systemId : CString) (load : Load) :
    (s.loadRomEntries systemId load).places = s.places := by
  obtain ⟨wrap, heq⟩ := loadRomEntries_eq s systemId load
  rw [heq]
  rfl

theorem places_inDirectory (s : State) (directory : CString) :
    State.places { s with romDirectory := directory } = s.places := rfl

@[simp]
theorem places_reloadRomDirectory (s : State) (load : Load) :
    (s.reloadRomDirectory load).2.places = s.places := by
  unfold reloadRomDirectory
  split
  · rfl
  · split
    · rw [places_restoreCursor, places_loadRomEntries]
    · rw [places_loadRomEntries]

@[simp]
theorem places_openDirectory (s : State) (entry : Entry) (load : Load) :
    (s.openDirectory entry load).places = s.places := by
  unfold openDirectory
  dsimp only
  split
  · rfl
  · split
    · rw [places_reloadRomDirectory, places_inDirectory, places_rememberCursor]
    · rw [places_inDirectory, places_reloadRomDirectory, places_inDirectory,
        places_rememberCursor]

@[simp]
theorem places_openParent (s : State) (load : Load) :
    (s.openParent load).2.places = s.places := by
  unfold openParent
  dsimp only
  split
  · rfl
  · split
    · rw [places_reloadRomDirectory, places_inDirectory, places_rememberCursor]
    · rw [places_inDirectory, places_reloadRomDirectory, places_inDirectory,
        places_rememberCursor]

@[simp]
theorem places_toggleFavorite (s : State) (inputs : Inputs) :
    (s.toggleFavorite inputs).places = s.places := by
  rcases toggleFavorite_cases s inputs with heq | ⟨entry, isFavorite, heq⟩ | heq
  · rw [heq]
  · rw [heq]
    rfl
  · rw [heq]
    rfl

theorem places_openListScreen (s : State) (screen : Screen) (systemId : CString) (load : Load) :
    (s.openListScreen screen systemId load).places = { s.places with screen := screen } := by
  unfold openListScreen
  dsimp only
  split
  · rw [places_restoreCursor]
    rfl
  · rfl

theorem places_openRomList (s : State) (systemId : CString) (load : Load) :
    (s.openRomList systemId load).places = { s.places with screen := .roms } := by
  unfold openRomList
  dsimp only
  split
  · rw [places_restoreCursor, places_loadRomEntries]
    rfl
  · rw [places_loadRomEntries]
    rfl

theorem places_openRomScreen (s : State) (systemId : CString) (inputs : Inputs) :
    ∃ screen, Base screen ∧
      (s.openRomScreen systemId inputs).places = { s.places with screen := screen } := by
  unfold openRomScreen
  dsimp only
  split
  · exact ⟨.favorites, by decide, places_openListScreen ..⟩
  · split
    · exact ⟨.recent, by decide, places_openListScreen ..⟩
    · have hlist := places_openRomList s systemId inputs.load
      split
      · refine ⟨.gallery, by decide, ?_⟩
        show { (s.openRomList systemId inputs.load).places with screen := .gallery } = _
        rw [hlist]
      · exact ⟨.roms, by decide, hlist⟩

@[simp]
theorem places_selectAgain (s : State) (relativePath : CString) :
    (s.selectAgain relativePath).places = s.places := by
  unfold selectAgain
  split <;> rfl

@[simp]
theorem places_refreshArtwork (s : State) (inputs : Inputs) :
    (s.refreshArtwork inputs).places = s.places := by
  unfold refreshArtwork
  dsimp only
  split
  · split
    · rw [places_loadRomEntries]
    · split
      · rw [places_selectAgain, places_loadRomEntries]
      · split
        · rw [← places_loadRomEntries s s.currentSystemId inputs.load]
          rfl
        · rw [places_loadRomEntries]
  · rfl

theorem places_openGallery (s : State) (inputs : Inputs) :
    (s.openGallery inputs).places = s.places ∨
      (s.openGallery inputs).places = { s.places with screen := .gallery } := by
  unfold openGallery
  split
  · exact Or.inl rfl
  · right
    show { (s.refreshArtwork inputs).places with screen := .gallery } = _
    rw [places_refreshArtwork]

@[simp]
theorem places_refreshEntries (s : State) (load : Load) :
    (s.refreshEntries load).places = s.places := by
  unfold refreshEntries
  dsimp only
  split
  · rfl
  · split
    · rw [places_loadRomEntries]
    · rw [places_selectAgain, places_loadRomEntries]

end Lists

section Directories

theorem romDirectory_reloadRomDirectory (s : State) (load : Load) :
    (s.reloadRomDirectory load).2.romDirectory = s.romDirectory := by
  have hload : ∀ systemId, (s.loadRomEntries systemId load).romDirectory = s.romDirectory := by
    intro systemId
    obtain ⟨wrap, heq⟩ := loadRomEntries_eq s systemId load
    rw [heq]
    rfl
  have hrestore : ∀ t : State, t.restoreCursor.romDirectory = t.romDirectory := by
    intro t
    unfold restoreCursor
    split <;> rfl
  unfold reloadRomDirectory
  split
  · rfl
  · split
    · rw [hrestore, hload]
    · rw [hload]

theorem length_parentDirectory {directory : CString} (h : directory ≠ []) :
    (parentDirectory directory).length < directory.length := by
  have hpos : 0 < directory.length := List.length_pos_iff.mpr h
  unfold parentDirectory
  split
  · rename_i front rest hsplit
    obtain ⟨hdirectory, -⟩ := splitLast_eq_some.mp hsplit
    split
    · rw [hdirectory, List.length_append, List.length_cons]
      omega
    · exact hpos
  · exact hpos

theorem romDirectory_openParent {load : Load} (h : (s.openParent load).1 = true) :
    (s.openParent load).2.romDirectory.length < s.romDirectory.length := by
  unfold openParent at h ⊢
  dsimp only at h ⊢
  split
  · rename_i hnil
    rw [if_pos hnil] at h
    cases h
  · rename_i hnil
    rw [if_neg hnil] at h
    split
    · rw [romDirectory_reloadRomDirectory]
      exact length_parentDirectory hnil
    · rename_i hfail
      rw [if_neg hfail] at h
      cases h

end Directories

section Slides

@[simp]
theorem places_startTransition (s : State) (fromCursor toCursor : ℕ) (direction now : ℤ) :
    (s.startTransition fromCursor toCursor direction now).places = s.places := by
  unfold startTransition
  split <;> rfl

@[simp]
theorem places_slideTo (s : State) (toCursor : ℕ) (direction now : ℤ) :
    (s.slideTo toCursor direction now).places = s.places := by
  unfold slideTo
  rw [places_rememberCursor]
  exact places_startTransition ..

@[simp]
theorem places_startPending (s : State) (now : ℤ) : (s.startPending now).2.places = s.places := by
  unfold startPending
  dsimp only
  split
  · rfl
  · generalize (if s.romCount ≤ s.pending.cursor then s.romCount - 1 else s.pending.cursor) = next
    split
    · rfl
    · exact places_slideTo ..

@[simp]
theorem places_transitionProgress (s : State) (now : ℤ) :
    (s.transitionProgress now).places = s.places := by
  unfold transitionProgress
  split
  · rfl
  · split <;> rfl

theorem places_started (s : State) (clock : Clock) :
    (if (s.startPending clock.start).1 then
      (s.startPending clock.start).2.transitionProgress clock.again
      else (s.startPending clock.start).2).places = s.places := by
  split
  · rw [places_transitionProgress, places_startPending]
  · rw [places_startPending]

@[simp]
theorem places_renderGallery (s : State) (clock : Clock) :
    (s.renderGallery clock).places = s.places := by
  unfold renderGallery
  dsimp only
  split
  · split
    · rw [places_started, places_transitionProgress]
    · rw [places_transitionProgress]
  · split
    · exact places_started s clock
    · rfl

@[simp]
theorem places_render (s : State) (clock : Clock) : (s.render clock).places = s.places := by
  unfold render
  split
  · exact places_renderGallery s clock
  · rfl

@[simp]
theorem places_moveGalleryCursor (s : State) (delta now : ℤ) :
    (s.moveGalleryCursor delta now).places = s.places := by
  unfold moveGalleryCursor
  dsimp only
  split
  · rfl
  · split
    · split
      · rfl
      · rw [places_rememberCursor]
        rfl
    · split
      · split <;> rfl
      · split
        · rfl
        · exact places_slideTo ..

end Slides

section Actions

@[simp]
theorem places_launchEntry (s : State) (entry : Entry) (inputs : Inputs) :
    (s.launchEntry entry inputs).places = s.places := by
  unfold launchEntry
  dsimp only
  split
  · rfl
  · split
    · exact places_openDirectory ..
    · split
      · exact places_rememberCursor s
      · split
        · rw [places_loadEntries, places_render, places_rememberCursor]
        · rw [places_render, places_rememberCursor]

@[simp]
theorem places_launchCurrent (s : State) (inputs : Inputs) :
    (s.launchCurrent inputs).places = s.places := by
  unfold launchCurrent
  split
  · rfl
  · exact places_launchEntry ..

theorem places_leaveToTop (s : State) (entryScreen : Screen) :
    (s.leaveToTop entryScreen).places = { s.places with screen := .top } := by
  show { s.rememberCursor.places with screen := .top } = _
  rw [places_rememberCursor]

@[simp]
theorem places_moveTo (s : State) (cursor : ℕ) : (s.moveTo cursor).places = s.places := by
  unfold moveTo
  split
  · rfl
  · rw [places_rememberCursor]
    rfl

@[simp]
theorem places_scanned (s : State) (systemId : CString) (load : Load) :
    (s.scanned systemId load).places = s.places := by
  unfold scanned
  split
  · exact places_refreshEntries s load
  · rfl

/-- Where an action leads from a list: to a list, to the gallery, to TOP, or to the choice of a core
for an entry of the list. -/
inductive Leads (s t : State) : Prop
  | base (screen : Screen) (h : Base screen)
      (heq : t.places = { s.places with screen := screen })
  | core (heq : t.places = { s.places with screen := .coreSelect, coreBack := s.screen })

theorem Leads.stay {t : State} (hs : Base s.screen) (h : t.places = s.places) : Leads s t :=
  .base s.screen hs h

theorem leads_openCoreSelect (hs : Base s.screen) : Leads s s.openCoreSelect := by
  unfold openCoreSelect
  split
  · exact .stay hs rfl
  · split
    · exact .stay hs rfl
    · exact .core rfl

theorem leads_leaveToTop (s : State) (entryScreen : Screen) :
    Leads s (s.leaveToTop entryScreen) :=
  .base .top (by decide) (places_leaveToTop s entryScreen)

theorem leads_parentOrTop (hs : Base s.screen) (load : Load) (entryScreen : Screen) :
    Leads s (if (s.openParent load).1 then (s.openParent load).2
      else (s.openParent load).2.leaveToTop entryScreen) := by
  have hparent := places_openParent s load
  split
  · exact .stay hs hparent
  · refine .base .top (by decide) ?_
    rw [places_leaveToTop, hparent]

theorem leads_listAction (hs : Base s.screen) {action : Action} (hstart : action ≠ .start)
    (inputs : Inputs) : Leads s (s.listAction action inputs) := by
  cases action
  case start => exact absurd rfl hstart
  case x =>
    rcases places_openGallery s inputs with h | h
    · exact .stay hs h
    · exact .base .gallery (by decide) h
  case b =>
    show Leads s (if s.screen = .roms then _ else _)
    split
    · exact leads_parentOrTop hs inputs.load .roms
    · exact leads_leaveToTop s .roms
  case y => exact .stay hs (places_toggleFavorite s inputs)
  case a => exact .stay hs (places_launchCurrent s inputs)
  case select => exact leads_openCoreSelect hs
  case up | down | left | right => exact .stay hs (places_moveTo ..)
  all_goals exact .stay hs rfl

theorem leads_galleryAction (hs : Base s.screen) {action : Action} (hstart : action ≠ .start)
    (inputs : Inputs) : Leads s (s.galleryAction action inputs) := by
  cases action
  case start => exact absurd rfl hstart
  case x =>
    show Leads s (State.resetGallery { s with screen := if _ then _ else _, romEntryScreen := _ })
    split
    · rename_i hback
      refine .base s.galleryBackScreen ?_ rfl
      rcases hback with h | h
      · rw [h]; decide
      · rw [h]; decide
    · exact .base .roms (by decide) rfl
  case b =>
    have hleads := leads_parentOrTop hs inputs.load .gallery
    show Leads s (if _ then _ else _)
    split
    · rename_i h
      rwa [if_pos h] at hleads
    · rename_i h
      rw [if_neg h] at hleads
      cases hleads with
      | base screen hscreen heq => exact .base screen hscreen heq
      | core heq => exact .core heq
  case y => exact .stay hs (places_toggleFavorite s inputs)
  case a => exact .stay hs (places_launchCurrent s inputs)
  case select => exact leads_openCoreSelect hs
  case up | down | left | right => exact .stay hs (places_moveGalleryCursor ..)
  all_goals exact .stay hs rfl

end Actions

end PlumosBubble.Gallery
