import PlumosBubble.Frontend.FavoritesFile
import PlumosBubble.Controller.Menus
import PlumosBubble.Launch.Overrides

/-! The list of recent games: `plumos_text_ui.c` writes and reads it, the controller reads it.
The time and the thumbnail go with an entry; nothing that starts a game looks at them. -/

namespace PlumosBubble.Frontend

/-- `struct recent_entry`. -/
structure TextUi.RecentEntry where
  systemId : Buffer 64
  relativePath : Buffer 1024
  title : Buffer 256
  fileName : Buffer 256
  path : Buffer 1024
  thumbnail : Buffer 1024
  launchProfile : Buffer 128
  lastPlayedAt : Buffer 64
  resumeAvailable : Bool

namespace TextUi

/-- `MAX_RECENTS`. -/
def maxRecents : ℕ := 256

/-- `find_recent`. -/
def findRecent (state : List RecentEntry) (systemId relativePath : CString) : Option ℕ :=
  state.findIdx? fun entry =>
    entry.systemId.text = systemId && entry.relativePath.text = relativePath

/-- An object of the list, as it is read. -/
def readRecent (object : CString) : RecentEntry where
  systemId := (jsonGetString 64 (lit "system_id") (rangeDup object)).into .empty
  relativePath := (jsonGetString 1024 (lit "relative_path") (rangeDup object)).into .empty
  title := (jsonGetString 256 (lit "title") (rangeDup object)).into .empty
  fileName := (jsonGetString 256 (lit "file_name") (rangeDup object)).into .empty
  path := (jsonGetString 1024 (lit "path") (rangeDup object)).into .empty
  thumbnail := (jsonGetString 1024 (lit "thumbnail") (rangeDup object)).into .empty
  launchProfile := (jsonGetString 128 (lit "launch_profile") (rangeDup object)).into .empty
  lastPlayedAt := (jsonGetString 64 (lit "last_played_at") (rangeDup object)).into .empty
  resumeAvailable := Controller.jsonGetBool (lit "resume_available") (rangeDup object) false

/-- The title of an entry that was read. -/
def RecentEntry.withTitle (entry : RecentEntry) : RecentEntry :=
  if entry.title.nonempty then entry
  else { entry with title :=
    if entry.fileName.nonempty then entry.fileName.copy else entry.relativePath.copy }

/-- The checks of `load_recent`. -/
def RecentEntry.accepted (entry : RecentEntry) : Bool :=
  validSystemId entry.systemId.text && validRelativeRomPath entry.relativePath.text &&
    entry.launchProfile.nonempty

/-- One round of the loop of `load_recent`. -/
def addRecent (state : List RecentEntry) (entry : RecentEntry) : List RecentEntry :=
  if state.length < maxRecents && entry.accepted &&
      findRecent state entry.systemId.text entry.relativePath.text = none then
    state ++ [entry.withTitle]
  else state

/-- `load_recent`. -/
def loadRecent : Option CString → Option (List RecentEntry)
  | none => some []
  | some json =>
    if json = [] then some []
    else (jsonFindArray (lit "recents") json).map fun body =>
      ((jsonObjects body).map readRecent).foldl addRecent []

/-- The strings of an entry, as they are written. -/
def recentStrings (entry : RecentEntry) : List (CString × CString) :=
  [(lit "system_id", entry.systemId.text), (lit "relative_path", entry.relativePath.text),
    (lit "title", entry.title.text), (lit "file_name", entry.fileName.text),
    (lit "path", entry.path.text), (lit "thumbnail", entry.thumbnail.text),
    (lit "launch_profile", entry.launchProfile.text),
    (lit "last_played_at", entry.lastPlayedAt.text)]

/-- `%s` of a flag. -/
def boolText (b : Bool) : CString := if b then lit "true" else lit "false"

/-- An entry of the file. -/
def recentLine (entry : RecentEntry) : CString :=
  lit "    \x7b \"system_id\": " ++ jsonWriteEscaped entry.systemId.text ++
  lit ", \"relative_path\": " ++ jsonWriteEscaped entry.relativePath.text ++
  lit ", \"title\": " ++ jsonWriteEscaped entry.title.text ++
  lit ", \"file_name\": " ++ jsonWriteEscaped entry.fileName.text ++
  lit ", \"path\": " ++ jsonWriteEscaped entry.path.text ++
  lit ", \"thumbnail\": " ++ jsonWriteEscaped entry.thumbnail.text ++
  lit ", \"launch_profile\": " ++ jsonWriteEscaped entry.launchProfile.text ++
  lit ", \"last_played_at\": " ++ jsonWriteEscaped entry.lastPlayedAt.text ++
  lit ", \"resume_available\": " ++ boolText entry.resumeAvailable ++ lit " \x7d"

/-- `save_recent`. -/
def saveRecent (state : List RecentEntry) : CString :=
  lit "\x7b\n" ++ lit "  \"version\": 1,\n" ++ lit "  \"recents\": [\n" ++
    listLines (state.map recentLine) ++ lit "  ]\n" ++ lit "\x7d\n"

/-- `recent_entry_from_rom`, with the path that the launch has made. -/
def recentEntryFromRom (systemId : CString) (rom : RomEntry) (launchProfile playedAt : CString) :
    RecentEntry where
  systemId := (bufferOf 64 systemId).getD .empty
  relativePath := rom.relativePath
  title := if rom.title.nonempty then rom.title else rom.relativePath.copy
  fileName := rom.fileName
  path := rom.path
  thumbnail := rom.thumbnail
  launchProfile := (bufferOf 128 launchProfile).getD .empty
  lastPlayedAt := (bufferOf 64 playedAt).getD .empty
  resumeAvailable := true

/-- `add_recent_entry`. -/
def addRecentEntry (state : List RecentEntry) (entry : RecentEntry) : List RecentEntry :=
  match findRecent state entry.systemId.text entry.relativePath.text with
  | some i => entry :: state.eraseIdx i
  | none => (entry :: state).take maxRecents

end TextUi

/-- An entry of the controller's list, as far as a launch looks at it. -/
structure ControllerUi.RecentRom where
  systemId : Buffer 64
  relativePath : Buffer 1024
  launchProfile : Buffer 128

namespace ControllerUi

/-- An object of the list, as it is read. -/
def readRecent (object : CString) : RecentRom where
  systemId := (jsonGetString 64 (lit "system_id") object).into .empty
  relativePath := (jsonGetString 1024 (lit "relative_path") object).into .empty
  launchProfile := (jsonGetString 128 (lit "launch_profile") object).into .empty

/-- `load_recent_entries`. -/
def loadRecentEntries : Option CString → Option (List RecentRom)
  | none => some []
  | some json =>
    (jsonFindArray (lit "recents") json).map fun body => (jsonObjects body).map readRecent

end ControllerUi

namespace TextUi

/-- The fields of an entry. -/
def recentFields (entry : RecentEntry) : List (CString × CString) :=
  stringFields jsonWriteTable (recentStrings entry) ++
    [(lit "resume_available", boolText entry.resumeAvailable)]

theorem keyed_recentStrings (entry : RecentEntry) : Keyed (recentStrings entry) where
  isKey := by
    have hkeys : ∀ k ∈ (recentStrings entry).map Prod.fst, isKey k = true := by
      show ∀ k ∈ [lit "system_id", lit "relative_path", lit "title", lit "file_name",
        lit "path", lit "thumbnail", lit "launch_profile", lit "last_played_at"],
        isKey k = true
      decide
    exact fun f hf => hkeys _ (List.mem_map_of_mem hf)
  nodup := by
    show [lit "system_id", lit "relative_path", lit "title", lit "file_name", lit "path",
      lit "thumbnail", lit "launch_profile", lit "last_played_at"].Nodup
    decide
  noNul := by
    simp [recentStrings, entry.systemId.noNul, entry.relativePath.noNul, entry.title.noNul,
      entry.fileName.noNul, entry.path.noNul, entry.thumbnail.noNul,
      entry.launchProfile.noNul, entry.lastPlayedAt.noNul]

set_option maxRecDepth 2000 in
theorem recentLine_eq (entry : RecentEntry) :
    recentLine entry = lit "    " ++ objectText oneLine (recentFields entry) := by
  unfold recentLine objectText objectBody recentFields recentStrings stringFields jsonWriteEscaped
  simp only [List.map_cons, List.map_nil, joinFields, fieldText, oneLine, List.nil_append, braced,
    List.append_assoc, List.cons_append]
  rfl

theorem boolText_plain (b : Bool) {opening closing : UInt8}
    (hopening : opening = openBrace ∨ opening = openBracket)
    (hclosing : closing = closeBrace ∨ closing = closeBracket) :
    Neutral opening closing (boolText b) := by
  rcases hopening with rfl | rfl <;> rcases hclosing with rfl | rfl <;> cases b <;>
    exact neutral_plain (by decide +kernel)

theorem neutral_recentFields (entry : RecentEntry) {opening closing : UInt8}
    (hopening : opening = openBrace ∨ opening = openBracket)
    (hclosing : closing = closeBrace ∨ closing = closeBracket) :
    Neutral opening closing (objectBody oneLine (recentFields entry)) := by
  have hopen : isBracket opening = true := by
    rcases hopening with rfl | rfl <;> decide
  have hclose : isBracket closing = true := by
    rcases hclosing with rfl | rfl <;> decide
  apply neutral_objectBody hopen hclose
  intro f hf
  rcases List.mem_append.1 hf with hf | hf
  · exact neutral_stringFields (keyed_recentStrings entry) f hf
  · rw [List.mem_singleton.1 hf]
    have hkey : isKey (lit "resume_available") = true := by decide
    exact ⟨hkey, boolText_plain entry.resumeAvailable hopening hclosing⟩

theorem saveRecent_eq (state : List RecentEntry) :
    saveRecent state = versionedList (lit "recents")
      ((state.map fun e => objectBody oneLine (recentFields e)).map fun body =>
        lit "    " ++ braced body) := by
  have hlines : state.map recentLine =
      (state.map fun e => objectBody oneLine (recentFields e)).map fun body =>
        lit "    " ++ braced body := by
    rw [List.map_map]
    apply List.map_congr_left
    intro e _
    exact recentLine_eq e
  have hhead : lit "\x7b\n" ++ lit "  \"version\": 1,\n" ++ lit "  \"recents\": [\n" =
      lit "\x7b\n  \"version\": 1,\n  \"" ++ lit "recents" ++ lit "\": [\n" := rfl
  have htail : lit "  ]\n" ++ lit "\x7d\n" = lit "  ]\n\x7d\n" := rfl
  unfold saveRecent versionedList
  rw [hhead, hlines, List.append_assoc _ (lit "  ]\n"), htail]

theorem objects_saveRecent (state : List RecentEntry) :
    (jsonFindArray (lit "recents") (saveRecent state)).map jsonObjects =
      some (state.map fun e => objectText oneLine (recentFields e)) := by
  rw [saveRecent_eq, objects_versionedList (by decide) (by decide)]
  · rw [List.map_map]
    rfl
  · simpa using fun e _ => neutral_recentFields e (.inl rfl) (.inl rfl)
  · simpa using fun e _ => neutral_recentFields e (.inr rfl) (.inr rfl)

/-! ### What is read back -/

theorem rangeDup_recent (entry : RecentEntry) :
    rangeDup (objectText oneLine (recentFields entry)) =
      objectText oneLine (recentFields entry) := by
  apply rangeDup_eq
  apply noNul_objectText
  have hkey : 0 ∉ quoted (lit "resume_available") ++ lit ": " := by decide
  have hvalue : 0 ∉ boolText entry.resumeAvailable := by
    cases entry.resumeAvailable <;> decide
  intro f hf
  rcases List.mem_append.1 hf with hf | hf
  · exact noNul_stringFields (keyed_recentStrings entry) f hf
  · rw [List.mem_singleton.1 hf]
    unfold fieldText
    simp only [List.mem_append] at hkey ⊢
    tauto

theorem jsonGetString_recent (entry : RecentEntry) {size : ℕ} [NeZero size] {key s : CString}
    (hmem : (key, s) ∈ recentStrings entry) :
    (TextUi.jsonGetString size key (objectText oneLine (recentFields entry))).into .empty =
      .cut (reread jsonWriteTable s) :=
  TextUi.jsonGetString_stringFields (keyed_recentStrings entry) hmem .empty

/-- An entry of which a launch finds all that it looks at again in the file. -/
structure RecentEntry.Kept (entry : RecentEntry) : Prop where
  accepted : entry.accepted = true
  relativePath : Lettered jsonWriteTable entry.relativePath.text
  path : Lettered jsonWriteTable entry.path.text
  launchProfile : validLaunchProfileId entry.launchProfile.text = true

theorem lettered_of_large {s : CString} (h : ∀ c ∈ s, ¬c < 0x20) : Lettered jsonWriteTable s :=
  fun c hc hsmall => absurd hsmall (h c hc)

theorem large_of_isAlnum {c : UInt8} (h : isAlnum c = true) : ¬c < 0x20 := by
  have hall : ∀ n < 256, isAlnum (UInt8.ofNat n) = true → ¬UInt8.ofNat n < 0x20 := by
    decide +kernel
  have hbyte := hall c.toNat c.toNat_lt
  rw [UInt8.ofNat_toNat] at hbyte
  exact hbyte h

theorem lettered_of_validSystemId {s : CString} (h : validSystemId s = true) :
    Lettered jsonWriteTable s := by
  apply lettered_of_large
  simp only [validSystemId, Bool.and_eq_true, List.all_eq_true, Bool.or_eq_true,
    decide_eq_true_eq] at h
  intro c hc
  rcases h.2 c hc with (hletter | rfl) | rfl
  · exact large_of_isAlnum hletter
  · decide
  · decide

theorem lettered_of_validLaunchProfileId {s : CString} (h : validLaunchProfileId s = true) :
    Lettered jsonWriteTable s := by
  apply lettered_of_large
  simp only [validLaunchProfileId, Bool.and_eq_true, List.all_eq_true, Bool.or_eq_true,
    decide_eq_true_eq] at h
  intro c hc
  rcases h.2 c hc with (((hletter | rfl) | rfl) | rfl) | rfl
  · exact large_of_isAlnum hletter
  · decide
  · decide
  · decide
  · decide

theorem RecentEntry.Kept.systemId {entry : RecentEntry} (h : entry.Kept) :
    Lettered jsonWriteTable entry.systemId.text := by
  have haccepted := h.accepted
  unfold RecentEntry.accepted at haccepted
  simp only [Bool.and_eq_true] at haccepted
  exact lettered_of_validSystemId haccepted.1.1

/-- What a launch looks at of an entry. -/
def RecentEntry.Agrees (a b : RecentEntry) : Prop :=
  a.systemId = b.systemId ∧ a.relativePath = b.relativePath ∧ a.path = b.path ∧
    a.launchProfile = b.launchProfile

theorem RecentEntry.Kept.read {entry : RecentEntry} (h : entry.Kept) :
    (readRecent (objectText oneLine (recentFields entry))).Agrees entry := by
  unfold readRecent RecentEntry.Agrees
  rw [rangeDup_recent]
  have hread : ∀ {size : ℕ} [NeZero size] (key s : CString), (key, s) ∈ recentStrings entry →
      (TextUi.jsonGetString size key (objectText oneLine (recentFields entry))).into .empty =
        .cut (reread jsonWriteTable s) :=
    fun _ _ hmem => jsonGetString_recent entry hmem
  have hsystem := @hread 64 _ (lit "system_id") entry.systemId.text (by simp [recentStrings])
  have hrelative := @hread 1024 _ (lit "relative_path") entry.relativePath.text
    (by simp [recentStrings])
  have hpath := @hread 1024 _ (lit "path") entry.path.text (by simp [recentStrings])
  have hprofile := @hread 128 _ (lit "launch_profile") entry.launchProfile.text
    (by simp [recentStrings])
  simp only [hsystem, hrelative, hpath, hprofile]
  exact ⟨(cut_reread_iff _).2 h.systemId, (cut_reread_iff _).2 h.relativePath,
    (cut_reread_iff _).2 h.path,
    (cut_reread_iff _).2 (lettered_of_validLaunchProfileId h.launchProfile)⟩

theorem withTitle_agrees (entry : RecentEntry) : entry.withTitle.Agrees entry := by
  unfold RecentEntry.withTitle
  split <;> exact ⟨rfl, rfl, rfl, rfl⟩

theorem RecentEntry.Agrees.trans {a b c : RecentEntry} (h : a.Agrees b) (h' : b.Agrees c) :
    a.Agrees c :=
  ⟨h.1.trans h'.1, h.2.1.trans h'.2.1, h.2.2.1.trans h'.2.2.1, h.2.2.2.trans h'.2.2.2⟩

theorem RecentEntry.Agrees.accepted {a b : RecentEntry} (h : a.Agrees b) :
    a.accepted = b.accepted := by
  unfold RecentEntry.accepted
  rw [h.1, h.2.1, h.2.2.2]

theorem foldl_addRecent_head (l : List RecentEntry) (first : RecentEntry)
    (rest : List RecentEntry) :
    ∃ rest', l.foldl addRecent (first :: rest) = first :: rest' := by
  induction l generalizing rest with
  | nil => exact ⟨rest, rfl⟩
  | cons entry l ih =>
    rw [List.foldl_cons]
    unfold addRecent
    split
    · exact ih (rest ++ [entry.withTitle])
    · exact ih rest

theorem loadRecent_saveRecent {entry : RecentEntry} (h : entry.Kept)
    (older : List RecentEntry) :
    ∃ first rest, loadRecent (some (saveRecent (entry :: older))) = some (first :: rest) ∧
      first.Agrees entry := by
  have hobjects := objects_saveRecent (entry :: older)
  obtain ⟨body, hbody, hlist⟩ := Option.map_eq_some_iff.1 hobjects
  have hne : saveRecent (entry :: older) ≠ [] := by
    intro hnil
    have hnone : jsonFindArray (lit "recents") [] = none := rfl
    rw [hnil, hnone] at hbody
    cases hbody
  have hread := h.read
  have hadd : addRecent [] (readRecent (objectText oneLine (recentFields entry))) =
      [(readRecent (objectText oneLine (recentFields entry))).withTitle] := by
    unfold addRecent
    rw [if_pos]
    · rfl
    · rw [hread.accepted, h.accepted]
      rfl
  obtain ⟨rest, hrest⟩ := foldl_addRecent_head
    (older.map fun e => readRecent (objectText oneLine (recentFields e)))
    (readRecent (objectText oneLine (recentFields entry))).withTitle []
  refine ⟨(readRecent (objectText oneLine (recentFields entry))).withTitle, rest, ?_,
    (withTitle_agrees _).trans hread⟩
  simp only [loadRecent, hne, if_false, hbody, Option.map_some, hlist, List.map_cons,
    List.map_map, List.foldl_cons, hadd]
  exact congrArg some hrest

end TextUi

namespace ControllerUi

theorem readRecent_eq {entry : TextUi.RecentEntry} (h : entry.Kept) :
    readRecent (objectText oneLine (TextUi.recentFields entry)) =
      ⟨entry.systemId, entry.relativePath, entry.launchProfile⟩ := by
  have hread : ∀ {size : ℕ} [NeZero size] (key s : CString),
      (key, s) ∈ TextUi.recentStrings entry →
      (jsonGetString size key (objectText oneLine (TextUi.recentFields entry))).into .empty =
        .cut (reread jsonWriteTable s) := by
    intro size _ key s hmem
    exact jsonGetString_stringFields (TextUi.keyed_recentStrings entry) hmem .empty
  unfold readRecent
  rw [hread (lit "system_id") entry.systemId.text (by simp [TextUi.recentStrings]),
    hread (lit "relative_path") entry.relativePath.text (by simp [TextUi.recentStrings]),
    hread (lit "launch_profile") entry.launchProfile.text (by simp [TextUi.recentStrings])]
  congr 1
  · exact (cut_reread_iff _).2 h.systemId
  · exact (cut_reread_iff _).2 h.relativePath
  · exact (cut_reread_iff _).2 (TextUi.lettered_of_validLaunchProfileId h.launchProfile)

theorem loadRecentEntries_saveRecent {entry : TextUi.RecentEntry} (h : entry.Kept)
    (older : List TextUi.RecentEntry) :
    ∃ rest, loadRecentEntries (some (TextUi.saveRecent (entry :: older))) =
      some (⟨entry.systemId, entry.relativePath, entry.launchProfile⟩ :: rest) := by
  obtain ⟨body, hbody, hlist⟩ :=
    Option.map_eq_some_iff.1 (TextUi.objects_saveRecent (entry :: older))
  refine ⟨(older.map fun e => objectText oneLine (TextUi.recentFields e)).map readRecent, ?_⟩
  unfold loadRecentEntries
  simp only [hbody, Option.map_some, hlist, List.map_cons, readRecent_eq h]

end ControllerUi

end PlumosBubble.Frontend
