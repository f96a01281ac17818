import PlumosBubble.Frontend.Favorites

/-! What each of the two programs reads of a favorites file that either of them wrote: the
strings come back as the codec leaves them, the controller finds neither a file name nor a
thumbnail that is not in an object of its own. -/

namespace PlumosBubble.Frontend

section Fields

/-- The strings of an entry as `plumos_text_ui.c` writes them. -/
def flatStrings (e : TextUi.FavoriteEntry) : List (CString × CString) :=
  [(lit "system_id", e.systemId.text), (lit "relative_path", e.relativePath.text),
    (lit "title", e.title.text), (lit "file_name", e.fileName.text), (lit "path", e.path.text),
    (lit "thumbnail", e.thumbnail.text)]

/-- The strings of an entry as `plumos_controller_ui.c` writes them. -/
def nestedStrings (e : ControllerUi.RomEntry) : List (CString × CString) :=
  [(lit "system_id", e.systemId.text), (lit "relative_path", e.relativePath.text),
    (lit "title", e.title.text), (lit "path", e.path.text)]

/-- The strings of the object that the controller writes for the artwork. -/
def mediaStrings (e : ControllerUi.RomEntry) : List (CString × CString) :=
  [(lit "thumbnail", e.thumbnail.text)]

def flatFields (e : TextUi.FavoriteEntry) : List (CString × CString) :=
  stringFields jsonWriteTable (flatStrings e)

def nestedFields (e : ControllerUi.RomEntry) : List (CString × CString) :=
  stringFields fprintTable (nestedStrings e) ++
    [(lit "media", objectText oneLine (stringFields fprintTable (mediaStrings e)))]

theorem keyed_flatStrings (e : TextUi.FavoriteEntry) : Keyed (flatStrings e) where
  isKey := by
    have hkeys : ∀ k ∈ (flatStrings e).map Prod.fst, isKey k = true := by
      show ∀ k ∈ [lit "system_id", lit "relative_path", lit "title", lit "file_name", lit "path",
        lit "thumbnail"], isKey k = true
      decide
    exact fun f hf => hkeys _ (List.mem_map_of_mem hf)
  nodup := by
    show [lit "system_id", lit "relative_path", lit "title", lit "file_name", lit "path",
      lit "thumbnail"].Nodup
    decide
  noNul := by
    simp [flatStrings, e.systemId.noNul, e.relativePath.noNul, e.title.noNul, e.fileName.noNul,
      e.path.noNul, e.thumbnail.noNul]

theorem keyed_nestedStrings (e : ControllerUi.RomEntry) : Keyed (nestedStrings e) where
  isKey := by
    have hkeys : ∀ k ∈ (nestedStrings e).map Prod.fst, isKey k = true := by
      show ∀ k ∈ [lit "system_id", lit "relative_path", lit "title", lit "path"], isKey k = true
      decide
    exact fun f hf => hkeys _ (List.mem_map_of_mem hf)
  nodup := by
    show [lit "system_id", lit "relative_path", lit "title", lit "path"].Nodup
    decide
  noNul := by
    simp [nestedStrings, e.systemId.noNul, e.relativePath.noNul, e.title.noNul, e.path.noNul]

theorem keyed_mediaStrings (e : ControllerUi.RomEntry) : Keyed (mediaStrings e) where
  isKey := by
    have hkey : isKey (lit "thumbnail") = true := by decide
    simp [mediaStrings, hkey]
  nodup := by simp [mediaStrings]
  noNul := by simp [mediaStrings, e.thumbnail.noNul]

set_option maxRecDepth 2000 in
theorem favoriteLine_flat (e : TextUi.FavoriteEntry) :
    TextUi.favoriteLine e = lit "    " ++ objectText oneLine (flatFields e) := by
  simp only [TextUi.favoriteLine, objectText, objectBody, oneLine, braced, flatFields, flatStrings,
    stringFields, jsonWriteEscaped, List.map_cons, List.map_nil, joinFields, fieldText,
    List.append_assoc, List.cons_append]
  rfl

set_option maxRecDepth 2000 in
theorem favoriteLine_nested (e : ControllerUi.RomEntry) :
    ControllerUi.favoriteLine e = lit "    " ++ objectText oneLine (nestedFields e) := by
  simp only [ControllerUi.favoriteLine, objectText, objectBody, oneLine, braced, nestedFields,
    nestedStrings, mediaStrings, stringFields, fprintJsonString, List.map_cons, List.map_nil,
    joinFields, fieldText, List.append_assoc, List.cons_append, List.nil_append]
  rfl

end Fields

section Read

/-- A string of an entry, as it is read back. -/
def rereadBuffer {size : ℕ} [NeZero size] (table : EscapeTable) (b : Buffer size) : Buffer size :=
  .cut (reread table b.text)

/-- What `plumos_text_ui.c` reads of its own entry. -/
def flatToText (e : TextUi.FavoriteEntry) : TextUi.FavoriteEntry where
  systemId := rereadBuffer jsonWriteTable e.systemId
  relativePath := rereadBuffer jsonWriteTable e.relativePath
  title := rereadBuffer jsonWriteTable e.title
  fileName := rereadBuffer jsonWriteTable e.fileName
  path := rereadBuffer jsonWriteTable e.path
  thumbnail := rereadBuffer jsonWriteTable e.thumbnail

/-- What `plumos_text_ui.c` reads of an entry of the controller. -/
def nestedToText (e : ControllerUi.RomEntry) : TextUi.FavoriteEntry where
  systemId := rereadBuffer fprintTable e.systemId
  relativePath := rereadBuffer fprintTable e.relativePath
  title := rereadBuffer fprintTable e.title
  fileName := .empty
  path := rereadBuffer fprintTable e.path
  thumbnail := rereadBuffer fprintTable e.thumbnail

/-- The title of an entry that the controller read. -/
def ControllerUi.withTitle (e : ControllerUi.RomEntry) : ControllerUi.RomEntry :=
  { e with title := if e.title.nonempty then e.title else e.relativePath.copy }

/-- What the controller reads of its own entry. -/
def nestedToNested (e : ControllerUi.RomEntry) : ControllerUi.RomEntry where
  systemId := rereadBuffer fprintTable e.systemId
  title := rereadBuffer fprintTable e.title
  relativePath := rereadBuffer fprintTable e.relativePath
  path := rereadBuffer fprintTable e.path
  thumbnail := rereadBuffer fprintTable e.thumbnail

/-- What the controller reads of an entry of `plumos_text_ui.c`. -/
def flatToNested (e : TextUi.FavoriteEntry) : ControllerUi.RomEntry where
  systemId := rereadBuffer jsonWriteTable e.systemId
  title := rereadBuffer jsonWriteTable e.title
  relativePath := rereadBuffer jsonWriteTable e.relativePath
  path := rereadBuffer jsonWriteTable e.path
  thumbnail := .empty

theorem noNul_objectText {fields : List (CString × CString)}
    (h : ∀ f ∈ fields, 0 ∉ fieldText f) : 0 ∉ objectText oneLine fields := by
  have hjoin : 0 ∉ joinFields oneLine.separator fields := by
    induction fields with
    | nil => exact List.not_mem_nil
    | cons f fields ih =>
      have hf := h f List.mem_cons_self
      have hrest := ih fun g hg => h g (List.mem_cons_of_mem _ hg)
      by_cases hnil : fields = []
      · rw [hnil]
        exact hf
      · have hseparator : 0 ∉ oneLine.separator := by decide
        rw [joinFields_cons _ _ _ hnil]
        simp [hf, hseparator, hrest]
  have hmarks : (0 : UInt8) ≠ openBrace ∧ (0 : UInt8) ≠ closeBrace ∧ 0 ∉ oneLine.before ∧
      0 ∉ oneLine.behind := by decide
  simp [objectText, objectBody, braced, hjoin, hmarks]

theorem noNul_stringFields {table : EscapeTable} {l : List (CString × CString)} (hl : Keyed l) :
    ∀ f ∈ stringFields table l, 0 ∉ fieldText f := by
  have hcolon : 0 ∉ lit ": " := by decide
  intro f hf
  obtain ⟨g, hg, rfl⟩ := List.mem_map.mp hf
  simp [fieldText, zero_notMem_quoted (escaped_of_isKey (hl.isKey g hg)), hcolon,
    zero_notMem_quoted (escaped_escaped (hl.noNul g hg))]

theorem rangeDup_eq {s : CString} (h : 0 ∉ s) : rangeDup s = s := by
  unfold rangeDup
  rw [List.takeWhile_eq_self_iff]
  intro c hc
  simpa using fun heq : c = 0 => h (heq ▸ hc)

theorem rangeDup_flat (e : TextUi.FavoriteEntry) :
    rangeDup (objectText oneLine (flatFields e)) = objectText oneLine (flatFields e) :=
  rangeDup_eq (noNul_objectText (noNul_stringFields (keyed_flatStrings e)))

theorem rangeDup_nested (e : ControllerUi.RomEntry) :
    rangeDup (objectText oneLine (nestedFields e)) = objectText oneLine (nestedFields e) := by
  apply rangeDup_eq
  apply noNul_objectText
  have hmedia : 0 ∉ quoted (lit "media") ++ lit ": " := by decide
  have hthumbnail : 0 ∉ objectText oneLine (stringFields fprintTable (mediaStrings e)) :=
    noNul_objectText (noNul_stringFields (keyed_mediaStrings e))
  intro f hf
  rcases List.mem_append.mp hf with hf | hf
  · exact noNul_stringFields (keyed_nestedStrings e) f hf
  · rw [List.mem_singleton.mp hf]
    unfold fieldText
    simp only [List.mem_append] at hmedia ⊢
    tauto

theorem readFavorite_flat (e : TextUi.FavoriteEntry) :
    TextUi.readFavorite (objectText oneLine (flatFields e)) = flatToText e := by
  have hread : ∀ {size : ℕ} [NeZero size] (key s : CString), (key, s) ∈ flatStrings e →
      (TextUi.jsonGetString size key (objectText oneLine (flatFields e))).into .empty =
        .cut (reread jsonWriteTable s) := by
    intro size _ key s hmem
    have hget := @TextUi.jsonGetString_stringFields jsonWriteTable oneLine size _ _ [] (keyed_flatStrings e)
      key s hmem .empty
    rwa [List.append_nil] at hget
  unfold TextUi.readFavorite flatToText rereadBuffer
  rw [rangeDup_flat, hread (lit "system_id") e.systemId.text (by simp [flatStrings]),
    hread (lit "relative_path") e.relativePath.text (by simp [flatStrings]),
    hread (lit "title") e.title.text (by simp [flatStrings]),
    hread (lit "file_name") e.fileName.text (by simp [flatStrings]),
    hread (lit "path") e.path.text (by simp [flatStrings]),
    hread (lit "thumbnail") e.thumbnail.text (by simp [flatStrings])]

theorem find_nested (e : ControllerUi.RomEntry) {key : CString} (hkey : isKey key = true)
    (hne : key ∉ (nestedStrings e).map Prod.fst) (hmedia : lit "media" ≠ key) :
    jsonFindKeyValue key (objectText oneLine (nestedFields e)) =
      jsonFindKeyValue key (objectText oneLine (stringFields fprintTable (mediaStrings e)) ++
        (lit " " ++ [closeBrace])) :=
  find_objectText_last hkey ((keyed_nestedStrings e).passes hkey hne) (by decide) hmedia

theorem find_nested_thumbnail (e : ControllerUi.RomEntry) :
    ∃ rest, jsonFindKeyValue (lit "thumbnail") (objectText oneLine (nestedFields e)) =
      some (fprintJsonString e.thumbnail.text ++ rest) := by
  have hne : lit "thumbnail" ∉ (nestedStrings e).map Prod.fst := by
    show lit "thumbnail" ∉ [lit "system_id", lit "relative_path", lit "title", lit "path"]
    decide
  rw [find_nested e (by decide) hne (by decide)]
  exact @exists_find_objectText oneLine (lit "thumbnail") (fprintJsonString e.thumbnail.text) [] []
    (by decide) (by simp) _

theorem find_nested_fileName (e : ControllerUi.RomEntry) :
    jsonFindKeyValue (lit "file_name") (objectText oneLine (nestedFields e)) = none := by
  have hne : lit "file_name" ∉ (nestedStrings e).map Prod.fst := by
    show lit "file_name" ∉ [lit "system_id", lit "relative_path", lit "title", lit "path"]
    decide
  have hmedia : lit "file_name" ∉ (mediaStrings e).map Prod.fst := by
    show lit "file_name" ∉ [lit "thumbnail"]
    decide
  rw [find_nested e (by decide) hne (by decide),
    skips_objectText (by decide) ((keyed_mediaStrings e).passes (by decide) hmedia)]
  decide

theorem readFavorite_nested (e : ControllerUi.RomEntry) :
    TextUi.readFavorite (objectText oneLine (nestedFields e)) = nestedToText e := by
  have hread : ∀ {size : ℕ} [NeZero size] (key s : CString), (key, s) ∈ nestedStrings e →
      (TextUi.jsonGetString size key (objectText oneLine (nestedFields e))).into .empty =
        .cut (reread fprintTable s) := by
    intro size _ key s hmem
    exact TextUi.jsonGetString_stringFields (keyed_nestedStrings e) hmem .empty
  have hfile : (TextUi.jsonGetString 256 (lit "file_name") (objectText oneLine (nestedFields e))).into
      .empty = .empty := by
    unfold TextUi.jsonGetString
    rw [find_nested_fileName]
    rfl
  have hthumbnail : (TextUi.jsonGetString 1024 (lit "thumbnail")
      (objectText oneLine (nestedFields e))).into .empty = .cut (reread fprintTable e.thumbnail.text) := by
    obtain ⟨rest, hrest⟩ := find_nested_thumbnail e
    rw [TextUi.jsonGetString_eq hrest]
    unfold jsonGetString fprintJsonString at *
    simp only [hrest, jsonDecodeString_quoted]
    rfl
  unfold TextUi.readFavorite nestedToText rereadBuffer
  rw [rangeDup_nested, hread (lit "system_id") e.systemId.text (by simp [nestedStrings]),
    hread (lit "relative_path") e.relativePath.text (by simp [nestedStrings]),
    hread (lit "title") e.title.text (by simp [nestedStrings]),
    hread (lit "path") e.path.text (by simp [nestedStrings]), hfile, hthumbnail]

theorem controllerRead_flat (e : TextUi.FavoriteEntry) :
    ControllerUi.readFavorite (objectText oneLine (flatFields e)) =
      ControllerUi.withTitle (flatToNested e) := by
  have hread : ∀ {size : ℕ} [NeZero size] (key s : CString), (key, s) ∈ flatStrings e →
      (jsonGetString size key (objectText oneLine (flatFields e))).into .empty =
        .cut (reread jsonWriteTable s) := by
    intro size _ key s hmem
    have hget := @jsonGetString_stringFields jsonWriteTable oneLine size _ _ [] (keyed_flatStrings e)
      key s hmem .empty
    rwa [List.append_nil] at hget
  have hmedia : jsonFindObject (lit "media") (objectText oneLine (flatFields e)) = none := by
    have hne : lit "media" ∉ (flatStrings e).map Prod.fst := by
      show lit "media" ∉ [lit "system_id", lit "relative_path", lit "title", lit "file_name",
        lit "path", lit "thumbnail"]
      decide
    have hskips := @skips_objectText oneLine _ _ (by decide)
      (@Keyed.passes jsonWriteTable _ (keyed_flatStrings e) (lit "media") (by decide) hne)
    have hfind := hskips []
    rw [List.append_nil] at hfind
    unfold jsonFindObject flatFields
    rw [hfind]
    rfl
  unfold ControllerUi.readFavorite ControllerUi.withTitle flatToNested rereadBuffer
  rw [hread (lit "system_id") e.systemId.text (by simp [flatStrings]),
    hread (lit "relative_path") e.relativePath.text (by simp [flatStrings]),
    hread (lit "title") e.title.text (by simp [flatStrings]),
    hread (lit "path") e.path.text (by simp [flatStrings]), hmedia]

theorem jsonFindObject_media (e : ControllerUi.RomEntry) :
    jsonFindObject (lit "media") (objectText oneLine (nestedFields e)) =
      some (objectBody oneLine (stringFields fprintTable (mediaStrings e))) := by
  have hne : lit "media" ∉ (nestedStrings e).map Prod.fst := by
    show lit "media" ∉ [lit "system_id", lit "relative_path", lit "title", lit "path"]
    decide
  obtain ⟨rest, hrest⟩ := @exists_find_objectText oneLine (lit "media")
    (objectText oneLine (stringFields fprintTable (mediaStrings e)))
    (stringFields fprintTable (nestedStrings e)) [] (by decide)
    ((keyed_nestedStrings e).passes (by decide) hne) []
  rw [List.append_nil] at hrest
  unfold jsonFindObject nestedFields
  rw [hrest, Option.bind_some]
  have hvalue : skipWsRange (objectText oneLine (stringFields fprintTable (mediaStrings e)) ++ rest) =
      openBrace :: objectBody oneLine (stringFields fprintTable (mediaStrings e)) ++
        closeBrace :: rest := by
    show objectText oneLine _ ++ rest = _
    simp [objectText, braced]
  have hneutral : Neutral openBrace closeBrace
      (objectBody oneLine (stringFields fprintTable (mediaStrings e))) := by
    apply neutral_objectBody (by decide) (by decide)
    intro f hf
    obtain ⟨g, hg, rfl⟩ := List.mem_map.mp hf
    exact ⟨(keyed_mediaStrings e).isKey g hg,
      neutral_quoted (escaped_escaped ((keyed_mediaStrings e).noNul g hg))⟩
  rw [hvalue, jsonMatchContainer_neutral (by decide) (by decide) hneutral]
  rfl

theorem controllerRead_nested (e : ControllerUi.RomEntry) :
    ControllerUi.readFavorite (objectText oneLine (nestedFields e)) =
      ControllerUi.withTitle (nestedToNested e) := by
  have hread : ∀ {size : ℕ} [NeZero size] (key s : CString), (key, s) ∈ nestedStrings e →
      (jsonGetString size key (objectText oneLine (nestedFields e))).into .empty =
        .cut (reread fprintTable s) := by
    intro size _ key s hmem
    exact jsonGetString_stringFields (keyed_nestedStrings e) hmem .empty
  have hthumbnail : (jsonGetString 1024 (lit "thumbnail")
      (objectBody oneLine (stringFields fprintTable (mediaStrings e)))).into .empty =
        .cut (reread fprintTable e.thumbnail.text) := by
    obtain ⟨rest, hrest⟩ := @exists_find_objectBody oneLine (lit "thumbnail")
      (fprintJsonString e.thumbnail.text) [] [] (by decide) (by simp) []
    rw [List.append_nil] at hrest
    have hbody : objectBody oneLine (stringFields fprintTable (mediaStrings e)) =
        objectBody oneLine ([] ++ (lit "thumbnail", fprintJsonString e.thumbnail.text) :: []) := rfl
    unfold jsonGetString
    rw [hbody, hrest]
    unfold fprintJsonString
    rw [skipWsRange_quoted]
    simp only [jsonDecodeString_quoted]
    rfl
  unfold ControllerUi.readFavorite ControllerUi.withTitle nestedToNested rereadBuffer
  rw [hread (lit "system_id") e.systemId.text (by simp [nestedStrings]),
    hread (lit "relative_path") e.relativePath.text (by simp [nestedStrings]),
    hread (lit "title") e.title.text (by simp [nestedStrings]),
    hread (lit "path") e.path.text (by simp [nestedStrings]), jsonFindObject_media]
  simp only [hthumbnail]

end Read

section File

theorem neutral_stringFields {opening closing : UInt8} {table : EscapeTable}
    {l : List (CString × CString)} (hl : Keyed l) :
    ∀ f ∈ stringFields table l, isKey f.1 = true ∧ Neutral opening closing f.2 := by
  intro f hf
  obtain ⟨g, hg, rfl⟩ := List.mem_map.mp hf
  exact ⟨hl.isKey g hg, neutral_quoted (escaped_escaped (hl.noNul g hg))⟩

theorem neutral_flatFields {opening closing : UInt8} (e : TextUi.FavoriteEntry)
    (hopening : isBracket opening = true) (hclosing : isBracket closing = true) :
    Neutral opening closing (objectBody oneLine (flatFields e)) :=
  neutral_objectBody hopening hclosing (neutral_stringFields (keyed_flatStrings e))

theorem neutral_nestedFields {opening closing : UInt8} (e : ControllerUi.RomEntry)
    (hopening : isBracket opening = true) (hclosing : isBracket closing = true)
    (hmedia : Neutral opening closing
      (objectText oneLine (stringFields fprintTable (mediaStrings e)))) :
    Neutral opening closing (objectBody oneLine (nestedFields e)) := by
  apply neutral_objectBody hopening hclosing
  intro f hf
  rcases List.mem_append.mp hf with hf | hf
  · exact neutral_stringFields (keyed_nestedStrings e) f hf
  · rw [List.mem_singleton.mp hf]
    have hkey : isKey (lit "media") = true := by decide
    exact ⟨hkey, hmedia⟩

theorem neutral_braces_nested (e : ControllerUi.RomEntry) :
    Neutral openBrace closeBrace (objectBody oneLine (nestedFields e)) :=
  neutral_nestedFields e (by decide) (by decide) (neutral_braced
    (neutral_objectBody (by decide) (by decide)
      (neutral_stringFields (keyed_mediaStrings e))))

theorem neutral_brackets_nested (e : ControllerUi.RomEntry) :
    Neutral openBracket closeBracket (objectBody oneLine (nestedFields e)) :=
  neutral_nestedFields e (by decide) (by decide) (neutral_brackets_braced
    (neutral_objectBody (by decide) (by decide)
      (neutral_stringFields (keyed_mediaStrings e))))

theorem favorites_objects {bodies : List CString}
    (hbraces : ∀ body ∈ bodies, Neutral openBrace closeBrace body)
    (hbrackets : ∀ body ∈ bodies, Neutral openBracket closeBracket body) :
    (jsonFindArray (lit "favorites")
      (lit "\x7b\n  \"version\": 1,\n  \"favorites\": [\n" ++
        listLines (bodies.map fun body => lit "    " ++ braced body) ++
        lit "  ]\n\x7d\n")).map jsonObjects = some (bodies.map braced) :=
  objects_versionedList (by decide) (by decide) hbraces hbrackets

theorem saveFavorites_eq (l : List TextUi.FavoriteEntry) :
    TextUi.saveFavorites l = lit "\x7b\n  \"version\": 1,\n  \"favorites\": [\n" ++
      listLines ((l.map fun e => objectBody oneLine (flatFields e)).map fun body =>
        lit "    " ++ braced body) ++ lit "  ]\n\x7d\n" := by
  have hlines : l.map TextUi.favoriteLine =
      (l.map fun e => objectBody oneLine (flatFields e)).map fun body => lit "    " ++ braced body := by
    rw [List.map_map]
    apply List.map_congr_left
    intro e _
    exact favoriteLine_flat e
  have hhead : lit "\x7b\n" ++ lit "  \"version\": 1,\n" ++ lit "  \"favorites\": [\n" =
      lit "\x7b\n  \"version\": 1,\n  \"favorites\": [\n" := rfl
  have htail : lit "  ]\n" ++ lit "\x7d\n" = lit "  ]\n\x7d\n" := rfl
  unfold TextUi.saveFavorites
  rw [hhead, hlines, List.append_assoc, htail]

theorem saveFavoriteEntries_eq (l : List ControllerUi.RomEntry) :
    ControllerUi.saveFavoriteEntries l = lit "\x7b\n  \"version\": 1,\n  \"favorites\": [\n" ++
      listLines ((l.map fun e => objectBody oneLine (nestedFields e)).map fun body =>
        lit "    " ++ braced body) ++ lit "  ]\n\x7d\n" := by
  have hlines : l.map ControllerUi.favoriteLine =
      (l.map fun e => objectBody oneLine (nestedFields e)).map fun body =>
        lit "    " ++ braced body := by
    rw [List.map_map]
    apply List.map_congr_left
    intro e _
    exact favoriteLine_nested e
  unfold ControllerUi.saveFavoriteEntries
  rw [hlines]

/-- The objects of a file of `plumos_text_ui.c`. -/
theorem objects_saveFavorites (l : List TextUi.FavoriteEntry) :
    (jsonFindArray (lit "favorites") (TextUi.saveFavorites l)).map jsonObjects =
      some (l.map fun e => objectText oneLine (flatFields e)) := by
  rw [saveFavorites_eq, favorites_objects]
  · rw [List.map_map]
    rfl
  · simpa using fun e _ => neutral_flatFields e (by decide) (by decide)
  · simpa using fun e _ => neutral_flatFields e (by decide) (by decide)

theorem objects_saveFavoriteEntries (l : List ControllerUi.RomEntry) :
    (jsonFindArray (lit "favorites") (ControllerUi.saveFavoriteEntries l)).map jsonObjects =
      some (l.map fun e => objectText oneLine (nestedFields e)) := by
  rw [saveFavoriteEntries_eq, favorites_objects]
  · rw [List.map_map]
    rfl
  · simpa using fun e _ => neutral_braces_nested e
  · simpa using fun e _ => neutral_brackets_nested e

theorem loadFavorites_of_objects {json : CString} {objects : List CString}
    (h : (jsonFindArray (lit "favorites") json).map jsonObjects = some objects) :
    TextUi.loadFavorites (some json) =
      some ((objects.map TextUi.readFavorite).foldl TextUi.addFavorite []) := by
  obtain ⟨body, hbody, rfl⟩ := Option.map_eq_some_iff.mp h
  simp only [TextUi.loadFavorites, hbody, Option.map_some]

theorem loadFavoriteEntries_of_objects {json : CString} {objects : List CString}
    (h : (jsonFindArray (lit "favorites") json).map jsonObjects = some objects) :
    ControllerUi.loadFavoriteEntries (some json) = some (objects.map ControllerUi.readFavorite) := by
  obtain ⟨body, hbody, rfl⟩ := Option.map_eq_some_iff.mp h
  simp only [ControllerUi.loadFavoriteEntries, hbody, Option.map_some]

theorem loadFavorites_saveFavorites (l : List TextUi.FavoriteEntry) :
    TextUi.loadFavorites (some (TextUi.saveFavorites l)) =
      some ((l.map flatToText).foldl TextUi.addFavorite []) := by
  have hread : TextUi.readFavorite ∘ (fun e => objectText oneLine (flatFields e)) = flatToText := by
    funext e
    exact readFavorite_flat e
  rw [loadFavorites_of_objects (objects_saveFavorites l), List.map_map, hread]

theorem loadFavorites_saveFavoriteEntries (l : List ControllerUi.RomEntry) :
    TextUi.loadFavorites (some (ControllerUi.saveFavoriteEntries l)) =
      some ((l.map nestedToText).foldl TextUi.addFavorite []) := by
  have hread : TextUi.readFavorite ∘ (fun e => objectText oneLine (nestedFields e)) = nestedToText := by
    funext e
    exact readFavorite_nested e
  rw [loadFavorites_of_objects (objects_saveFavoriteEntries l), List.map_map, hread]

theorem loadFavoriteEntries_saveFavorites (l : List TextUi.FavoriteEntry) :
    ControllerUi.loadFavoriteEntries (some (TextUi.saveFavorites l)) =
      some (l.map fun e => ControllerUi.withTitle (flatToNested e)) := by
  have hread : ControllerUi.readFavorite ∘ (fun e => objectText oneLine (flatFields e)) =
      fun e => ControllerUi.withTitle (flatToNested e) := by
    funext e
    exact controllerRead_flat e
  rw [loadFavoriteEntries_of_objects (objects_saveFavorites l), List.map_map, hread]

theorem loadFavoriteEntries_saveFavoriteEntries (l : List ControllerUi.RomEntry) :
    ControllerUi.loadFavoriteEntries (some (ControllerUi.saveFavoriteEntries l)) =
      some (l.map fun e => ControllerUi.withTitle (nestedToNested e)) := by
  have hread : ControllerUi.readFavorite ∘ (fun e => objectText oneLine (nestedFields e)) =
      fun e => ControllerUi.withTitle (nestedToNested e) := by
    funext e
    exact controllerRead_nested e
  rw [loadFavoriteEntries_of_objects (objects_saveFavoriteEntries l), List.map_map, hread]

end File

end PlumosBubble.Frontend
