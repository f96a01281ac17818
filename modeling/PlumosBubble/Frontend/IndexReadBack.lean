import PlumosBubble.Frontend.FavoritesFile
import PlumosBubble.Frontend.IndexText
import PlumosBubble.Frontend.RomBrowser

/-! The index of a system on its way from `write_library_index` to `load_rom_entries`: the
browser reads one entry for each ROM that was written, in their order, and each of its strings
is that of the ROM as the codec leaves it. -/

namespace PlumosBubble.Frontend

section Numbers

theorem lit_ofList (l : List Char) : lit (String.ofList l) = l.flatMap String.utf8EncodeChar := by
  unfold lit
  rw [String.toByteArray_ofList, List.utf8Encode]
  simp

theorem repr_plain (n : ℕ) : ∀ c ∈ lit n.repr, c ≠ jsonQuote ∧ c ≠ 0 := by
  rw [Nat.repr_eq_ofList_toDigits, lit_ofList]
  intro c hc
  obtain ⟨d, hd, hcd⟩ := List.mem_flatMap.mp hc
  have hdigit := Nat.isDigit_of_mem_toDigits (by decide) (by decide) hd
  simp only [Char.isDigit, Bool.and_eq_true, decide_eq_true_eq, ge_iff_le,
    UInt32.le_iff_toNat_le] at hdigit
  have hlow : 48 ≤ d.val.toNat := hdigit.1
  have hhigh : d.val.toNat ≤ 57 := hdigit.2
  unfold String.utf8EncodeChar at hcd
  simp only [if_pos (hhigh.trans (by decide : 57 ≤ 127)), List.mem_singleton] at hcd
  have hbyte : c.toNat = d.val.toNat := by
    rw [hcd, UInt8.toNat_ofNat']
    omega
  constructor
  · rintro rfl
    have : (34 : ℕ) = d.val.toNat := hbyte
    omega
  · rintro rfl
    have : (0 : ℕ) = d.val.toNat := hbyte
    omega

theorem numberText_plain (n : ℤ) : ∀ c ∈ numberText n, c ≠ jsonQuote ∧ c ≠ 0 := by
  cases n with
  | ofNat m => exact repr_plain m
  | negSucc m =>
    have happend : numberText (Int.negSucc m) = lit "-" ++ lit (m + 1).repr := by
      show lit ("-" ++ (m + 1).repr) = _
      simp [lit]
    rw [happend]
    intro c hc
    rcases List.mem_append.mp hc with hc | hc
    · rw [List.mem_singleton.mp hc]
      decide
    · exact repr_plain (m + 1) c hc

/-- A string without marks and control bytes is written as it is. -/
theorem escaped_plain {table : EscapeTable} {s : CString}
    (h : ∀ c ∈ s, ¬(c = jsonQuote ∨ c = jsonEscape) ∧ table.letter c = none ∧ ¬c < 0x20) :
    escaped table s = s := by
  unfold escaped
  induction s with
  | nil => rfl
  | cons c s ih =>
    obtain ⟨hmark, hletter, hcontrol⟩ := h c List.mem_cons_self
    have hbyte : escapeByte table c = [c] := by
      rw [escapeByte, if_neg hmark]
      simp [hletter, hcontrol]
    rw [List.flatMap_cons, hbyte, ih fun d hd => h d (List.mem_cons_of_mem _ hd)]
    rfl

/-- The identifier of a ROM. -/
def pathId (id : UInt64) : CString := lit "path64:" ++ hex16 id

theorem pathId_plain (id : UInt64) :
    0 ∉ pathId id ∧ escaped jsonWriteTable (pathId id) = pathId id := by
  have hdigits : ∀ n < 16, hexDigit (UInt8.ofNat n) ≠ 0 ∧
      ¬(hexDigit (UInt8.ofNat n) = jsonQuote ∨ hexDigit (UInt8.ofNat n) = jsonEscape) ∧
        jsonWriteTable.letter (hexDigit (UInt8.ofNat n)) = none ∧
          ¬hexDigit (UInt8.ofNat n) < 0x20 := by
    decide
  have hlit : ∀ c ∈ lit "path64:", c ≠ 0 ∧ ¬(c = jsonQuote ∨ c = jsonEscape) ∧
      jsonWriteTable.letter c = none ∧ ¬c < 0x20 := by
    have hbytes : (lit "path64:").all (fun c => c != 0 &&
        (!(c == jsonQuote || c == jsonEscape) && (jsonWriteTable.letter c == none &&
          !(decide (c < 0x20))))) = true := rfl
    simpa using hbytes
  have hall : ∀ c ∈ pathId id, c ≠ 0 ∧ ¬(c = jsonQuote ∨ c = jsonEscape) ∧
      jsonWriteTable.letter c = none ∧ ¬c < 0x20 := by
    intro c hc
    rcases List.mem_append.mp hc with hc | hc
    · exact hlit c hc
    · obtain ⟨k, -, rfl⟩ := List.mem_map.mp hc
      have hmod : ∀ x : UInt8, (x % 16).toNat < 16 := fun x => Nat.mod_lt _ (by decide)
      have hdigit := hdigits _ (hmod (id >>> UInt64.ofNat (4 * (15 - k))).toUInt8)
      rwa [UInt8.ofNat_toNat] at hdigit
  exact ⟨fun h => (hall 0 h).1 rfl, escaped_plain fun c hc => (hall c hc).2⟩

end Numbers

section Codec

variable {size : ℕ} [NeZero size]

/-- A string that is written and read again is the same exactly if it fits into the array and
all its control characters have letters. -/
theorem codec_round_trip (table : EscapeTable) (t rest : CString) (hnul : 0 ∉ t) :
    (∃ b : Buffer size, b.text = t ∧
      jsonDecodeString size (quoted (escaped table t) ++ rest) = .found b rest) ↔
        t.length < size ∧ Lettered table t := by
  rw [jsonDecodeString_quoted]
  constructor
  · rintro ⟨b, rfl, hfound⟩
    have hcut : Buffer.cut (reread table b.text) = b := by
      injection hfound
    exact ⟨b.fits, (cut_reread_iff b).mp hcut⟩
  · rintro ⟨hfits, hlettered⟩
    have hcut := (cut_reread_iff (⟨t, hfits, hnul⟩ : Buffer size)).mpr hlettered
    exact ⟨⟨t, hfits, hnul⟩, rfl, by rw [hcut]⟩

theorem codec_round_trip_sample : ∃ b : Buffer 256, b.text = lit "tab\there \\ \"quoted\"" ∧
    jsonDecodeString 256 (quoted (escaped jsonWriteTable (lit "tab\there \\ \"quoted\"")) ++
      lit ", ") = .found b (lit ", ") :=
  (codec_round_trip jsonWriteTable _ _ (by decide)).mpr (by decide +kernel)

end Codec

section Rom

/-- What stands around the fields of a ROM. -/
def romLayout : Layout where
  before := lit "\n          "
  separator := lit ",\n          "
  behind := lit "\n        "
  before_blank := by decide
  separator_comma := by decide
  separator_blank := by decide
  behind_blank := by decide

/-- The strings of a ROM, in their order. -/
def indexStrings (rom : IndexRom) : List (CString × CString) :=
  [(lit "id", pathId rom.id), (lit "system_id", rom.systemId), (lit "path", rom.path),
    (lit "relative_path", rom.relativePath), (lit "file_name", rom.fileName),
    (lit "title", rom.title), (lit "extension", rom.extension),
    (lit "directory_alias", rom.directoryAlias)]

/-- The path of the artwork, or `null`. -/
def thumbnailText (rom : IndexRom) : CString :=
  match rom.thumbnail with
  | some thumbnail => jsonWriteEscaped thumbnail
  | none => lit "null"

/-- The fields of the object for the artwork. -/
def mediaFields (rom : IndexRom) : List (CString × CString) :=
  [(lit "thumbnail", thumbnailText rom)]

def sourceFields : List (CString × CString) := [(lit "source", quoted (lit "scan"))]

def indexFields (rom : IndexRom) : List (CString × CString) :=
  stringFields jsonWriteTable (indexStrings rom) ++
    [(lit "media", objectText oneLine (mediaFields rom)),
      (lit "metadata", objectText oneLine sourceFields)]

set_option maxRecDepth 4000 in
theorem text_eq (rom : IndexRom) :
    rom.text = lit "        " ++ objectText romLayout (indexFields rom) := by
  have hid : quoted (escaped jsonWriteTable (pathId rom.id)) =
      jsonQuote :: (lit "path64:" ++ (hex16 rom.id ++ [jsonQuote])) := by
    rw [(pathId_plain rom.id).2]
    simp [pathId, quoted]
  unfold IndexRom.text indexFields mediaFields thumbnailText sourceFields objectText objectBody
    indexStrings stringFields
  simp only [List.map_cons, List.map_nil, List.cons_append, List.nil_append, joinFields, fieldText,
    romLayout, oneLine, braced]
  rw [hid]
  -- behind the associativity both sides are the same bytes around the same strings
  simp only [jsonWriteEscaped, List.append_assoc, List.cons_append, List.nil_append]
  cases rom.thumbnail
  · rfl
  · rfl

/-- No string of the ROM holds a NUL. -/
def IndexRom.NulFree (rom : IndexRom) : Prop :=
  ∀ s ∈ [rom.systemId, rom.path, rom.relativePath, rom.fileName, rom.title, rom.extension,
    rom.directoryAlias] ++ rom.thumbnail.toList, 0 ∉ s

/-- What the browser makes of a ROM that was written. -/
def IndexRom.readBack (systemId : Buffer 64) (rom : IndexRom) : ControllerUi.IndexedRom :=
  let title : Buffer 256 := .cut (reread jsonWriteTable rom.title)
  let relativePath : Buffer 1024 := .cut (reread jsonWriteTable rom.relativePath)
  { systemId
    title := if title.nonempty then title else relativePath.copy
    relativePath
    path := .cut (reread jsonWriteTable rom.path)
    thumbnail := (rom.thumbnail.map fun t => .cut (reread jsonWriteTable t)).getD .empty
    extension := .cut (reread jsonWriteTable rom.extension) }

variable {rom : IndexRom}

theorem keyed_indexStrings (h : rom.NulFree) : Keyed (indexStrings rom) where
  isKey := by
    have hkeys : ∀ k ∈ (indexStrings rom).map Prod.fst, isKey k = true := by
      show ∀ k ∈ [lit "id", lit "system_id", lit "path", lit "relative_path", lit "file_name",
        lit "title", lit "extension", lit "directory_alias"], isKey k = true
      decide
    exact fun f hf => hkeys _ (List.mem_map_of_mem hf)
  nodup := by
    show [lit "id", lit "system_id", lit "path", lit "relative_path", lit "file_name",
      lit "title", lit "extension", lit "directory_alias"].Nodup
    decide
  noNul := by
    unfold IndexRom.NulFree at h
    simp only [List.forall_mem_append, List.forall_mem_cons] at h
    simp only [indexStrings, List.forall_mem_cons, (pathId_plain rom.id).1, h, not_false_eq_true,
      true_and]
    exact fun _ hf => absurd hf List.not_mem_nil

theorem IndexRom.NulFree.thumbnail (h : rom.NulFree) {t : CString} (ht : rom.thumbnail = some t) :
    0 ∉ t := h t (by simp [ht])

section Neutrality

variable {opening closing : UInt8} (hpair : opening = openBrace ∧ closing = closeBrace ∨
  opening = openBracket ∧ closing = closeBracket)

include hpair

theorem neutral_object {layout : Layout} {fields : List (CString × CString)}
    (hfields : ∀ f ∈ fields, isKey f.1 = true ∧ Neutral opening closing f.2) :
    Neutral opening closing (objectBody layout fields) ∧
      Neutral opening closing (objectText layout fields) := by
  rcases hpair with ⟨rfl, rfl⟩ | ⟨rfl, rfl⟩
  · have hbody : Neutral openBrace closeBrace (objectBody layout fields) :=
      neutral_objectBody (by decide) (by decide) hfields
    exact ⟨hbody, neutral_braced hbody⟩
  · have hbody : Neutral openBracket closeBracket (objectBody layout fields) :=
      neutral_objectBody (by decide) (by decide) hfields
    exact ⟨hbody, neutral_brackets_braced hbody⟩

theorem neutral_media (h : rom.NulFree) :
    ∀ f ∈ mediaFields rom, isKey f.1 = true ∧ Neutral opening closing f.2 := by
  intro f hf
  rw [List.mem_singleton.mp hf]
  refine ⟨rfl, ?_⟩
  unfold thumbnailText
  cases ht : rom.thumbnail with
  | some t => exact neutral_quoted (escaped_escaped (h.thumbnail ht))
  | none =>
    rcases hpair with ⟨rfl, rfl⟩ | ⟨rfl, rfl⟩
    · exact neutral_plain (unmarked rfl)
    · exact neutral_plain (unmarked rfl)

theorem neutral_indexFields (h : rom.NulFree) :
    ∀ f ∈ indexFields rom, isKey f.1 = true ∧ Neutral opening closing f.2 := by
  have hsource : ∀ f ∈ sourceFields, isKey f.1 = true ∧ Neutral opening closing f.2 := by
    intro f hf
    rw [List.mem_singleton.mp hf]
    exact ⟨rfl, neutral_quoted (escaped_of_isKey (by decide))⟩
  intro f hf
  rcases List.mem_append.mp hf with hf | hf
  · exact neutral_stringFields (keyed_indexStrings h) f hf
  · rcases List.mem_cons.mp hf with rfl | hf
    · exact ⟨rfl, (neutral_object hpair (neutral_media hpair h)).2⟩
    · rw [List.mem_singleton.mp hf]
      exact ⟨rfl, (neutral_object hpair hsource).2⟩

end Neutrality

theorem jsonFindObject_indexFields (h : rom.NulFree) :
    jsonFindObject (lit "media") (objectText romLayout (indexFields rom)) =
      some (objectBody oneLine (mediaFields rom)) := by
  have hne : lit "media" ∉ (indexStrings rom).map Prod.fst := by
    show lit "media" ∉ [lit "id", lit "system_id", lit "path", lit "relative_path",
      lit "file_name", lit "title", lit "extension", lit "directory_alias"]
    decide
  obtain ⟨rest, hrest⟩ := @exists_find_objectText romLayout (lit "media")
    (objectText oneLine (mediaFields rom)) (stringFields jsonWriteTable (indexStrings rom))
    [(lit "metadata", objectText oneLine sourceFields)] (by decide)
    ((keyed_indexStrings h).passes (by decide) hne) []
  rw [List.append_nil] at hrest
  unfold jsonFindObject indexFields
  rw [hrest, Option.bind_some]
  have hvalue : skipWsRange (objectText oneLine (mediaFields rom) ++ rest) =
      openBrace :: objectBody oneLine (mediaFields rom) ++ closeBrace :: rest := by
    show objectText oneLine _ ++ rest = _
    simp [objectText, braced]
  have hneutral : Neutral openBrace closeBrace (objectBody oneLine (mediaFields rom)) :=
    (neutral_object (Or.inl ⟨rfl, rfl⟩) (neutral_media (Or.inl ⟨rfl, rfl⟩) h)).1
  rw [hvalue, jsonMatchContainer_neutral (by decide) (by decide) hneutral]
  rfl

/-- The path of the artwork, as it is read from its object. -/
theorem jsonGetString_media (rom : IndexRom) :
    (jsonGetString 1024 (lit "thumbnail") (objectBody oneLine (mediaFields rom))).into .empty =
      (rom.thumbnail.map fun t => .cut (reread jsonWriteTable t)).getD .empty := by
  obtain ⟨rest, hrest⟩ := @exists_find_objectBody oneLine (lit "thumbnail") (thumbnailText rom)
    [] [] (by decide) (by simp) []
  rw [List.append_nil] at hrest
  unfold jsonGetString mediaFields
  rw [List.nil_append] at hrest
  rw [hrest]
  unfold thumbnailText
  cases rom.thumbnail with
  | some t =>
    simp only [jsonWriteEscaped, skipWsRange_quoted, jsonDecodeString_quoted]
    rfl
  | none => rfl

theorem readRom_indexFields (systemId : Buffer 64) (h : rom.NulFree) :
    ControllerUi.readRom systemId (objectText romLayout (indexFields rom)) =
      rom.readBack systemId := by
  have hread : ∀ {size : ℕ} [NeZero size] (key s : CString), (key, s) ∈ indexStrings rom →
      (jsonGetString size key (objectText romLayout (indexFields rom))).into .empty =
        .cut (reread jsonWriteTable s) := fun key s hmem =>
    jsonGetString_stringFields (keyed_indexStrings h) hmem .empty
  unfold ControllerUi.readRom IndexRom.readBack
  rw [hread (lit "title") rom.title (by simp [indexStrings]),
    hread (lit "relative_path") rom.relativePath (by simp [indexStrings]),
    hread (lit "path") rom.path (by simp [indexStrings]),
    hread (lit "extension") rom.extension (by simp [indexStrings]),
    jsonFindObject_indexFields h]
  simp only [jsonGetString_media rom]

end Rom

section Document

/-- The names of the system hold no NUL, and neither do its ROMs. -/
def IndexSystem.NulFree (system : IndexSystem) : Prop :=
  (∀ s ∈ [system.id, system.displayName, system.shortName, system.defaultLaunchProfile], 0 ∉ s) ∧
    ∀ rom ∈ system.roms, rom.NulFree

theorem commaLines_newline {lines : List CString} (hne : lines ≠ []) :
    commaLines lines ++ lit "\n" = listLines lines := by
  induction lines with
  | nil => exact absurd rfl hne
  | cons line lines ih =>
    cases lines with
    | nil => rfl
    | cons next lines =>
      rw [commaLines, listLines, List.append_assoc, ih (by simp)]

/-- What stands between the brackets of the `roms` array. -/
def romsBody (roms : List IndexRom) : CString :=
  lit "\n" ++ commaLines (roms.map IndexRom.text) ++ lit "\n      "

theorem romsBody_eq {roms : List IndexRom} (hne : roms ≠ []) :
    romsBody roms = lit "\n" ++ listLines ((roms.map fun rom =>
      objectBody romLayout (indexFields rom)).map fun body => lit "        " ++ braced body) ++
        lit "      " := by
  have hlines : roms.map IndexRom.text = (roms.map fun rom =>
      objectBody romLayout (indexFields rom)).map fun body => lit "        " ++ braced body := by
    rw [List.map_map]
    exact List.map_congr_left fun rom _ => text_eq rom
  have hend : lit "\n      " = lit "\n" ++ lit "      " := rfl
  rw [romsBody, hend, ← hlines, ← commaLines_newline (by simpa using hne)]
  simp only [List.append_assoc]

theorem jsonObjects_romsBody {roms : List IndexRom} (h : ∀ rom ∈ roms, rom.NulFree) :
    jsonObjects (romsBody roms) = roms.map fun rom => objectText romLayout (indexFields rom) := by
  by_cases hne : roms = []
  · subst hne
    exact jsonObjects_none (by decide)
  · rw [romsBody_eq hne, jsonObjects_listLines (by decide) (by decide) ?_ (by decide), List.map_map]
    · rfl
    · intro body hbody
      obtain ⟨rom, hrom, rfl⟩ := List.mem_map.mp hbody
      exact (neutral_object (Or.inl ⟨rfl, rfl⟩)
        (neutral_indexFields (Or.inl ⟨rfl, rfl⟩) (h rom hrom))).1

theorem neutral_romsBody {roms : List IndexRom} (h : ∀ rom ∈ roms, rom.NulFree) :
    Neutral openBracket closeBracket (romsBody roms) := by
  by_cases hne : roms = []
  · subst hne
    exact neutral_plain (unmarked rfl)
  · rw [romsBody_eq hne]
    refine neutral_append (neutral_append (neutral_plain (unmarked rfl))
      (neutral_listLines (unmarked rfl) fun line hline => ?_)) (neutral_plain (unmarked rfl))
    obtain ⟨body, hbody, rfl⟩ := List.mem_map.mp hline
    obtain ⟨rom, hrom, rfl⟩ := List.mem_map.mp hbody
    exact neutral_append (neutral_plain (unmarked rfl)) (neutral_object (Or.inr ⟨rfl, rfl⟩)
      (neutral_indexFields (Or.inr ⟨rfl, rfl⟩) (h rom hrom))).2

/-- The fields of the document in front of its systems. -/
def documentHead (index : LibraryIndex) (times : ScanTimes) : List (CString × CString) :=
  [(lit "version", lit "1"), (lit "generated_by", quoted (lit "plumos-library-scan")),
    (lit "generated_at_unix", numberText times.generatedAtUnix),
    (lit "sdcard_root", jsonWriteEscaped index.sdcardRoot),
    (lit "plumos_root", jsonWriteEscaped index.plumosRoot)]

/-- The fields of a system in front of its ROMs. -/
def systemHead (system : IndexSystem) : List (CString × CString) :=
  [(lit "id", jsonWriteEscaped system.id), (lit "display_name", jsonWriteEscaped system.displayName),
    (lit "short_name", jsonWriteEscaped system.shortName),
    (lit "sort_order", numberText system.sortOrder), (lit "rom_count", numberText system.romCount),
    (lit "thumbnail_count", numberText system.thumbnailCount),
    (lit "pinned", boolText system.pinned),
    (lit "default_launch_profile", jsonWriteEscaped system.defaultLaunchProfile)]

theorem passes_plain {key k v : CString} (hk : isKey k = true) (hne : k ≠ key)
    (hv : ∀ c ∈ v, c ≠ jsonQuote ∧ c ≠ 0) : Passes key (k, v) where
  isKey := hk
  ne := hne
  value ending hending := by
    simp only [endsValue, Bool.and_eq_true, List.all_eq_true, decide_eq_true_eq] at hending
    exact skips_append (skips_plain hv) (skips_plain hending.1.1)

theorem documentHead_passes {index : LibraryIndex} (times : ScanTimes)
    (hsdcard : 0 ∉ index.sdcardRoot) (hplumos : 0 ∉ index.plumosRoot) :
    ∀ f ∈ documentHead index times, Passes (lit "roms") f := by
  have hkey : isKey (lit "roms") = true := by decide
  have hby : quoted (lit "plumos-library-scan") =
      quoted (escaped jsonWriteTable (lit "plumos-library-scan")) := rfl
  simp only [documentHead, List.forall_mem_cons, hby]
  exact ⟨passes_plain (by decide) (by decide) (unquoted rfl),
    passes_string hkey (by decide) (by decide) (by decide),
    passes_plain (by decide) (by decide) (numberText_plain _),
    passes_string hkey (by decide) (by decide) hsdcard,
    passes_string hkey (by decide) (by decide) hplumos, by simp⟩

theorem systemHead_passes {system : IndexSystem} (h : system.NulFree) :
    ∀ f ∈ systemHead system, Passes (lit "roms") f := by
  have hkey : isKey (lit "roms") = true := by decide
  have hbool : ∀ c ∈ boolText system.pinned, c ≠ jsonQuote ∧ c ≠ 0 := by
    cases system.pinned <;> exact unquoted rfl
  simp only [systemHead, List.forall_mem_cons]
  obtain ⟨hid, hdisplay, hshort, hprofile, -⟩ := by
    simpa only [IndexSystem.NulFree, List.forall_mem_cons, and_assoc] using h
  exact ⟨passes_string hkey (by decide) (by decide) hid,
    passes_string hkey (by decide) (by decide) hdisplay,
    passes_string hkey (by decide) (by decide) hshort,
    passes_plain (by decide) (by decide) (numberText_plain _),
    passes_plain (by decide) (by decide) (numberText_plain _),
    passes_plain (by decide) (by decide) (numberText_plain _),
    passes_plain (by decide) (by decide) hbool,
    passes_string hkey (by decide) (by decide) hprofile, by simp⟩

/-- A document up to its systems. -/
def documentStart (index : LibraryIndex) (times : ScanTimes) : CString :=
  (openBrace :: lit "\n  ") ++ (joinFields (lit ",\n  ") (documentHead index times) ++
    lit ",\n  ") ++ (quoted (lit "systems") ++ lit ": ") ++ lit "[\n"

/-- A system up to its ROMs. -/
def systemStart (system : IndexSystem) : CString :=
  lit "    " ++ (openBrace :: lit "\n      ") ++
    (joinFields (lit ",\n      ") (systemHead system) ++ lit ",\n      ")

set_option maxRecDepth 4000 in
theorem systemText_eq (system : IndexSystem) (more : CString) : ∃ rest, system.text ++ more =
    systemStart system ++ (quoted (lit "roms") ++ lit ": " ++
      (openBracket :: romsBody system.roms ++ closeBracket :: rest)) := by
  refine ⟨lit "\n" ++ (lit "    \x7d" ++ more), ?_⟩
  unfold IndexSystem.text romsBody systemStart systemHead
  simp only [joinFields, fieldText, List.append_assoc, List.cons_append]
  rfl

set_option maxRecDepth 4000 in
theorem documentText_eq (index : LibraryIndex) (times : ScanTimes) : ∃ rest, index.text times =
    documentStart index times ++ (commaLines (index.systems.map IndexSystem.text) ++ rest) := by
  unfold LibraryIndex.text documentStart documentHead
  simp only [List.append_assoc]
  generalize lit "\n  ],\n" ++ _ = rest
  refine ⟨rest, ?_⟩
  simp only [joinFields, fieldText, List.append_assoc, List.cons_append]
  rfl

/-- The search for the ROMs ends at the array of the only system. -/
theorem find_roms {index : LibraryIndex} (times : ScanTimes) {system : IndexSystem}
    (hone : index.systems = [system]) (hsdcard : 0 ∉ index.sdcardRoot)
    (hplumos : 0 ∉ index.plumosRoot) (h : system.NulFree) :
    ∃ rest, jsonFindKeyValue (lit "roms") (index.text times) =
      some (openBracket :: romsBody system.roms ++ closeBracket :: rest) := by
  have hkey : isKey (lit "roms") = true := by decide
  obtain ⟨rest, hdocument⟩ := documentText_eq index times
  obtain ⟨tail, hsystem⟩ := systemText_eq system rest
  have hhead : Skips (lit "roms") (documentStart index times) :=
    skips_append (skips_append (skips_append (skips_plain (unquoted rfl))
      (skips_joinFields hkey (by decide) (documentHead_passes times hsdcard hplumos) (by decide)))
      (skips_key (by decide) hkey (by decide))) (skips_plain (unquoted rfl))
  have hstart : Skips (lit "roms") (systemStart system) :=
    skips_append (skips_append (skips_plain (unquoted rfl)) (skips_plain (unquoted rfl)))
      (skips_joinFields hkey (by decide) (systemHead_passes h) (by decide))
  rw [hone] at hdocument
  refine ⟨tail, ?_⟩
  calc jsonFindKeyValue (lit "roms") (index.text times)
    _ = jsonFindKeyValue (lit "roms") (system.text ++ rest) := by
        rw [hdocument]
        exact hhead _
    _ = _ := by
        rw [hsystem, hstart, jsonFindKeyValue_key]
        rfl

end Document

/-- What the browser lists of an index that was written are its ROMs as the codec leaves
them, each one once and in the order of the setting. -/
theorem index_read_back (byPath : Bool) (systemId : Buffer 64) (romDirectory : CString)
    (index : LibraryIndex) (times : ScanTimes) (system : IndexSystem)
    (hone : index.systems = [system]) (hsdcard : 0 ∉ index.sdcardRoot)
    (hplumos : 0 ∉ index.plumosRoot) (h : system.NulFree) :
    ControllerUi.loadRomEntries byPath systemId (index.text times) romDirectory =
      some (ControllerUi.romEntries byPath (system.roms.map (IndexRom.readBack systemId))
        romDirectory) := by
  obtain ⟨rest, hrest⟩ := find_roms times hone hsdcard hplumos h
  have hroms : (system.roms.map fun rom => objectText romLayout (indexFields rom)).map
      (ControllerUi.readRom systemId) = system.roms.map (IndexRom.readBack systemId) := by
    rw [List.map_map, List.map_inj_left]
    intro rom hrom
    rw [Function.comp_apply, readRom_indexFields systemId (h.2 rom hrom)]
  have hfind : jsonFindArray (lit "roms") (index.text times) = some (romsBody system.roms) :=
    jsonFindArray_of_find hrest (neutral_romsBody h.2)
  unfold ControllerUi.loadRomEntries
  rw [hfind, Option.map_some, jsonObjects_romsBody h.2, hroms]

def sampleSystem : IndexSystem where
  id := lit "gb"
  displayName := lit "Game Boy"
  shortName := lit "GB"
  sortOrder := 20
  romCount := 2
  thumbnailCount := 1
  pinned := false
  defaultLaunchProfile := lit "retroarch:gambatte"
  roms := [⟨1, lit "gb", lit "/storage/Roms/GB/a \"roms\": [.gb", lit "GB/a \"roms\": [.gb",
      lit "a \"roms\": [.gb", lit "a \"roms\": [", lit "gb", lit "GB", none⟩,
    ⟨2, lit "gb", lit "/storage/Roms/GB/b.gb", lit "GB/b.gb", lit "b.gb", lit "b", lit "gb",
      lit "GB", some (lit "/storage/Images/gb/b.png")⟩]

/-- An index of one system with two ROMs. -/
def sampleIndex : LibraryIndex where
  sdcardRoot := lit "/storage"
  plumosRoot := lit "/storage/plumos"
  systems := [sampleSystem]
  systemCount := 1
  aliasDirsFound := 1
  filesSeen := 2
  directoriesExcluded := 0
  filesMatched := 2
  romCount := 2
  thumbnailCount := 1
  thumbnailLookupDeferred := false

/-- A name that looks like the array of the ROMs is only a name. -/
theorem index_read_back_sample :
    ControllerUi.loadRomEntries false .empty (sampleIndex.text ⟨0, 0, 0, 0, 0⟩) [] =
      some (ControllerUi.romEntries false (sampleSystem.roms.map (IndexRom.readBack .empty)) []) := by
  have hnul : sampleSystem.NulFree := by
    refine ⟨by decide, ?_⟩
    unfold IndexRom.NulFree
    decide
  exact index_read_back false .empty [] sampleIndex ⟨0, 0, 0, 0, 0⟩ sampleSystem rfl (by decide)
    (by decide) hnul

end PlumosBubble.Frontend
