import PlumosBubble.Frontend.FavoritesFile
import PlumosBubble.Launch.Overrides
import PlumosBubble.Ggfe.Profiles

/-! The override file of GGFE, after `plumos_ggfe_launch.h`: how it is read for one system, how it
is written from the overrides in memory, and what is read back of what was written. -/

namespace PlumosBubble.Ggfe

open Frontend

/-- `GGFE_MAX_ROM_OVERRIDES`. -/
def maxRomOverrides : ℕ := 256

section Load

/-- The system that an object is about. -/
def isAbout (systemId object : CString) : Bool :=
  match jsonGetString 64 (lit "system_id") object with
  | .found id _ => id.text = systemId
  | .cleared | .untouched => false

/-- One round over `system_overrides`. -/
def readSystemOverride (systemId : CString) (state : Bool × Buffer 128) (object : CString) :
    Bool × Buffer 128 :=
  if isAbout systemId object then
    let profile := jsonGetString 128 (lit "launch_profile") object
    (state.1 || profile.ok, profile.into state.2)
  else state

/-- One object of `rom_overrides`. -/
def readRomOverride (systemId object : CString) : Option ProfileOverride :=
  if isAbout systemId object then
    match jsonGetString 4096 (lit "relative_path") object,
        jsonGetString 128 (lit "launch_profile") object with
    | .found relativePath _, .found launchProfile _ => some ⟨relativePath, launchProfile⟩
    | _, _ => none
  else none

/-- The objects of an array, none where there is no array. -/
def arrayObjects (key text : CString) : List CString :=
  ((jsonFindArray key text).map jsonObjects).getD []

/-- `ggfe_overrides_load`: the overrides, and whether the file was read. -/
def overridesLoad (file : Option CString) (systemId : CString) : OverrideSet × Bool :=
  match readFile file with
  | none => (⟨false, .empty, []⟩, false)
  | some text =>
    let system := (arrayObjects (lit "system_overrides") text).foldl (readSystemOverride systemId)
      (false, .empty)
    (⟨system.1, system.2, ((arrayObjects (lit "rom_overrides") text).filterMap
      (readRomOverride systemId)).take maxRomOverrides⟩, true)

end Load

section Set

/-- `a[i] = a[n - 1]; n--`. -/
def swapRemove {α : Type*} (items : List α) (i : ℕ) : List α :=
  match items.getLast? with
  | none => items
  | some last => (items.set i last).dropLast

/-- `copy_string` into the profile of an entry: an array that is too short is left empty. -/
def ProfileOverride.copyProfile (entry : ProfileOverride) (profile : CString) :
    ProfileOverride × Bool :=
  match TextUi.bufferOf 128 profile with
  | some b => ({ entry with launchProfile := b }, true)
  | none => ({ entry with launchProfile := .empty }, false)

/-- `ggfe_override_set_rom`: the overrides afterwards, and the return value. -/
def overrideSetRom (set : OverrideSet) (romRel : CString) (profile : Option CString) :
    OverrideSet × Bool :=
  match set.rom.findIdx? fun entry => entry.relativePath.text = romRel with
  | some i =>
    match profile.filter fun p => p ≠ [] with
    | some p =>
      ({ set with rom := set.rom.modify i fun entry => (entry.copyProfile p).1 },
        set.rom[i]?.any fun entry => (entry.copyProfile p).2)
    | none => ({ set with rom := swapRemove set.rom i }, true)
  | none =>
    match profile.filter fun p => p ≠ [] with
    | none => (set, true)
    | some p =>
      if maxRomOverrides ≤ set.rom.length then (set, false)
      else
        match TextUi.bufferOf 4096 romRel, TextUi.bufferOf 128 p with
        | some rel, some b => ({ set with rom := set.rom ++ [⟨rel, b⟩] }, true)
        | _, _ => (set, false)

end Set

section Save

/-- `ggfe_json_escape` has no letters. -/
def ggfeTable : EscapeTable where
  letter _ := none
  control _ _ h := by cases h
  reads _ _ h := by cases h

/-- `ggfe_json_escape`. -/
def jsonEscape (s : CString) : CString := escaped ggfeTable s

/-- An object of `rom_overrides`, with what is printed before it. -/
def romOverrideText (systemId : CString) (first : Bool) (entry : ProfileOverride) : CString :=
  (if first then [] else lit ",") ++ lit "\n    \x7b \"system_id\": \"" ++ jsonEscape systemId ++
    lit "\", \"relative_path\": \"" ++ jsonEscape entry.relativePath.text ++
    lit "\", \"launch_profile\": \"" ++ jsonEscape entry.launchProfile.text ++ lit "\" \x7d"

/-- The loop over the ROMs; entries without a profile are left out. -/
def romOverrideTexts (systemId : CString) : Bool → List ProfileOverride → CString
  | _, [] => []
  | first, entry :: entries =>
    if entry.launchProfile.nonempty then
      romOverrideText systemId first entry ++ romOverrideTexts systemId false entries
    else romOverrideTexts systemId first entries

/-- The object of `system_overrides`. -/
def systemOverrideText (set : OverrideSet) (systemId : CString) : CString :=
  if set.hasSystem && set.systemProfile.nonempty then
    lit "\n    \x7b \"system_id\": \"" ++ jsonEscape systemId ++ lit "\", \"launch_profile\": \"" ++
      jsonEscape set.systemProfile.text ++ lit "\" \x7d\n  "
  else []

/-- The entries that are written. -/
def writtenOverrides (set : OverrideSet) : List ProfileOverride :=
  set.rom.filter fun entry => entry.launchProfile.nonempty

/-- What `ggfe_overrides_save` writes. -/
def overridesSave (set : OverrideSet) (systemId : CString) : CString :=
  lit "\x7b\n  \"version\": 1,\n  \"system_overrides\": [" ++ systemOverrideText set systemId ++
    lit "],\n  \"rom_overrides\": [" ++ romOverrideTexts systemId true set.rom ++
    (if writtenOverrides set = [] then [] else lit "\n  ") ++ lit "]\n\x7d\n"

end Save

section RoundTrip

theorem jsonObjects_flatMap {bodies : List (CString × CString)} {ending : CString}
    (hending : openBrace ∉ ending)
    (hbodies : ∀ b ∈ bodies, openBrace ∉ b.1 ∧ Neutral openBrace closeBrace b.2) :
    jsonObjects ((bodies.flatMap fun b => b.1 ++ braced b.2) ++ ending) =
      bodies.map fun b => braced b.2 := by
  induction bodies with
  | nil => exact jsonObjects_none hending
  | cons b bodies ih =>
    obtain ⟨hgap, hbody⟩ := hbodies b List.mem_cons_self
    rw [List.flatMap_cons, List.append_assoc, jsonObjects_braced hgap hbody,
      ih fun c hc => hbodies c (List.mem_cons_of_mem _ hc), List.map_cons]

theorem neutral_flatMap {opening closing : UInt8} {α : Type*} {items : List α}
    {f : α → CString} (h : ∀ x ∈ items, Neutral opening closing (f x)) :
    Neutral opening closing (items.flatMap f) := by
  induction items with
  | nil => exact neutral_plain (by simp)
  | cons x items ih =>
    exact neutral_append (h x List.mem_cons_self) (ih fun y hy => h y (List.mem_cons_of_mem _ hy))

/-- The strings of an entry of the file. -/
def romStrings (systemId : Buffer 64) (entry : ProfileOverride) : List (CString × CString) :=
  [(lit "system_id", systemId.text), (lit "relative_path", entry.relativePath.text),
    (lit "launch_profile", entry.launchProfile.text)]

/-- The strings of the object for the system. -/
def systemStrings (systemId : Buffer 64) (profile : Buffer 128) : List (CString × CString) :=
  [(lit "system_id", systemId.text), (lit "launch_profile", profile.text)]

theorem keyed_romStrings (systemId : Buffer 64) (entry : ProfileOverride) :
    Keyed (romStrings systemId entry) where
  isKey := by
    have hkeys : ∀ k ∈ (romStrings systemId entry).map Prod.fst, isKey k = true := by
      show ∀ k ∈ [lit "system_id", lit "relative_path", lit "launch_profile"], isKey k = true
      decide
    exact fun f hf => hkeys _ (List.mem_map_of_mem hf)
  nodup := by
    show [lit "system_id", lit "relative_path", lit "launch_profile"].Nodup
    decide
  noNul := by
    simp [romStrings, systemId.noNul, entry.relativePath.noNul, entry.launchProfile.noNul]

theorem keyed_systemStrings (systemId : Buffer 64) (profile : Buffer 128) :
    Keyed (systemStrings systemId profile) where
  isKey := by
    have hkeys : ∀ k ∈ (systemStrings systemId profile).map Prod.fst, isKey k = true := by
      show ∀ k ∈ [lit "system_id", lit "launch_profile"], isKey k = true
      decide
    exact fun f hf => hkeys _ (List.mem_map_of_mem hf)
  nodup := by
    show [lit "system_id", lit "launch_profile"].Nodup
    decide
  noNul := by
    simp [systemStrings, systemId.noNul, profile.noNul]

/-- An entry of the file, as an object. -/
def romObject (systemId : Buffer 64) (entry : ProfileOverride) : CString :=
  objectText oneLine (stringFields ggfeTable (romStrings systemId entry))

theorem romOverrideText_eq (systemId : Buffer 64) (first : Bool) (entry : ProfileOverride) :
    romOverrideText systemId.text first entry =
      (if first then lit "\n    " else lit ",\n    ") ++ romObject systemId entry := by
  have hquoted : ∀ s, quoted s = [jsonQuote] ++ s ++ [jsonQuote] := fun _ => rfl
  simp only [romOverrideText, romObject, objectText, objectBody, oneLine, braced, romStrings,
    stringFields, jsonEscape, List.map_cons, List.map_nil, joinFields, fieldText,
    hquoted (escaped _ _), List.append_assoc, List.cons_append, List.nil_append]
  cases first
  · rfl
  · rfl

/-- The objects of the ROMs, each with the text before it. -/
def romGaps (systemId : Buffer 64) : Bool → List ProfileOverride → List (CString × CString)
  | _, [] => []
  | first, entry :: entries =>
    ((if first then lit "\n    " else lit ",\n    "),
      objectBody oneLine (stringFields ggfeTable (romStrings systemId entry))) ::
        romGaps systemId false entries

theorem romOverrideTexts_eq (systemId : Buffer 64) (first : Bool)
    (entries : List ProfileOverride) : romOverrideTexts systemId.text first entries =
      (romGaps systemId first (entries.filter fun entry => entry.launchProfile.nonempty)).flatMap
        fun b => b.1 ++ braced b.2 := by
  induction entries generalizing first with
  | nil => rfl
  | cons entry entries ih =>
    unfold romOverrideTexts
    rw [List.filter_cons]
    split
    · rw [romOverrideText_eq, ih]
      rfl
    · exact ih first

theorem romGaps_neutral {systemId : Buffer 64} {opening closing : UInt8}
    (hopening : isBracket opening = true) (hclosing : isBracket closing = true) :
    ∀ (entries : List ProfileOverride) (first : Bool), ∀ b ∈ romGaps systemId first entries,
      (b.1 = lit "\n    " ∨ b.1 = lit ",\n    ") ∧ Neutral opening closing b.2 := by
  intro entries
  induction entries with
  | nil => exact fun _ b hb => absurd hb List.not_mem_nil
  | cons entry entries ih =>
    intro first b hb
    rcases List.mem_cons.mp hb with rfl | hb
    · constructor
      · cases first
        · exact Or.inr rfl
        · exact Or.inl rfl
      · apply neutral_objectBody hopening hclosing
        exact neutral_stringFields (keyed_romStrings systemId entry)
    · exact ih false b hb

theorem map_romGaps (systemId : Buffer 64) (first : Bool) (entries : List ProfileOverride) :
    ((romGaps systemId first entries).map fun b => braced b.2) =
      entries.map (romObject systemId) := by
  induction entries generalizing first with
  | nil => rfl
  | cons entry entries ih =>
    rw [List.map_cons, ← ih false]
    rfl

theorem systemOverrideText_eq (set : OverrideSet) (systemId : Buffer 64) :
    systemOverrideText set systemId.text =
      if set.hasSystem && set.systemProfile.nonempty then
        lit "\n    " ++ objectText oneLine
          (stringFields ggfeTable (systemStrings systemId set.systemProfile)) ++ lit "\n  "
      else [] := by
  have hquoted : ∀ s, quoted s = [jsonQuote] ++ s ++ [jsonQuote] := fun _ => rfl
  unfold systemOverrideText
  simp only [objectText, objectBody, oneLine, braced, systemStrings, stringFields, jsonEscape,
    List.map_cons, List.map_nil, joinFields, fieldText, hquoted (escaped _ _), List.append_assoc,
    List.cons_append, List.nil_append]
  rfl

theorem skips_systemOverrideText (set : OverrideSet) (systemId : Buffer 64) :
    Skips (lit "rom_overrides") (systemOverrideText set systemId.text) := by
  rw [systemOverrideText_eq]
  split
  · have hpasses : ∀ f ∈ stringFields ggfeTable (systemStrings systemId set.systemProfile),
        Passes (lit "rom_overrides") f := by
      apply (keyed_systemStrings systemId set.systemProfile).passes (by decide)
      show lit "rom_overrides" ∉ [lit "system_id", lit "launch_profile"]
      decide
    exact skips_append (skips_append (skips_plain (by decide +kernel))
      (skips_objectText (by decide) hpasses)) (skips_plain (by decide +kernel))
  · exact skips_plain (by simp)

/-- The body of the array of the ROMs. -/
def romBody (set : OverrideSet) (systemId : Buffer 64) : CString :=
  romOverrideTexts systemId.text true set.rom ++
    (if writtenOverrides set = [] then [] else lit "\n  ")

theorem neutral_romBody (set : OverrideSet) (systemId : Buffer 64) :
    Neutral openBracket closeBracket (romBody set systemId) := by
  have hending : Neutral openBracket closeBracket
      (if writtenOverrides set = [] then [] else lit "\n  ") := by
    split
    · exact neutral_plain (by simp)
    · exact neutral_plain (by decide +kernel)
  unfold romBody
  rw [romOverrideTexts_eq]
  apply neutral_append _ hending
  apply neutral_flatMap
  intro b hb
  have hopen : isBracket openBracket = true := by decide
  have hclose : isBracket closeBracket = true := by decide
  obtain ⟨hgap, hbody⟩ := romGaps_neutral hopen hclose _ _ b hb
  apply neutral_append _ (neutral_brackets_braced hbody)
  rcases hgap with hgap | hgap <;>
  · rw [hgap]
    exact neutral_plain (by decide +kernel)

theorem find_romBody (set : OverrideSet) (systemId : Buffer 64) :
    jsonFindArray (lit "rom_overrides") (overridesSave set systemId.text) =
      some (romBody set systemId) := by
  have hskip : Skips (lit "rom_overrides")
      ((openBrace :: lit "\n  " ++ (quoted (lit "version") ++ lit ": ") ++ lit "1,\n  " ++
        (quoted (lit "system_overrides") ++ lit ": ") ++ lit "[") ++
        systemOverrideText set systemId.text ++ lit "],\n  ") := by
    apply skips_append (skips_append _ (skips_systemOverrideText set systemId))
      (skips_plain (by decide +kernel))
    exact skips_append (skips_append (skips_append (skips_append (skips_plain (by decide +kernel))
      (skips_key (by decide) (by decide) (by decide))) (skips_plain (by decide +kernel)))
      (skips_key (by decide) (by decide) (by decide))) (skips_plain (by decide +kernel))
  have hfind := hskip (quoted (lit "rom_overrides") ++ lit ": " ++
    (openBracket :: romBody set systemId ++ closeBracket :: lit "\n\x7d\n"))
  rw [jsonFindKeyValue_key] at hfind
  have hstart : lit "\x7b\n  \"version\": 1,\n  \"system_overrides\": [" =
      openBrace :: lit "\n  " ++ (quoted (lit "version") ++ lit ": ") ++ lit "1,\n  " ++
        (quoted (lit "system_overrides") ++ lit ": ") ++ lit "[" := rfl
  have hmiddle : lit "],\n  \"rom_overrides\": [" =
      lit "],\n  " ++ (quoted (lit "rom_overrides") ++ lit ": ") ++ [openBracket] := rfl
  have hend : lit "]\n\x7d\n" = closeBracket :: lit "\n\x7d\n" := rfl
  have hdoc : overridesSave set systemId.text =
      ((openBrace :: lit "\n  " ++ (quoted (lit "version") ++ lit ": ") ++ lit "1,\n  " ++
        (quoted (lit "system_overrides") ++ lit ": ") ++ lit "[") ++
        systemOverrideText set systemId.text ++ lit "],\n  ") ++
        (quoted (lit "rom_overrides") ++ lit ": " ++
          (openBracket :: romBody set systemId ++ closeBracket :: lit "\n\x7d\n")) := by
    unfold overridesSave romBody
    rw [hstart, hmiddle, hend]
    simp only [List.append_assoc, List.cons_append, List.nil_append]
  rw [hdoc]
  exact jsonFindArray_of_find hfind (neutral_romBody set systemId)

theorem arrayObjects_overridesSave (set : OverrideSet) (systemId : Buffer 64) :
    arrayObjects (lit "rom_overrides") (overridesSave set systemId.text) =
      (writtenOverrides set).map (romObject systemId) := by
  unfold arrayObjects
  rw [find_romBody, Option.map_some, Option.getD_some]
  unfold romBody
  rw [romOverrideTexts_eq, jsonObjects_flatMap, map_romGaps]
  · rfl
  · split
    · exact List.not_mem_nil
    · decide
  · intro b hb
    have hopen : isBracket openBrace = true := by decide
    have hclose : isBracket closeBrace = true := by decide
    obtain ⟨hgap, hbody⟩ := romGaps_neutral hopen hclose _ _ b hb
    refine ⟨?_, hbody⟩
    rcases hgap with hgap | hgap <;>
    · rw [hgap]
      decide

theorem exists_jsonGetString {size : ℕ} [NeZero size] {l : List (CString × CString)}
    (hl : Keyed l) {key s : CString} (hmem : (key, s) ∈ l) :
    ∃ rest, jsonGetString size key (objectText oneLine (stringFields ggfeTable l)) =
      .found (.cut (reread ggfeTable s)) rest := by
  obtain ⟨before, after, rfl, hbefore⟩ := @Keyed.exists_split ggfeTable l hl key s hmem
  obtain ⟨rest, hrest⟩ := @exists_find_objectText oneLine key (quoted (escaped ggfeTable s))
    (stringFields ggfeTable before) (stringFields ggfeTable after) (hl.isKey _ hmem) hbefore []
  have hsplit : stringFields ggfeTable (before ++ (key, s) :: after) =
      stringFields ggfeTable before ++ (key, quoted (escaped ggfeTable s)) ::
        stringFields ggfeTable after := by
    simp [stringFields]
  rw [List.append_nil, skipWsRange_quoted] at hrest
  refine ⟨rest, ?_⟩
  unfold jsonGetString
  rw [hsplit, hrest]
  exact jsonDecodeString_quoted s rest

/-- An entry as it is read back. -/
def rereadOverride (entry : ProfileOverride) : ProfileOverride where
  relativePath := .cut (reread ggfeTable entry.relativePath.text)
  launchProfile := .cut (reread ggfeTable entry.launchProfile.text)

theorem readRomOverride_romObject (systemId : Buffer 64) (entry : ProfileOverride)
    (wanted : CString) : readRomOverride wanted (romObject systemId entry) =
      if (Buffer.cut (reread ggfeTable systemId.text) : Buffer 64).text = wanted then
        some (rereadOverride entry)
      else none := by
  have hkeyed := keyed_romStrings systemId entry
  obtain ⟨_, hsystem⟩ := @exists_jsonGetString 64 _ _ hkeyed (lit "system_id") systemId.text
    (by simp [romStrings])
  obtain ⟨_, hrelative⟩ := @exists_jsonGetString 4096 _ _ hkeyed (lit "relative_path")
    entry.relativePath.text (by simp [romStrings])
  obtain ⟨_, hprofile⟩ := @exists_jsonGetString 128 _ _ hkeyed (lit "launch_profile")
    entry.launchProfile.text (by simp [romStrings])
  unfold readRomOverride isAbout romObject
  rw [hsystem, hrelative, hprofile]
  simp only [decide_eq_true_eq]
  rfl

theorem overridesLoad_overridesSave (set : OverrideSet) (systemId : Buffer 64) (wanted : CString)
    (hsize : (overridesSave set systemId.text).length ≤ 2 ^ 20) :
    (overridesLoad (some (overridesSave set systemId.text)) wanted).1.rom =
      if (Buffer.cut (reread ggfeTable systemId.text) : Buffer 64).text = wanted then
        ((writtenOverrides set).map rereadOverride).take maxRomOverrides
      else [] := by
  have hread : readFile (some (overridesSave set systemId.text)) =
      some (overridesSave set systemId.text) := by
    unfold readFile
    rw [Option.filter_some]
    exact if_pos (decide_eq_true hsize)
  unfold overridesLoad
  rw [hread]
  simp only [arrayObjects_overridesSave, List.filterMap_map]
  have hfunction : readRomOverride wanted ∘ romObject systemId = fun entry =>
      if (Buffer.cut (reread ggfeTable systemId.text) : Buffer 64).text = wanted then
        some (rereadOverride entry)
      else none := by
    funext entry
    exact readRomOverride_romObject systemId entry wanted
  rw [hfunction]
  split
  · rw [← List.filterMap_eq_map]
    rfl
  · rw [List.filterMap_eq_nil_iff.mpr fun _ _ => rfl, List.take_nil]

end RoundTrip

end PlumosBubble.Ggfe
