import Mathlib.Data.List.InsertIdx
import PlumosBubble.Frontend.FavoritesFile

/-! Runs of favorite operations of both programs on one file. The state is what was last
written; an operation sees only the text of it. -/

namespace PlumosBubble.Frontend

/-- What one of the programs wrote. -/
inductive Written where
  | flat (entries : List TextUi.FavoriteEntry)
  | nested (entries : List ControllerUi.RomEntry)
  deriving DecidableEq

/-- An entry of the controller has no file name. -/
def lifted (e : ControllerUi.RomEntry) : TextUi.FavoriteEntry where
  systemId := e.systemId
  relativePath := e.relativePath
  title := e.title
  fileName := .empty
  path := e.path
  thumbnail := e.thumbnail

namespace Written

/-- The file. -/
def text : Written → CString
  | .flat entries => TextUi.saveFavorites entries
  | .nested entries => ControllerUi.saveFavoriteEntries entries

/-- The favorites as they were written. -/
def entries : Written → List TextUi.FavoriteEntry
  | .flat entries => entries
  | .nested entries => entries.map lifted

/-- The escapes of the writer. -/
def table : Written → EscapeTable
  | .flat _ => jsonWriteTable
  | .nested _ => fprintTable

/-- Whether the thumbnail stands where only `plumos_text_ui.c` looks for it. -/
def isFlat : Written → Bool
  | .flat _ => true
  | .nested _ => false

end Written

/-- One operation of one of the programs. -/
inductive FavoriteOperation where
  | set (systemId : Buffer 64) (rom : TextUi.RomEntry)
  | clear (key : GameKey)
  | toggle (entry : ControllerUi.RomEntry)

namespace FavoriteOperation

/-- The entry that the operation names. -/
def key : FavoriteOperation → GameKey
  | .set systemId rom => ⟨systemId.text, rom.relativePath.text⟩
  | .clear key => key
  | .toggle entry => entry.key

/-- `toggle_current_favorite` refuses a game that is not named well. -/
def admissible : FavoriteOperation → Bool
  | .set _ _ | .clear _ => true
  | .toggle entry =>
    validSystemId entry.systemId.text &&
      ControllerUi.validRelativeRomPath entry.relativePath.text

/-- What the operation writes, if it writes anything. -/
def write (file : Option CString) : FavoriteOperation → Option Written
  | .set systemId rom => (TextUi.favoriteSet file systemId rom).map .flat
  | .clear key => (TextUi.favoriteClear file key).map .flat
  | .toggle entry => (ControllerUi.toggleCurrentFavorite file entry).map .nested

/-- The file after the operation. -/
def step (state : Option Written) (op : FavoriteOperation) : Option Written :=
  match op.write (state.map Written.text) with
  | some written => some written
  | none => state

/-- The file after a run. -/
def run (start : Option Written) (ops : List FavoriteOperation) : Option Written :=
  ops.foldl step start

end FavoriteOperation

/-- The favorites of a file, none where there is no file. -/
def favoritesOf (state : Option Written) : List TextUi.FavoriteEntry :=
  (state.map Written.entries).getD []

section Read

/-- An entry as it is read back. -/
def rereadEntry (table : EscapeTable) (e : TextUi.FavoriteEntry) : TextUi.FavoriteEntry where
  systemId := rereadBuffer table e.systemId
  relativePath := rereadBuffer table e.relativePath
  title := rereadBuffer table e.title
  fileName := rereadBuffer table e.fileName
  path := rereadBuffer table e.path
  thumbnail := rereadBuffer table e.thumbnail

/-- An entry without what the controller does not read. -/
def controllerPart (isFlat : Bool) (e : TextUi.FavoriteEntry) : ControllerUi.RomEntry where
  systemId := e.systemId
  title := e.title
  relativePath := e.relativePath
  path := e.path
  thumbnail := if isFlat then .empty else e.thumbnail

theorem rereadBuffer_empty {size : ℕ} [NeZero size] (table : EscapeTable) :
    rereadBuffer table (Buffer.empty : Buffer size) = .empty := by
  apply Buffer.eq_of_text
  simp [rereadBuffer, Buffer.cut, Buffer.empty, reread]

/-- What `plumos_text_ui.c` reads of a file. -/
theorem loadFavorites_written (written : Written) :
    TextUi.loadFavorites (some written.text) =
      some ((written.entries.map (rereadEntry written.table)).foldl TextUi.addFavorite []) := by
  cases written with
  | flat entries => exact loadFavorites_saveFavorites entries
  | nested entries =>
    have hread : nestedToText = fun e => rereadEntry fprintTable (lifted e) := by
      funext e
      simp only [rereadEntry, lifted, rereadBuffer_empty]
      rfl
    show TextUi.loadFavorites (some (ControllerUi.saveFavoriteEntries entries)) = _
    rw [loadFavorites_saveFavoriteEntries, hread]
    simp [Written.entries, Written.table, Function.comp_def]

theorem loadFavoriteEntries_written (written : Written) :
    ControllerUi.loadFavoriteEntries (some written.text) =
      some (written.entries.map fun e => ControllerUi.withTitle
        (controllerPart written.isFlat (rereadEntry written.table e))) := by
  cases written with
  | flat entries => exact loadFavoriteEntries_saveFavorites entries
  | nested entries =>
    show ControllerUi.loadFavoriteEntries (some (ControllerUi.saveFavoriteEntries entries)) = _
    rw [loadFavoriteEntries_saveFavoriteEntries]
    simp only [Written.entries, List.map_map]
    rfl

end Read

section Lists

/-- The favorites that an operation does not name. -/
def others (key : GameKey) (l : List TextUi.FavoriteEntry) : List TextUi.FavoriteEntry :=
  l.filter fun e => e.key ≠ key

/-- No game is listed twice. -/
def NoRepeats (l : List TextUi.FavoriteEntry) : Prop := (l.map TextUi.FavoriteEntry.key).Nodup

theorem findIdx?_key {α : Type} {key : α → GameKey} {l : List α} {k : GameKey} {i : ℕ}
    (h : l.findIdx? (fun e => key e = k) = some i) :
    ∃ (hi : i < l.length), key l[i] = k := by
  obtain ⟨hi, hkey, -⟩ := List.findIdx?_eq_some_iff_getElem.mp h
  exact ⟨hi, by simpa using hkey⟩

theorem findIdx?_key_none {α : Type} {key : α → GameKey} {l : List α} {k : GameKey}
    (h : l.findIdx? (fun e => key e = k) = none) : k ∉ l.map key := by
  rw [List.findIdx?_eq_none_iff] at h
  intro hmem
  obtain ⟨e, he, hkey⟩ := List.mem_map.mp hmem
  simpa [hkey] using h e he

theorem others_append_self {l : List TextUi.FavoriteEntry} {e : TextUi.FavoriteEntry} :
    others e.key (l ++ [e]) = others e.key l := by
  simp [others]

theorem others_split {l : List TextUi.FavoriteEntry} {k : GameKey} {i : ℕ}
    (hi : i < l.length) (hkey : l[i].key = k) :
    others k l = others k (l.take i) ++ others k (l.drop (i + 1)) := by
  have hl : l = l.take i ++ l[i] :: l.drop (i + 1) := by simp
  conv_lhs => rw [hl]
  unfold others
  rw [List.filter_append, List.filter_cons_of_neg (by simp [hkey])]

theorem others_set {l : List TextUi.FavoriteEntry} {e : TextUi.FavoriteEntry} {i : ℕ}
    (hi : i < l.length) (hkey : l[i].key = e.key) :
    others e.key (l.set i e) = others e.key l := by
  rw [others_split hi hkey, List.set_eq_take_append_cons_drop, if_pos hi]
  unfold others
  rw [List.filter_append, List.filter_cons_of_neg (by simp)]

theorem others_eraseIdx {l : List TextUi.FavoriteEntry} {k : GameKey} {i : ℕ}
    (hi : i < l.length) (hkey : l[i].key = k) : others k (l.eraseIdx i) = others k l := by
  rw [others_split hi hkey, List.eraseIdx_eq_take_drop_succ]
  exact List.filter_append ..

theorem noRepeats_append {l : List TextUi.FavoriteEntry} {e : TextUi.FavoriteEntry}
    (hl : NoRepeats l) (he : e.key ∉ l.map TextUi.FavoriteEntry.key) : NoRepeats (l ++ [e]) := by
  unfold NoRepeats
  rw [List.map_append]
  apply List.nodup_append.mpr
  refine ⟨hl, by simp, ?_⟩
  rintro k hk k' hk' rfl
  rw [List.map_singleton, List.mem_singleton] at hk'
  exact he (hk' ▸ hk)

theorem noRepeats_set {l : List TextUi.FavoriteEntry} {e : TextUi.FavoriteEntry} {i : ℕ}
    (hl : NoRepeats l) (hi : i < l.length) (hkey : l[i].key = e.key) :
    NoRepeats (l.set i e) := by
  have hkeys : (l.set i e).map TextUi.FavoriteEntry.key = l.map TextUi.FavoriteEntry.key := by
    rw [List.map_set, ← hkey]
    apply List.ext_getElem (by simp)
    intro j _ _
    rw [List.getElem_set]
    split_ifs with hj
    · subst hj
      simp
    · rfl
  unfold NoRepeats
  rw [hkeys]
  exact hl

theorem noRepeats_eraseIdx {l : List TextUi.FavoriteEntry} (hl : NoRepeats l) (i : ℕ) :
    NoRepeats (l.eraseIdx i) :=
  hl.sublist ((List.eraseIdx_sublist l i).map _)

end Lists

section Safe

/-- The strings that name the game come back as they were written. -/
def KeyReadable (table : EscapeTable) (e : TextUi.FavoriteEntry) : Prop :=
  Lettered table e.systemId.text ∧ Lettered table e.relativePath.text

/-- All strings of the entry come back as they were written. -/
def Readable (table : EscapeTable) (e : TextUi.FavoriteEntry) : Prop :=
  KeyReadable table e ∧ Lettered table e.title.text ∧ Lettered table e.fileName.text ∧
    Lettered table e.path.text ∧ Lettered table e.thumbnail.text

/-- `load_favorites` takes the entry, and finds nothing to fill in. -/
def TextKeeps (e : TextUi.FavoriteEntry) : Prop :=
  validSystemId e.systemId.text = true ∧ TextUi.validRelativeRomPath e.relativePath.text = true ∧
    TextUi.withTitle e = e

/-- The entry has nothing that `load_favorite_entries` does not read or fills in. -/
def ControllerKeeps (isFlat : Bool) (e : TextUi.FavoriteEntry) : Prop :=
  e.fileName = .empty ∧ (isFlat = true → e.thumbnail = .empty) ∧
    (e.title = .empty → (e.relativePath.copy : Buffer 256) = .empty)

/-- The program of the operation can read the favorites that the operation does not name, and
recognizes the one that it names. -/
def SafeOn (written : Written) (op : FavoriteOperation) : Prop :=
  (∀ e ∈ written.entries, e.key = op.key → KeyReadable written.table e) ∧
  (∀ e ∈ written.entries, e.key ≠ op.key → Readable written.table e) ∧
  match op with
  | .set _ _ | .clear _ =>
    (∀ e ∈ written.entries, e.key ≠ op.key → TextKeeps e) ∧
      written.entries.length ≤ TextUi.maxFavorites
  | .toggle _ => ∀ e ∈ written.entries, e.key ≠ op.key → ControllerKeeps written.isFlat e

instance (table : EscapeTable) (e : TextUi.FavoriteEntry) : Decidable (KeyReadable table e) :=
  inferInstanceAs (Decidable (_ ∧ _))

instance (table : EscapeTable) (e : TextUi.FavoriteEntry) : Decidable (Readable table e) :=
  inferInstanceAs (Decidable (_ ∧ _))

instance (e : TextUi.FavoriteEntry) : Decidable (TextKeeps e) :=
  inferInstanceAs (Decidable (_ ∧ _))

instance (isFlat : Bool) (e : TextUi.FavoriteEntry) : Decidable (ControllerKeeps isFlat e) :=
  inferInstanceAs (Decidable (_ ∧ _))

instance (written : Written) (op : FavoriteOperation) : Decidable (SafeOn written op) := by
  cases op <;> exact inferInstanceAs (Decidable (_ ∧ _ ∧ _))

/-- The operation is safe on the file that it finds, or has no valid game to toggle. -/
def Safe (state : Option Written) (op : FavoriteOperation) : Prop :=
  op.admissible = true → ∀ written, state = some written → SafeOn written op

/-- What an operation should do to the favorites. -/
structure Preserves (key : GameKey) (before after : List TextUi.FavoriteEntry) : Prop where
  others : others key after = others key before
  noRepeats : NoRepeats before → NoRepeats after

theorem rereadBuffer_eq {size : ℕ} [NeZero size] {table : EscapeTable} {b : Buffer size}
    (h : Lettered table b.text) : rereadBuffer table b = b := (cut_reread_iff b).mpr h

theorem rereadEntry_eq {table : EscapeTable} {e : TextUi.FavoriteEntry} (h : Readable table e) :
    rereadEntry table e = e := by
  obtain ⟨⟨hsystem, hrelative⟩, htitle, hfile, hpath, hthumbnail⟩ := h
  unfold rereadEntry
  rw [rereadBuffer_eq hsystem, rereadBuffer_eq hrelative, rereadBuffer_eq htitle,
    rereadBuffer_eq hfile, rereadBuffer_eq hpath, rereadBuffer_eq hthumbnail]

theorem key_rereadEntry {table : EscapeTable} {e : TextUi.FavoriteEntry}
    (h : KeyReadable table e) : (rereadEntry table e).key = e.key := by
  unfold TextUi.FavoriteEntry.key rereadEntry
  rw [rereadBuffer_eq h.1, rereadBuffer_eq h.2]

theorem key_withTitle (e : TextUi.FavoriteEntry) : (TextUi.withTitle e).key = e.key := by
  unfold TextUi.withTitle
  split_ifs <;> rfl

/-- The entries that `load_favorites` takes. -/
def taken (e : TextUi.FavoriteEntry) : Bool :=
  validSystemId e.systemId.text && TextUi.validRelativeRomPath e.relativePath.text

/-- Where no game is listed twice and there is room, `load_favorites` takes every entry that
names a game. -/
theorem foldl_addFavorite {l : List TextUi.FavoriteEntry} :
    ∀ {state : List TextUi.FavoriteEntry}, NoRepeats (state ++ l) →
      state.length + l.length ≤ TextUi.maxFavorites →
      l.foldl TextUi.addFavorite state = state ++ (l.filter taken).map TextUi.withTitle := by
  induction l with
  | nil => simp
  | cons e l ih =>
    intro state hnodup hroom
    rw [List.length_cons] at hroom
    have hnew : TextUi.findFavorite state e.key = none := by
      unfold TextUi.findFavorite
      rw [List.findIdx?_eq_none_iff]
      intro x hx
      unfold NoRepeats at hnodup
      rw [List.map_append, List.map_cons] at hnodup
      have hne := (List.nodup_append.mp hnodup).2.2 x.key (List.mem_map_of_mem hx) e.key
        List.mem_cons_self
      simpa using hne
    have hlength : state.length < TextUi.maxFavorites := by omega
    rw [List.foldl_cons, List.filter_cons]
    by_cases htaken : taken e = true
    · have hadd : TextUi.addFavorite state e = state ++ [TextUi.withTitle e] := by
        unfold TextUi.addFavorite
        rw [if_pos]
        unfold taken at htaken
        simp only [Bool.and_eq_true] at htaken
        simp [hlength, htaken, hnew]
      have hkeys : NoRepeats (state ++ [TextUi.withTitle e] ++ l) := by
        unfold NoRepeats at hnodup ⊢
        simpa [key_withTitle] using hnodup
      rw [hadd, if_pos htaken, ih hkeys (by simp; omega)]
      simp
    · have hskip : TextUi.addFavorite state e = state := by
        unfold TextUi.addFavorite
        rw [if_neg]
        unfold taken at htaken
        intro hadd
        simp only [Bool.and_eq_true] at hadd
        exact htaken (by simp [hadd])
      have hkeys : NoRepeats (state ++ l) := by
        exact List.Nodup.sublist
          ((List.Sublist.append_left (List.sublist_cons_self e l) state).map _) hnodup
      rw [hskip, if_neg htaken, ih hkeys (by omega)]

/-- What `load_favorites` makes of a file on which the operation is safe. -/
theorem others_loadFavorites {table : EscapeTable} {entries : List TextUi.FavoriteEntry}
    {key : GameKey} (hnodup : NoRepeats entries)
    (hnamed : ∀ e ∈ entries, e.key = key → KeyReadable table e)
    (hothers : ∀ e ∈ entries, e.key ≠ key → Readable table e ∧ TextKeeps e)
    (hroom : entries.length ≤ TextUi.maxFavorites) :
    Preserves key entries ((entries.map (rereadEntry table)).foldl TextUi.addFavorite []) := by
  have hkeys : ∀ e ∈ entries, (rereadEntry table e).key = e.key := by
    intro e he
    by_cases hkey : e.key = key
    · exact key_rereadEntry (hnamed e he hkey)
    · exact key_rereadEntry (hothers e he hkey).1.1
  have hread : (entries.map (rereadEntry table)).map TextUi.FavoriteEntry.key =
      entries.map TextUi.FavoriteEntry.key := by
    rw [List.map_map]
    exact List.map_congr_left hkeys
  have hrepeats : NoRepeats ([] ++ entries.map (rereadEntry table)) := by
    unfold NoRepeats
    rw [List.nil_append, hread]
    exact hnodup
  have hload := foldl_addFavorite hrepeats (by simpa using hroom)
  rw [List.nil_append] at hload
  rw [hload]
  constructor
  · clear hread hrepeats hload hroom hnodup
    unfold others
    induction entries with
    | nil => rfl
    | cons e entries ih =>
      have hrest := ih (fun x hx => hnamed x (List.mem_cons_of_mem _ hx))
        (fun x hx => hothers x (List.mem_cons_of_mem _ hx))
        (fun x hx => hkeys x (List.mem_cons_of_mem _ hx))
      have he := hkeys e List.mem_cons_self
      by_cases hkey : e.key = key
      · rw [List.filter_cons_of_neg (by simpa using hkey), ← hrest, List.map_cons]
        by_cases htaken : taken (rereadEntry table e) = true
        · rw [List.filter_cons_of_pos htaken, List.map_cons,
            List.filter_cons_of_neg (by simp [key_withTitle, he, hkey])]
        · rw [List.filter_cons_of_neg htaken]
      · obtain ⟨hreadable, hsystem, hrelative, htitle⟩ := hothers e List.mem_cons_self hkey
        have hsame := rereadEntry_eq hreadable
        have htaken : taken e = true := by simp [taken, hsystem, hrelative]
        rw [List.filter_cons_of_pos (by simpa using hkey), ← hrest, List.map_cons, hsame,
          List.filter_cons_of_pos htaken, List.map_cons, htitle,
          List.filter_cons_of_pos (by simpa using hkey)]
  · intro _
    have hmap : ((entries.map (rereadEntry table)).filter taken).map
        (TextUi.FavoriteEntry.key ∘ TextUi.withTitle) =
        ((entries.map (rereadEntry table)).filter taken).map TextUi.FavoriteEntry.key :=
      List.map_congr_left fun e _ => key_withTitle e
    unfold NoRepeats at hrepeats ⊢
    rw [List.map_map, hmap]
    exact hrepeats.sublist (List.filter_sublist.map _)

end Safe

section Steps

variable {key : GameKey} {before loaded : List TextUi.FavoriteEntry}

theorem Preserves.setFavoriteFromRom (hloaded : Preserves key before loaded)
    {systemId : Buffer 64} {rom : TextUi.RomEntry} {after : List TextUi.FavoriteEntry}
    (hkey : (TextUi.favoriteOfRom systemId rom).key = key)
    (h : TextUi.setFavoriteFromRom loaded systemId rom = some after) :
    Preserves key before after := by
  subst hkey
  unfold TextUi.setFavoriteFromRom at h
  cases hfind : TextUi.findFavorite loaded (TextUi.favoriteOfRom systemId rom).key with
  | some i =>
    obtain ⟨hi, hkey⟩ := findIdx?_key hfind
    simp only [hfind, Option.some.injEq] at h
    subst h
    constructor
    · rw [others_set hi hkey, hloaded.others]
    · intro hbefore
      exact noRepeats_set (hloaded.noRepeats hbefore) hi hkey
  | none =>
    simp only [hfind] at h
    split_ifs at h
    cases h
    constructor
    · rw [others_append_self, hloaded.others]
    · intro hbefore
      exact noRepeats_append (hloaded.noRepeats hbefore) (findIdx?_key_none hfind)

theorem Preserves.clearFavorite (hloaded : Preserves key before loaded) :
    Preserves key before (TextUi.clearFavorite loaded key) := by
  unfold TextUi.clearFavorite
  cases hfind : TextUi.findFavorite loaded key with
  | some i =>
    obtain ⟨hi, hkey⟩ := findIdx?_key hfind
    constructor
    · rw [others_eraseIdx hi hkey, hloaded.others]
    · intro hbefore
      exact noRepeats_eraseIdx (hloaded.noRepeats hbefore) i
  | none => exact hloaded

theorem lifted_controllerPart {isFlat : Bool} {e : TextUi.FavoriteEntry}
    (h : ControllerKeeps isFlat e) :
    lifted (ControllerUi.withTitle (controllerPart isFlat e)) = e := by
  obtain ⟨hfile, hthumbnail, htitle⟩ := h
  have hthumb : (if isFlat = true then Buffer.empty else e.thumbnail) = e.thumbnail := by
    by_cases hflat : isFlat = true
    · rw [if_pos hflat, hthumbnail hflat]
    · rw [if_neg hflat]
  have htitle' : (if e.title.nonempty = true then e.title else e.relativePath.copy) = e.title := by
    by_cases hempty : e.title.nonempty = true
    · rw [if_pos hempty]
    · have htext : e.title.text = [] := by simpa [Buffer.nonempty] using hempty
      have hnil : e.title = .empty := Buffer.eq_of_text htext
      rw [if_neg hempty, htitle hnil, hnil]
  unfold lifted ControllerUi.withTitle controllerPart
  simp only [hthumb, htitle', ← hfile]

/-- What `load_favorite_entries` makes of a file on which a toggle is safe. -/
theorem others_loadFavoriteEntries {table : EscapeTable} {isFlat : Bool}
    {entries : List TextUi.FavoriteEntry}
    (hnamed : ∀ e ∈ entries, e.key = key → KeyReadable table e)
    (hothers : ∀ e ∈ entries, e.key ≠ key → Readable table e ∧ ControllerKeeps isFlat e) :
    Preserves key entries ((entries.map fun e => ControllerUi.withTitle
      (controllerPart isFlat (rereadEntry table e))).map lifted) := by
  have hkeys : ∀ e ∈ entries, (lifted (ControllerUi.withTitle
      (controllerPart isFlat (rereadEntry table e)))).key = e.key := by
    intro e he
    show (rereadEntry table e).key = e.key
    by_cases hkey : e.key = key
    · exact key_rereadEntry (hnamed e he hkey)
    · exact key_rereadEntry (hothers e he hkey).1.1
  rw [List.map_map]
  constructor
  · unfold others
    induction entries with
    | nil => rfl
    | cons e entries ih =>
      have hrest := ih (fun x hx => hnamed x (List.mem_cons_of_mem _ hx))
        (fun x hx => hothers x (List.mem_cons_of_mem _ hx))
        (fun x hx => hkeys x (List.mem_cons_of_mem _ hx))
      have he := hkeys e List.mem_cons_self
      rw [List.map_cons]
      by_cases hkey : e.key = key
      · rw [List.filter_cons_of_neg (by rw [Function.comp_apply, he]; simpa using hkey),
          List.filter_cons_of_neg (by simpa using hkey), hrest]
      · obtain ⟨hreadable, hkeeps⟩ := hothers e List.mem_cons_self hkey
        have hsame : lifted (ControllerUi.withTitle
            (controllerPart isFlat (rereadEntry table e))) = e := by
          rw [rereadEntry_eq hreadable, lifted_controllerPart hkeeps]
        rw [List.filter_cons_of_pos (by rw [Function.comp_apply, he]; simpa using hkey),
          List.filter_cons_of_pos (by simpa using hkey), hrest, Function.comp_apply, hsame]
  · intro hnodup
    unfold NoRepeats at hnodup ⊢
    rw [List.map_map]
    have hmap : entries.map (TextUi.FavoriteEntry.key ∘ (lifted ∘ fun e =>
        ControllerUi.withTitle (controllerPart isFlat (rereadEntry table e)))) =
        entries.map TextUi.FavoriteEntry.key := List.map_congr_left hkeys
    rw [hmap]
    exact hnodup

theorem Preserves.toggle {loaded : List ControllerUi.RomEntry} {entry : ControllerUi.RomEntry}
    (hloaded : Preserves entry.key before (loaded.map lifted)) :
    Preserves entry.key before
      ((match ControllerUi.favoriteEntryIndex loaded entry.key with
        | some i => loaded.eraseIdx i
        | none => loaded ++ [ControllerUi.favoriteOfEntry entry]).map lifted) := by
  have hkey : (lifted (ControllerUi.favoriteOfEntry entry)).key = entry.key := rfl
  cases hfind : ControllerUi.favoriteEntryIndex loaded entry.key with
  | some i =>
    obtain ⟨hi, hfound⟩ := findIdx?_key hfind
    have hi' : i < (loaded.map lifted).length := by simpa using hi
    have hfound' : (loaded.map lifted)[i].key = entry.key := by
      rw [List.getElem_map]
      exact hfound
    rw [← List.eraseIdx_map]
    constructor
    · rw [others_eraseIdx hi' hfound', hloaded.others]
    · intro hbefore
      exact noRepeats_eraseIdx (hloaded.noRepeats hbefore) i
  | none =>
    have hnew := findIdx?_key_none hfind
    rw [List.map_append, List.map_singleton]
    constructor
    · rw [← hkey, others_append_self, hkey, hloaded.others]
    · intro hbefore
      apply noRepeats_append (hloaded.noRepeats hbefore)
      rw [hkey, List.map_map]
      exact hnew

theorem favoritesOf_step {state : Option Written} {op : FavoriteOperation} {written : Written}
    (h : op.write (state.map Written.text) = some written) :
    favoritesOf (op.step state) = written.entries := by
  unfold FavoriteOperation.step
  rw [h]
  rfl

/-- What `plumos_text_ui.c` loads before a safe operation. -/
theorem exists_loadFavorites {state : Option Written} (hnodup : NoRepeats (favoritesOf state))
    (hsafe : ∀ written, state = some written →
      (∀ e ∈ written.entries, e.key = key → KeyReadable written.table e) ∧
      (∀ e ∈ written.entries, e.key ≠ key → Readable written.table e) ∧
      (∀ e ∈ written.entries, e.key ≠ key → TextKeeps e) ∧
      written.entries.length ≤ TextUi.maxFavorites) :
    ∃ loaded, TextUi.loadFavorites (state.map Written.text) = some loaded ∧
      Preserves key (favoritesOf state) loaded := by
  cases state with
  | none => exact ⟨[], rfl, rfl, id⟩
  | some written =>
    obtain ⟨hnamed, hreadable, hkeeps, hroom⟩ := hsafe written rfl
    exact ⟨_, loadFavorites_written written, others_loadFavorites hnodup hnamed
      (fun e he hkey => ⟨hreadable e he hkey, hkeeps e he hkey⟩) hroom⟩

theorem exists_loadFavoriteEntries {state : Option Written}
    (hsafe : ∀ written, state = some written →
      (∀ e ∈ written.entries, e.key = key → KeyReadable written.table e) ∧
      (∀ e ∈ written.entries, e.key ≠ key → Readable written.table e) ∧
      ∀ e ∈ written.entries, e.key ≠ key → ControllerKeeps written.isFlat e) :
    ∃ loaded, ControllerUi.loadFavoriteEntries (state.map Written.text) = some loaded ∧
      Preserves key (favoritesOf state) (loaded.map lifted) := by
  cases state with
  | none => exact ⟨[], rfl, rfl, id⟩
  | some written =>
    obtain ⟨hnamed, hreadable, hkeeps⟩ := hsafe written rfl
    exact ⟨_, loadFavoriteEntries_written written, others_loadFavoriteEntries hnamed
      fun e he hkey => ⟨hreadable e he hkey, hkeeps e he hkey⟩⟩

theorem preserves_step {state : Option Written} {op : FavoriteOperation}
    (hnodup : NoRepeats (favoritesOf state)) (hsafe : Safe state op) :
    Preserves op.key (favoritesOf state) (favoritesOf (op.step state)) := by
  have hsame : op.write (state.map Written.text) = none →
      Preserves op.key (favoritesOf state) (favoritesOf (op.step state)) := by
    intro h
    unfold FavoriteOperation.step
    rw [h]
    exact ⟨rfl, id⟩
  cases hwrite : op.write (state.map Written.text) with
  | none => exact hsame hwrite
  | some written =>
    rw [favoritesOf_step hwrite]
    cases op with
    | set systemId rom =>
      obtain ⟨loaded, hload, hloaded⟩ := exists_loadFavorites hnodup (hsafe rfl)
      obtain ⟨after, hafter, rfl⟩ := Option.map_eq_some_iff.mp hwrite
      unfold TextUi.favoriteSet at hafter
      rw [hload] at hafter
      exact hloaded.setFavoriteFromRom rfl hafter
    | clear k =>
      obtain ⟨loaded, hload, hloaded⟩ := exists_loadFavorites hnodup (hsafe rfl)
      obtain ⟨after, hafter, rfl⟩ := Option.map_eq_some_iff.mp hwrite
      unfold TextUi.favoriteClear at hafter
      rw [hload] at hafter
      cases hafter
      exact hloaded.clearFavorite
    | toggle entry =>
      obtain ⟨after, hafter, rfl⟩ := Option.map_eq_some_iff.mp hwrite
      unfold ControllerUi.toggleCurrentFavorite at hafter
      split_ifs at hafter with hvalid
      have hadmissible : (FavoriteOperation.toggle entry).admissible = true := by
        simpa [FavoriteOperation.admissible] using hvalid
      obtain ⟨loaded, hload, hloaded⟩ := exists_loadFavoriteEntries (hsafe hadmissible)
      rw [hload] at hafter
      cases hafter
      exact hloaded.toggle

end Steps

section Runs

variable {start : Option Written}

/-- Every operation of the run is safe on the file that it finds. -/
def SafeRun : Option Written → List FavoriteOperation → Prop
  | _, [] => True
  | state, op :: ops => Safe state op ∧ SafeRun (op.step state) ops

/-- Both programs can read the file. -/
def ReadableByBoth (state : Option Written) : Prop :=
  (TextUi.loadFavorites (state.map Written.text)).isSome ∧
    (ControllerUi.loadFavoriteEntries (state.map Written.text)).isSome

theorem readableByBoth (state : Option Written) : ReadableByBoth state := by
  cases state with
  | none => exact ⟨rfl, rfl⟩
  | some written =>
    constructor
    · rw [Option.map_some, loadFavorites_written]
      rfl
    · rw [Option.map_some, loadFavoriteEntries_written]
      rfl

theorem noRepeats_run {ops : List FavoriteOperation} (hsafe : SafeRun start ops)
    (hnodup : NoRepeats (favoritesOf start)) :
    NoRepeats (favoritesOf (FavoriteOperation.run start ops)) := by
  induction ops generalizing start with
  | nil => exact hnodup
  | cons op ops ih => exact ih hsafe.2 ((preserves_step hnodup hsafe.1).noRepeats hnodup)

theorem safeRun_append {ops ops' : List FavoriteOperation} (hsafe : SafeRun start (ops ++ ops')) :
    SafeRun start ops ∧ SafeRun (FavoriteOperation.run start ops) ops' := by
  induction ops generalizing start with
  | nil => exact ⟨trivial, hsafe⟩
  | cons op ops ih =>
    obtain ⟨hrest, hrest'⟩ := ih hsafe.2
    exact ⟨⟨hsafe.1, hrest⟩, hrest'⟩

/-- The favorites that no operation of the run names. -/
def untouched (ops : List FavoriteOperation) (l : List TextUi.FavoriteEntry) :
    List TextUi.FavoriteEntry := l.filter fun e => e.key ∉ ops.map FavoriteOperation.key

theorem untouched_run {ops : List FavoriteOperation} (hsafe : SafeRun start ops)
    (hnodup : NoRepeats (favoritesOf start)) :
    untouched ops (favoritesOf (FavoriteOperation.run start ops)) =
      untouched ops (favoritesOf start) := by
  have hcons : ∀ op ops (l : List TextUi.FavoriteEntry),
      untouched (op :: ops) l = others op.key (untouched ops l) := by
    intro op ops l
    unfold untouched others
    rw [List.filter_filter]
    apply List.filter_congr
    intro e _
    by_cases hkey : e.key = op.key <;> simp [hkey]
  have hcomm : ∀ key ops (l : List TextUi.FavoriteEntry),
      others key (untouched ops l) = untouched ops (others key l) := by
    intro key ops l
    unfold untouched others
    rw [List.filter_filter, List.filter_filter]
    apply List.filter_congr
    intro e _
    rw [Bool.and_comm]
  induction ops generalizing start with
  | nil => rfl
  | cons op ops ih =>
    have hstep := preserves_step hnodup hsafe.1
    rw [hcons, hcons, hcomm, hcomm]
    show untouched ops (others op.key (favoritesOf (FavoriteOperation.run (op.step start) ops))) = _
    rw [← hcomm, ih hsafe.2 (hstep.noRepeats hnodup), hcomm, hstep.others]

/-- In a run of safe operations of both programs each changes only the favorite that it names,
none is listed twice, and both programs can read the file all along. -/
theorem favorites_survive {ops : List FavoriteOperation} (hnodup : NoRepeats (favoritesOf start))
    (hsafe : SafeRun start ops) :
    (∀ before op after, ops = before ++ op :: after →
      others op.key (favoritesOf (FavoriteOperation.run start (before ++ [op]))) =
        others op.key (favoritesOf (FavoriteOperation.run start before)) ∧
      NoRepeats (favoritesOf (FavoriteOperation.run start (before ++ [op]))) ∧
      ReadableByBoth (FavoriteOperation.run start (before ++ [op]))) ∧
    untouched ops (favoritesOf (FavoriteOperation.run start ops)) =
      untouched ops (favoritesOf start) := by
  refine ⟨?_, untouched_run hsafe hnodup⟩
  rintro before op after rfl
  obtain ⟨hbefore, hafter⟩ := safeRun_append hsafe
  have hrun : FavoriteOperation.run start (before ++ [op]) =
      op.step (FavoriteOperation.run start before) := by
    simp [FavoriteOperation.run]
  have hkept := noRepeats_run hbefore hnodup
  have hstep := preserves_step hkept hafter.1
  rw [hrun]
  exact ⟨hstep.others, hstep.noRepeats hkept, readableByBoth _⟩

/-- Two games of a card, one with a thumbnail. -/
def sampleFavorite : TextUi.FavoriteEntry where
  systemId := .cut (lit "nes")
  relativePath := .cut (lit "FC/a.nes")
  title := .cut (lit "a")
  fileName := .cut (lit "a.nes")
  path := .cut (lit "/mnt/SDCARD/Roms/FC/a.nes")
  thumbnail := .cut (lit "/mnt/SDCARD/Imgs/a.png")

def sampleGame : ControllerUi.RomEntry where
  systemId := .cut (lit "nes")
  title := .cut (lit "b")
  relativePath := .cut (lit "FC/b.nes")
  path := .cut (lit "/mnt/SDCARD/Roms/FC/b.nes")
  thumbnail := .cut (lit "/mnt/SDCARD/Imgs/b.png")

/-- Toggling one game in the controller drops the thumbnail and the file name of another one
that `plumos_text_ui.c` wrote. -/
theorem favorites_not_preserved :
    NoRepeats (favoritesOf (some (.flat [sampleFavorite]))) ∧
    others sampleGame.key
        (favoritesOf ((FavoriteOperation.toggle sampleGame).step (some (.flat [sampleFavorite])))) ≠
      others sampleGame.key (favoritesOf (some (.flat [sampleFavorite]))) := by
  refine ⟨by simp [NoRepeats, favoritesOf, Written.entries], ?_⟩
  decide +kernel

/-- A game without artwork, set in one program before another is toggled in the other. -/
def sampleRun : List FavoriteOperation :=
  [.set (.cut (lit "gb")) ⟨.cut (lit "t"), .empty, .cut (lit "GB/t.gb"), .empty, .empty⟩,
    .toggle sampleGame, .clear sampleGame.key]

theorem favorites_survive_sample :
    untouched sampleRun (favoritesOf (FavoriteOperation.run none sampleRun)) =
      untouched sampleRun (favoritesOf none) := by
  refine (@favorites_survive none sampleRun (by simp [NoRepeats, favoritesOf]) ?_).2
  unfold sampleRun
  refine ⟨?_, ?_, ?_, trivial⟩
  · intro _ written h
    cases h
  · intro _ written h
    cases h
    decide +kernel
  · intro _ written h
    have hstep : (FavoriteOperation.toggle sampleGame).step (some (.flat
        [TextUi.favoriteOfRom (.cut (lit "gb"))
          ⟨.cut (lit "t"), .empty, .cut (lit "GB/t.gb"), .empty, .empty⟩])) =
        some (.nested [⟨.cut (lit "gb"), .cut (lit "t"), .cut (lit "GB/t.gb"), .empty, .empty⟩,
          sampleGame]) := by
      decide +kernel
    have hwritten := hstep.symm.trans h
    cases hwritten
    decide +kernel

end Runs

end PlumosBubble.Frontend
