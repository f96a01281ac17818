import PlumosBubble.Frontend.JsonFraming

/-! The writers of JSON strings, `json_write_escaped`, `fprint_json_string` and
`ggfe_json_escape`, and what `json_decode_string` reads back: every byte but the control
characters that have no letter of their own. -/

namespace PlumosBubble.Frontend

/-- The bytes that a writer escapes with a letter. -/
structure EscapeTable where
  letter : UInt8 → Option UInt8
  control : ∀ c l, letter c = some l → c < 0x20
  reads : ∀ c l, letter c = some l → l ≠ 0 ∧ unescaped l = c

/-- A digit of `%x`. -/
def hexDigit (n : UInt8) : UInt8 := if n < 10 then 0x30 + n else 0x57 + n

/-- `%04x` of a byte. -/
def hexByte (c : UInt8) : CString := [0x30, 0x30, hexDigit (c / 16), hexDigit (c % 16)]

/-- One byte of a string, as a writer puts it. -/
def escapeByte (table : EscapeTable) (c : UInt8) : CString :=
  if c = jsonQuote ∨ c = jsonEscape then [jsonEscape, c]
  else
    match table.letter c with
    | some l => [jsonEscape, l]
    | none => if c < 0x20 then jsonEscape :: 0x75 :: hexByte c else [c]

/-- A string, as a writer puts it. -/
def escaped (table : EscapeTable) (s : CString) : CString := s.flatMap (escapeByte table)

/-- The letters of `json_write_escaped`. -/
def jsonWriteTable : EscapeTable where
  letter c :=
    if c = 0x08 then some 0x62
    else if c = 0x0c then some 0x66
    else if c = 0x0a then some 0x6e
    else if c = 0x0d then some 0x72
    else if c = 0x09 then some 0x74
    else none
  control c l h := by
    split_ifs at h with h₁ h₂ h₃ h₄ h₅ <;> simp_all
  reads c l h := by
    split_ifs at h with h₁ h₂ h₃ h₄ h₅ <;> cases h <;> simp_all <;> decide

/-- The letters of `fprint_json_string`. -/
def fprintTable : EscapeTable where
  letter c :=
    if c = 0x0a then some 0x6e
    else if c = 0x0d then some 0x72
    else if c = 0x09 then some 0x74
    else none
  control c l h := by
    split_ifs at h with h₁ h₂ h₃ <;> simp_all
  reads c l h := by
    split_ifs at h with h₁ h₂ h₃ <;> cases h <;> simp_all <;> decide

/-- `json_write_escaped` of `plumos_library_scan.c` and of `plumos_text_ui.c`. -/
def jsonWriteEscaped (s : CString) : CString := quoted (escaped jsonWriteTable s)

/-- `fprint_json_string`. -/
def fprintJsonString (s : CString) : CString := quoted (escaped fprintTable s)

/-- Lines of a list, with a comma behind all but the last. -/
def listLines : List CString → CString
  | [] => []
  | [line] => line ++ lit "\n"
  | line :: next :: lines => line ++ lit ",\n" ++ listLines (next :: lines)

section Codec

variable {table : EscapeTable}

/-- What a byte is read back as. -/
def recoded (table : EscapeTable) (c : UInt8) : CString :=
  if c < 0x20 ∧ table.letter c = none then 0x75 :: hexByte c else [c]

/-- What a string is read back as. -/
def reread (table : EscapeTable) (s : CString) : CString := s.flatMap (recoded table)

/-- The control characters of a string that have a letter. -/
def Lettered (table : EscapeTable) (s : CString) : Prop :=
  ∀ c ∈ s, c < 0x20 → (table.letter c).isSome

instance (table : EscapeTable) (s : CString) : Decidable (Lettered table s) :=
  inferInstanceAs (Decidable (∀ c ∈ s, _))

theorem hexByte_plain {c : UInt8} (hc : c < 0x20) {d : UInt8} (hd : d ∈ hexByte c) :
    d ≠ jsonQuote ∧ d ≠ jsonEscape ∧ d ≠ 0 := by
  have hall : ∀ n < 32, (hexByte (UInt8.ofNat n)).all
      (fun d => decide (d ≠ jsonQuote ∧ d ≠ jsonEscape ∧ d ≠ 0)) := by
    decide +kernel
  have hbyte := hall c.toNat (UInt8.lt_iff_toNat_lt.mp hc)
  rw [UInt8.ofNat_toNat] at hbyte
  exact of_decide_eq_true (List.all_eq_true.mp hbyte d hd)

theorem stringBody_plain {t : CString}
    (h : ∀ c ∈ t, c ≠ jsonQuote ∧ c ≠ jsonEscape ∧ c ≠ 0) (rest : CString) :
    stringBody false (t ++ rest) = (stringBody false rest).map fun r => (t ++ r.1, r.2) := by
  induction t with
  | nil => simp
  | cons c t ih =>
    obtain ⟨hquote, hescape, -⟩ := h c List.mem_cons_self
    rw [List.cons_append, stringBody, if_neg hquote, if_neg hescape,
      ih fun d hd => h d (List.mem_cons_of_mem _ hd), Option.map_map]
    rfl

theorem stringBody_pair (c : UInt8) (rest : CString) :
    stringBody false (jsonEscape :: c :: rest) =
      (stringBody false rest).map fun r => (unescaped c :: r.1, r.2) := by
  have hne : jsonEscape ≠ jsonQuote := by decide
  rw [stringBody, if_neg hne, if_pos rfl, stringBody]

theorem unescaped_marks : unescaped jsonQuote = jsonQuote ∧ unescaped jsonEscape = jsonEscape := by
  decide

theorem stringBody_escapeByte (c : UInt8) (rest : CString) :
    stringBody false (escapeByte table c ++ rest) =
      (stringBody false rest).map fun r => (recoded table c ++ r.1, r.2) := by
  unfold escapeByte recoded
  by_cases hmark : c = jsonQuote ∨ c = jsonEscape
  · have hlarge : ¬c < 0x20 := by
      rcases hmark with rfl | rfl <;> decide
    have hsame : unescaped c = c := by
      rcases hmark with rfl | rfl
      · exact unescaped_marks.1
      · exact unescaped_marks.2
    simp only [hmark, if_true, hlarge, false_and, if_false]
    show stringBody false (jsonEscape :: c :: rest) = _
    rw [stringBody_pair, hsame]
    rfl
  · rw [if_neg hmark]
    cases hletter : table.letter c with
    | some l =>
      simp only [reduceCtorEq, and_false, if_false]
      show stringBody false (jsonEscape :: l :: rest) = _
      rw [stringBody_pair, (table.reads c l hletter).2]
      rfl
    | none =>
      by_cases hcontrol : c < 0x20
      · simp only [hcontrol, if_true, and_self]
        show stringBody false (jsonEscape :: 0x75 :: (hexByte c ++ rest)) = _
        rw [stringBody_pair, stringBody_plain fun d hd => hexByte_plain hcontrol hd,
          Option.map_map]
        rfl
      · simp only [hcontrol, if_false, false_and]
        rw [not_or] at hmark
        show stringBody false (c :: rest) = _
        rw [stringBody, if_neg hmark.1, if_neg hmark.2]
        rfl

theorem stringBody_escaped (s rest : CString) :
    stringBody false (escaped table s ++ jsonQuote :: rest) = some (reread table s, rest) := by
  induction s with
  | nil => rfl
  | cons c s ih =>
    have hcons : escaped table (c :: s) = escapeByte table c ++ escaped table s :=
      List.flatMap_cons
    rw [hcons, List.append_assoc, stringBody_escapeByte, ih]
    rfl

theorem escaped_escapeByte {c : UInt8} (hnul : c ≠ 0) : Escaped (escapeByte table c) := by
  unfold escapeByte
  by_cases hmark : c = jsonQuote ∨ c = jsonEscape
  · rw [if_pos hmark]
    exact .pair hnul .nil
  · rw [if_neg hmark]
    cases hletter : table.letter c with
    | some l => exact .pair (table.reads c l hletter).1 .nil
    | none =>
      by_cases hcontrol : c < 0x20
      · simp only [hcontrol, if_true]
        apply Escaped.pair (by decide)
        have hplain := fun d hd => @hexByte_plain c hcontrol d hd
        revert hplain
        generalize hexByte c = t
        intro hplain
        induction t with
        | nil => exact .nil
        | cons d t ih =>
          obtain ⟨hquote, hescape, hnul⟩ := hplain d List.mem_cons_self
          exact .plain hquote hescape hnul (ih fun e he => hplain e (List.mem_cons_of_mem _ he))
      · simp only [hcontrol, if_false]
        rw [not_or] at hmark
        exact .plain hmark.1 hmark.2 hnul .nil

theorem escaped_escaped {s : CString} (hnul : 0 ∉ s) : Escaped (escaped table s) := by
  induction s with
  | nil => exact .nil
  | cons c s ih =>
    rw [List.mem_cons, not_or] at hnul
    exact escaped_append (escaped_escapeByte (Ne.symm hnul.1)) (ih hnul.2)

variable {size : ℕ} [NeZero size]

/-- What `json_decode_string` makes of a written string. -/
theorem jsonDecodeString_quoted (s rest : CString) :
    jsonDecodeString size (quoted (escaped table s) ++ rest) =
      .found (.cut (reread table s)) rest := by
  have hopen : quoted (escaped table s) ++ rest =
      jsonQuote :: (escaped table s ++ jsonQuote :: rest) := by
    simp [quoted]
  rw [hopen, jsonDecodeString, if_pos rfl, stringBody_escaped]

theorem lettered_cons {c : UInt8} {s : CString} :
    Lettered table (c :: s) ↔ recoded table c = [c] ∧ Lettered table s := by
  unfold Lettered recoded
  rw [List.forall_mem_cons]
  apply and_congr_left'
  cases hletter : table.letter c with
  | some l => simp
  | none =>
    by_cases hcontrol : c < 0x20
    · simp [hcontrol, hexByte]
    · simp [hcontrol]

theorem reread_eq {s : CString} (h : Lettered table s) : reread table s = s := by
  induction s with
  | nil => rfl
  | cons c s ih =>
    obtain ⟨hc, hs⟩ := lettered_cons.mp h
    have hcons : reread table (c :: s) = recoded table c ++ reread table s := List.flatMap_cons
    rw [hcons, hc, ih hs]
    rfl

theorem lettered_of_prefix {s : CString} (h : s <+: reread table s) : Lettered table s := by
  induction s with
  | nil => exact fun _ hc => absurd hc List.not_mem_nil
  | cons c s ih =>
    have hcons : reread table (c :: s) = recoded table c ++ reread table s := List.flatMap_cons
    rw [hcons] at h
    by_cases hcontrol : c < 0x20 ∧ table.letter c = none
    · have hrecoded : recoded table c = 0x75 :: hexByte c := if_pos hcontrol
      rw [hrecoded] at h
      rw [(List.cons_prefix_cons.mp h).1] at hcontrol
      revert hcontrol
      simp
    · have hrecoded : recoded table c = [c] := if_neg hcontrol
      rw [hrecoded] at h
      exact lettered_cons.mpr ⟨hrecoded, ih (List.cons_prefix_cons.mp h).2⟩

theorem cut_reread_iff (b : Buffer size) :
    Buffer.cut (reread table b.text) = b ↔ Lettered table b.text := by
  have hfits := b.fits
  constructor
  · intro h
    have htext : ((reread table b.text).take (size - 1)).takeWhile (· ≠ 0) = b.text :=
      congrArg Buffer.text h
    apply lettered_of_prefix
    conv_lhs => rw [← htext]
    exact (List.takeWhile_prefix _).trans (List.take_prefix _ _)
  · intro h
    apply Buffer.eq_of_text
    show ((reread table b.text).take (size - 1)).takeWhile (· ≠ 0) = b.text
    rw [reread_eq h, List.take_of_length_le (by omega), List.takeWhile_eq_self_iff]
    intro c hc
    simpa using fun heq : c = 0 => b.noNul (heq ▸ hc)

end Codec

section Documents

/-- What stands around and between the fields of an object. -/
structure Layout where
  before : CString
  separator : CString
  behind : CString
  before_blank : before.all isSpace = true
  separator_comma : separator.head? = some 0x2c
  separator_blank : separator.tail.all isSpace = true
  behind_blank : behind.all isSpace = true

/-- An object on one line. -/
def oneLine : Layout where
  before := lit " "
  separator := lit ", "
  behind := lit " "
  before_blank := by decide
  separator_comma := by decide
  separator_blank := by decide
  behind_blank := by decide

/-- The body of an object. -/
def objectBody (layout : Layout) (fields : List (CString × CString)) : CString :=
  layout.before ++ joinFields layout.separator fields ++ layout.behind

/-- An object. -/
def objectText (layout : Layout) (fields : List (CString × CString)) : CString :=
  braced (objectBody layout fields)

theorem isSpace_plain {c : UInt8} (h : isSpace c = true) :
    c ≠ jsonQuote ∧ c ≠ 0 ∧ isKeyByte c = false := by
  have hall : ∀ n < 256, isSpace (UInt8.ofNat n) = true →
      UInt8.ofNat n ≠ jsonQuote ∧ UInt8.ofNat n ≠ 0 ∧ isKeyByte (UInt8.ofNat n) = false := by
    decide +kernel
  have hbyte := hall c.toNat c.toNat_lt
  rw [UInt8.ofNat_toNat] at hbyte
  exact hbyte h

theorem blank_plain {s : CString} (h : s.all isSpace = true) : ∀ c ∈ s, c ≠ jsonQuote ∧ c ≠ 0 := by
  intro c hc
  have hspace := isSpace_plain (List.all_eq_true.mp h c hc)
  exact ⟨hspace.1, hspace.2.1⟩

theorem Layout.separator_eq (layout : Layout) :
    layout.separator = 0x2c :: layout.separator.tail :=
  (List.cons_head?_tail layout.separator_comma).symm

theorem Layout.separator_ends (layout : Layout) : endsValue layout.separator = true := by
  have hplain : ∀ c ∈ layout.separator, c ≠ jsonQuote ∧ c ≠ 0 := by
    rw [layout.separator_eq]
    intro c hc
    rcases List.mem_cons.mp hc with rfl | hc
    · decide
    · exact blank_plain layout.separator_blank c hc
  have hskip : skipWsRange layout.separator = layout.separator := by
    rw [layout.separator_eq]
    rfl
  have hcomma : isKeyByte 0x2c = false := by decide
  have hcolon : (0x2c : UInt8) ≠ jsonColon := by decide
  simp only [endsValue, Bool.and_eq_true, List.all_eq_true, decide_eq_true_eq]
  refine ⟨⟨hplain, ?_⟩, ?_⟩
  · simp [layout.separator_comma, hcomma]
  · rw [hskip]
    simp [layout.separator_comma, hcolon]

theorem Layout.behind_ends (layout : Layout) :
    endsValue (layout.behind ++ [closeBrace]) = true := by
  have hbrace : closeBrace ≠ jsonQuote ∧ closeBrace ≠ 0 ∧ isKeyByte closeBrace = false ∧
      isSpace closeBrace = false ∧ closeBrace ≠ jsonColon := by
    decide
  simp only [endsValue, Bool.and_eq_true, List.all_eq_true, decide_eq_true_eq]
  refine ⟨⟨?_, ?_⟩, ?_⟩
  · intro c hc
    rcases List.mem_append.mp hc with hc | hc
    · exact blank_plain layout.behind_blank c hc
    · rw [List.mem_singleton.mp hc]
      exact ⟨hbrace.1, hbrace.2.1⟩
  · cases hbehind : layout.behind with
    | nil => simp [hbrace]
    | cons c behind =>
      have hblank := layout.behind_blank
      rw [hbehind, List.all_cons, Bool.and_eq_true] at hblank
      simp [(isSpace_plain hblank.1).2.2]
  · have hskip : skipWsRange (layout.behind ++ [closeBrace]) = [closeBrace] := by
      unfold skipWsRange
      rw [List.dropWhile_append_of_pos (List.all_eq_true.mp layout.behind_blank),
        List.dropWhile_cons_of_neg (by simp [hbrace])]
    rw [hskip]
    simp [hbrace]

theorem zero_notMem_of_escaped {s : CString} (hs : Escaped s) : 0 ∉ s := by
  induction hs with
  | nil => exact List.not_mem_nil
  | plain _ _ hnul _ ih => simp [Ne.symm hnul, ih]
  | pair hnul _ ih =>
    have hescape : (0 : UInt8) ≠ jsonEscape := by decide
    simp [Ne.symm hnul, ih, hescape]

theorem zero_notMem_quoted {s : CString} (hs : Escaped s) : 0 ∉ quoted s := by
  have hquote : (0 : UInt8) ≠ jsonQuote := by decide
  simp [quoted, hquote, zero_notMem_of_escaped hs]

variable {table : EscapeTable}

theorem passes_string {key k s : CString} (hkey : isKey key = true) (hk : isKey k = true)
    (hne : k ≠ key) (hnul : 0 ∉ s) : Passes key (k, quoted (escaped table s)) where
  isKey := hk
  ne := hne
  value _ hending := skips_value (escaped_escaped hnul) hkey hending

/-- A bracket that is no part of a layout. -/
def isBracket (c : UInt8) : Bool := !isSpace c && c ≠ 0x2c && c ≠ jsonColon

variable {layout : Layout}

theorem ne_of_isSpace {c d : UInt8} (hc : isSpace c = true) (hd : isBracket d = true) : c ≠ d := by
  rintro rfl
  simp [isBracket, hc] at hd

theorem neutral_blank {opening closing : UInt8} (hopening : isBracket opening = true)
    (hclosing : isBracket closing = true) {s : CString} (hs : s.all isSpace = true) :
    ∀ c ∈ s, c ≠ jsonQuote ∧ c ≠ opening ∧ c ≠ closing := by
  intro c hc
  have hspace := List.all_eq_true.mp hs c hc
  exact ⟨(isSpace_plain hspace).1, ne_of_isSpace hspace hopening, ne_of_isSpace hspace hclosing⟩

theorem neutral_objectBody {opening closing : UInt8} {fields : List (CString × CString)}
    (hopening : isBracket opening = true) (hclosing : isBracket closing = true)
    (hfields : ∀ f ∈ fields, isKey f.1 = true ∧ Neutral opening closing f.2) :
    Neutral opening closing (objectBody layout fields) := by
  have hmark : ∀ d, isBracket d = true → (0x2c : UInt8) ≠ d ∧ jsonColon ≠ d := by
    intro d hd
    simp only [isBracket, Bool.and_eq_true, decide_eq_true_eq] at hd
    exact ⟨fun h => hd.1.2 h.symm, fun h => hd.2 h.symm⟩
  have hcolon : ∀ c ∈ lit ": ", c ≠ jsonQuote ∧ c ≠ opening ∧ c ≠ closing := by
    intro c hc
    have hcases : ∀ c ∈ lit ": ", c = jsonColon ∨ isSpace c = true := by
      have hall : (lit ": ").all (fun c => c == jsonColon || isSpace c) = true := rfl
      simpa using hall
    rcases hcases c hc with rfl | hspace
    · exact ⟨by decide, (hmark _ hopening).2, (hmark _ hclosing).2⟩
    · exact neutral_blank hopening hclosing (by simpa using hspace) c (List.mem_singleton.mpr rfl)
  have hseparator : ∀ c ∈ layout.separator, c ≠ jsonQuote ∧ c ≠ opening ∧ c ≠ closing := by
    rw [layout.separator_eq]
    intro c hc
    rcases List.mem_cons.mp hc with rfl | hc
    · exact ⟨by decide, (hmark _ hopening).1, (hmark _ hclosing).1⟩
    · exact neutral_blank hopening hclosing layout.separator_blank c hc
  exact neutral_append (neutral_append
    (neutral_plain (neutral_blank hopening hclosing layout.before_blank))
    (neutral_joinFields hcolon hseparator hfields))
    (neutral_plain (neutral_blank hopening hclosing layout.behind_blank))

theorem exists_find_objectBody {key value : CString} {before after : List (CString × CString)}
    (hkey : isKey key = true) (hbefore : ∀ f ∈ before, Passes key f) (ending : CString) :
    ∃ rest, jsonFindKeyValue key (objectBody layout (before ++ (key, value) :: after) ++ ending) =
      some (skipWsRange (value ++ rest)) := by
  obtain ⟨rest, hrest⟩ := @exists_jsonFindKeyValue key layout.separator hkey
    layout.separator_ends before after value hbefore (layout.behind ++ ending)
  refine ⟨rest, ?_⟩
  unfold objectBody
  rw [List.append_assoc, List.append_assoc, skips_plain (blank_plain layout.before_blank), hrest]

theorem objectText_append (layout : Layout) (fields : List (CString × CString))
    (ending : CString) : objectText layout fields ++ ending =
      [openBrace] ++ (objectBody layout fields ++ (closeBrace :: ending)) := by
  simp [objectText, braced]

theorem exists_find_objectText {key value : CString} {before after : List (CString × CString)}
    (hkey : isKey key = true) (hbefore : ∀ f ∈ before, Passes key f) (ending : CString) :
    ∃ rest, jsonFindKeyValue key (objectText layout (before ++ (key, value) :: after) ++ ending) =
      some (skipWsRange (value ++ rest)) := by
  rw [objectText_append, skips_plain (unquoted (by rfl))]
  exact exists_find_objectBody hkey hbefore _

theorem objectText_eq (layout : Layout) (fields : List (CString × CString)) :
    objectText layout fields = ([openBrace] ++ layout.before) ++
      (joinFields layout.separator fields ++ (layout.behind ++ [closeBrace])) := by
  simp [objectText, objectBody, braced]

theorem skips_before (key : CString) : Skips key ([openBrace] ++ layout.before) :=
  skips_append (skips_plain (unquoted rfl)) (skips_plain (blank_plain layout.before_blank))

theorem skips_objectText {key : CString} {fields : List (CString × CString)}
    (hkey : isKey key = true) (hfields : ∀ f ∈ fields, Passes key f) :
    Skips key (objectText layout fields) := by
  rw [objectText_eq]
  exact skips_append (skips_before key)
    (skips_joinFields hkey layout.separator_ends hfields layout.behind_ends)

theorem find_objectText_last {key k value : CString} {before : List (CString × CString)}
    (hkey : isKey key = true) (hbefore : ∀ f ∈ before, Passes key f) (hk : isKey k = true)
    (hne : k ≠ key) : jsonFindKeyValue key (objectText layout (before ++ [(k, value)])) =
      jsonFindKeyValue key (value ++ (layout.behind ++ [closeBrace])) := by
  have hjoin : ∀ ending, jsonFindKeyValue key
      (joinFields layout.separator (before ++ [(k, value)]) ++ ending) =
        jsonFindKeyValue key (value ++ ending) := by
    intro ending
    induction before with
    | nil =>
      have hfield : joinFields layout.separator ([] ++ [(k, value)]) ++ ending =
          (quoted k ++ lit ": ") ++ (value ++ ending) := by
        simp [joinFields, fieldText]
      rw [hfield, skips_key hk hkey hne]
    | cons f before ih =>
      have hrest := ih fun g hg => hbefore g (List.mem_cons_of_mem _ hg)
      rw [List.cons_append, joinFields_cons _ _ _ (by simp), List.append_assoc,
        skips_fieldText hkey (hbefore f List.mem_cons_self) layout.separator_ends, hrest]
  rw [objectText_eq, skips_before, hjoin]

variable {size : ℕ} [NeZero size]

theorem skipWsRange_quoted (s rest : CString) : skipWsRange (quoted s ++ rest) = quoted s ++ rest :=
  rfl

theorem jsonGetString_objectText {key s : CString} {before after : List (CString × CString)}
    (hkey : isKey key = true) (hbefore : ∀ f ∈ before, Passes key f) (old : Buffer size) :
    (jsonGetString size key
      (objectText layout (before ++ (key, quoted (escaped table s)) :: after))).into old =
      .cut (reread table s) := by
  obtain ⟨rest, hrest⟩ := @exists_find_objectText layout key (quoted (escaped table s)) before after
    hkey hbefore []
  rw [List.append_nil] at hrest
  unfold jsonGetString
  rw [hrest, skipWsRange_quoted]
  simp only [jsonDecodeString_quoted]
  rfl

theorem TextUi.jsonGetString_eq {key text s rest : CString}
    (h : jsonFindKeyValue key text = some (quoted s ++ rest)) :
    TextUi.jsonGetString size key text = Frontend.jsonGetString size key text := by
  have hnull : ¬lit "null" <+: quoted s ++ rest := by
    intro hprefix
    have hhead : quoted s ++ rest = jsonQuote :: (s ++ [jsonQuote] ++ rest) := rfl
    have hlit : lit "null" = 0x6e :: lit "ull" := rfl
    rw [hhead, hlit] at hprefix
    exact absurd (List.cons_prefix_cons.mp hprefix).1 (by decide)
  unfold TextUi.jsonGetString Frontend.jsonGetString
  simp only [h, hnull, if_false]

theorem TextUi.jsonGetString_objectText {key s : CString} {before after : List (CString × CString)}
    (hkey : isKey key = true) (hbefore : ∀ f ∈ before, Passes key f) (old : Buffer size) :
    (TextUi.jsonGetString size key
      (objectText layout (before ++ (key, quoted (escaped table s)) :: after))).into old =
      .cut (reread table s) := by
  obtain ⟨rest, hrest⟩ := @exists_find_objectText layout key (quoted (escaped table s)) before after
    hkey hbefore []
  rw [skipWsRange_quoted, List.append_nil] at hrest
  rw [TextUi.jsonGetString_eq hrest, Frontend.jsonGetString_objectText hkey hbefore]

/-- Fields whose values are strings. -/
def stringFields (table : EscapeTable) (l : List (CString × CString)) : List (CString × CString) :=
  l.map fun f => (f.1, quoted (escaped table f.2))

/-- Different keys, and strings without a NUL. -/
structure Keyed (l : List (CString × CString)) : Prop where
  isKey : ∀ f ∈ l, isKey f.1 = true
  nodup : (l.map Prod.fst).Nodup
  noNul : ∀ f ∈ l, 0 ∉ f.2

theorem Keyed.passes {l : List (CString × CString)} (hl : Keyed l) {key : CString}
    (hkey : Frontend.isKey key = true) (hne : key ∉ l.map Prod.fst) :
    ∀ f ∈ stringFields table l, Passes key f := by
  intro f hf
  obtain ⟨g, hg, rfl⟩ := List.mem_map.mp hf
  apply passes_string hkey (hl.isKey g hg)
  · intro heq
    exact hne (List.mem_map.mpr ⟨g, hg, heq⟩)
  · exact hl.noNul g hg

theorem Keyed.exists_split {l : List (CString × CString)} (hl : Keyed l) {key s : CString}
    (hmem : (key, s) ∈ l) :
    ∃ before after, l = before ++ (key, s) :: after ∧
      ∀ f ∈ stringFields table before, Passes key f := by
  obtain ⟨before, after, rfl⟩ := List.append_of_mem hmem
  have hnodup := hl.nodup
  rw [List.map_append, List.map_cons] at hnodup
  refine ⟨before, after, rfl, ?_⟩
  have hbefore : Keyed before := {
    isKey := fun f hf => hl.isKey f (List.mem_append_left _ hf)
    nodup := (List.nodup_append.mp hnodup).1
    noNul := fun f hf => hl.noNul f (List.mem_append_left _ hf) }
  apply hbefore.passes (hl.isKey _ hmem)
  intro hkey
  exact (List.nodup_append.mp hnodup).2.2 _ hkey _ List.mem_cons_self rfl

theorem jsonGetString_stringFields {l more : List (CString × CString)} (hl : Keyed l)
    {key s : CString} (hmem : (key, s) ∈ l) (old : Buffer size) :
    (jsonGetString size key (objectText layout (stringFields table l ++ more))).into old =
      .cut (reread table s) := by
  obtain ⟨before, after, rfl, hbefore⟩ := @Keyed.exists_split table l hl key s hmem
  have hsplit : stringFields table (before ++ (key, s) :: after) ++ more =
      stringFields table before ++ (key, quoted (escaped table s)) ::
        (stringFields table after ++ more) := by
    simp [stringFields]
  rw [hsplit, jsonGetString_objectText (hl.isKey _ hmem) hbefore]

theorem TextUi.jsonGetString_stringFields {l more : List (CString × CString)} (hl : Keyed l)
    {key s : CString} (hmem : (key, s) ∈ l) (old : Buffer size) :
    (TextUi.jsonGetString size key (objectText layout (stringFields table l ++ more))).into old =
      .cut (reread table s) := by
  obtain ⟨before, after, rfl, hbefore⟩ := @Keyed.exists_split table l hl key s hmem
  have hsplit : stringFields table (before ++ (key, s) :: after) ++ more =
      stringFields table before ++ (key, quoted (escaped table s)) ::
        (stringFields table after ++ more) := by
    simp [stringFields]
  rw [hsplit, TextUi.jsonGetString_objectText (hl.isKey _ hmem) hbefore]

theorem jsonFindArray_of_find {key s t rest : CString}
    (h : jsonFindKeyValue key s = some (openBracket :: t ++ closeBracket :: rest))
    (ht : Neutral openBracket closeBracket t) : jsonFindArray key s = some t := by
  unfold jsonFindArray
  rw [h, Option.bind_some, jsonMatchContainer_neutral (by decide) (by decide) ht]
  rfl

theorem neutral_listLines {opening closing : UInt8}
    (hmarks : ∀ c ∈ lit ",\n", c ≠ jsonQuote ∧ c ≠ opening ∧ c ≠ closing) {lines : List CString}
    (hlines : ∀ line ∈ lines, Neutral opening closing line) :
    Neutral opening closing (listLines lines) := by
  have hsub : ∀ s ⊆ lit ",\n", ∀ c ∈ s, c ≠ jsonQuote ∧ c ≠ opening ∧ c ≠ closing :=
    fun s hs c hc => hmarks c (hs hc)
  induction lines with
  | nil => exact neutral_plain (by simp [listLines])
  | cons line lines ih =>
    have hline := hlines line List.mem_cons_self
    cases lines with
    | nil => exact neutral_append hline (neutral_plain (hsub _ (by decide)))
    | cons next lines =>
      exact neutral_append (neutral_append hline (neutral_plain hmarks))
        (ih fun l hl => hlines l (List.mem_cons_of_mem _ hl))

theorem jsonObjects_listLines {bodies : List CString} {indent ending : CString}
    (hindent : openBrace ∉ indent) (hending : openBrace ∉ ending)
    (hbodies : ∀ body ∈ bodies, Neutral openBrace closeBrace body) :
    ∀ {gap : CString}, openBrace ∉ gap →
      jsonObjects (gap ++ listLines (bodies.map fun body => indent ++ braced body) ++ ending) =
        bodies.map braced := by
  have hmarks : openBrace ∉ lit ",\n" ∧ openBrace ∉ lit "\n" := by decide
  induction bodies with
  | nil =>
    intro gap hgap
    exact jsonObjects_none (by simp [listLines, hgap, hending])
  | cons body bodies ih =>
    intro gap hgap
    have hbody := hbodies body List.mem_cons_self
    have hstart : openBrace ∉ gap ++ indent := by simp [hgap, hindent]
    cases bodies with
    | nil =>
      have happend : gap ++ listLines ([body].map fun body => indent ++ braced body) ++ ending =
          (gap ++ indent) ++ braced body ++ (lit "\n" ++ ending) := by
        simp [listLines]
      rw [happend, jsonObjects_braced hstart hbody,
        jsonObjects_none (by simp [hmarks.2, hending])]
      rfl
    | cons next bodies =>
      have hrest := ih (fun b hb => hbodies b (List.mem_cons_of_mem _ hb)) hmarks.1
      have happend : gap ++ listLines ((body :: next :: bodies).map fun body =>
            indent ++ braced body) ++ ending =
          (gap ++ indent) ++ braced body ++ (lit ",\n" ++
            listLines ((next :: bodies).map fun body => indent ++ braced body) ++ ending) := by
        simp [listLines]
      rw [happend, jsonObjects_braced hstart hbody, hrest]
      rfl

/-- A document of a version and one list of objects under a name. -/
def versionedList (name : CString) (lines : List CString) : CString :=
  lit "\x7b\n  \"version\": 1,\n  \"" ++ name ++ lit "\": [\n" ++ listLines lines ++
    lit "  ]\n\x7d\n"

theorem neutral_brackets_braced {t : CString} (ht : Neutral openBracket closeBracket t) :
    Neutral openBracket closeBracket (braced t) := by
  have hopen : Neutral openBracket closeBracket [openBrace] := neutral_plain (unmarked rfl)
  have hclose : Neutral openBracket closeBracket [closeBrace] := neutral_plain (unmarked rfl)
  exact neutral_append (neutral_append hopen ht) hclose

theorem objects_versionedList {name : CString} (hname : isKey name = true)
    (hversion : lit "version" ≠ name) {bodies : List CString}
    (hbraces : ∀ body ∈ bodies, Neutral openBrace closeBrace body)
    (hbrackets : ∀ body ∈ bodies, Neutral openBracket closeBracket body) :
    (jsonFindArray name
      (versionedList name (bodies.map fun body => lit "    " ++ braced body))).map jsonObjects =
        some (bodies.map braced) := by
  have hend : lit "  ]\n\x7d\n" = lit "  " ++ closeBracket :: lit "\n\x7d\n" := rfl
  have hlines : Neutral openBracket closeBracket
      (listLines (bodies.map fun body => lit "    " ++ braced body)) := by
    apply neutral_listLines (unmarked rfl)
    intro line hline
    obtain ⟨body, hbody, rfl⟩ := List.mem_map.mp hline
    exact neutral_append (neutral_plain (unmarked rfl))
      (neutral_brackets_braced (hbrackets body hbody))
  have hbody : Neutral openBracket closeBracket (lit "\n" ++
      listLines (bodies.map fun body => lit "    " ++ braced body) ++ lit "  ") :=
    neutral_append (neutral_append (neutral_plain (unmarked rfl)) hlines)
      (neutral_plain (unmarked rfl))
  have hskip : Skips name
      (openBrace :: lit "\n  " ++ (quoted (lit "version") ++ lit ": ") ++ lit "1,\n  ") :=
    skips_append (skips_append (skips_plain (unquoted rfl))
      (skips_key (by decide) hname hversion)) (skips_plain (unquoted rfl))
  have hfind := hskip (quoted name ++ lit ": " ++ (openBracket :: (lit "\n" ++
    listLines (bodies.map fun body => lit "    " ++ braced body) ++ lit "  ") ++
      closeBracket :: lit "\n\x7d\n"))
  rw [jsonFindKeyValue_key] at hfind
  have hstart : lit "\x7b\n  \"version\": 1,\n  \"" =
      openBrace :: lit "\n  " ++ (quoted (lit "version") ++ lit ": ") ++ lit "1,\n  " ++
        [jsonQuote] := rfl
  have hopen : lit "\": [\n" = [jsonQuote] ++ (lit ": " ++ openBracket :: lit "\n") := rfl
  have hdoc : versionedList name (bodies.map fun body => lit "    " ++ braced body) =
      openBrace :: lit "\n  " ++ (quoted (lit "version") ++ lit ": ") ++ lit "1,\n  " ++
        (quoted name ++ lit ": " ++ (openBracket :: (lit "\n" ++
          listLines (bodies.map fun body => lit "    " ++ braced body) ++ lit "  ") ++
            closeBracket :: lit "\n\x7d\n")) := by
    have hquoted : quoted name = [jsonQuote] ++ name ++ [jsonQuote] := rfl
    unfold versionedList
    rw [hstart, hend, hopen, hquoted]
    simp only [List.append_assoc, List.cons_append, List.nil_append]
  rw [hdoc, jsonFindArray_of_find hfind hbody, Option.map_some,
    jsonObjects_listLines (by decide) (by decide) hbraces (by decide)]

end Documents

end PlumosBubble.Frontend
