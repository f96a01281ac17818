import PlumosBubble.Frontend.Json

/-! How the readers of JSON text go over text that was put together from quoted strings and
plain bytes: a key is not found inside of a string, and a string leaves the nesting of
containers alone. -/

namespace PlumosBubble.Frontend

/-- The text of a string: no quote and no backslash in it is bare. -/
inductive Escaped : CString → Prop
  | nil : Escaped []
  | plain {c : UInt8} {s : CString} (hquote : c ≠ jsonQuote) (hescape : c ≠ jsonEscape)
      (hnul : c ≠ 0) (hs : Escaped s) : Escaped (c :: s)
  | pair {c : UInt8} {s : CString} (hnul : c ≠ 0) (hs : Escaped s) :
      Escaped (jsonEscape :: c :: s)

/-- A string between its quotes. -/
def quoted (s : CString) : CString := jsonQuote :: s ++ [jsonQuote]

/-- A byte of the keys that the readers look for. -/
def isKeyByte (c : UInt8) : Bool := (0x61 ≤ c && c ≤ 0x7a) || c = 0x5f || (0x30 ≤ c && c ≤ 0x39)

/-- A key that the readers look for. -/
def isKey (key : CString) : Bool := key ≠ [] && key.all isKeyByte

/-- What may stand behind a value: no quote, no part of a key, and no colon at first. -/
def endsValue (s : CString) : Bool :=
  (s.all fun c => c ≠ jsonQuote && c ≠ 0) && (s.head?.any fun c => !isKeyByte c) &&
    (skipWsRange s).head?.any (· ≠ jsonColon)

theorem isKeyByte_ne {c : UInt8} (h : isKeyByte c = true) :
    c ≠ jsonQuote ∧ c ≠ jsonEscape ∧ c ≠ 0 := by
  refine ⟨?_, ?_, ?_⟩
  all_goals
    rintro rfl
    revert h
    decide

theorem escaped_append {s t : CString} (hs : Escaped s) (ht : Escaped t) : Escaped (s ++ t) := by
  induction hs with
  | nil => exact ht
  | plain hquote hescape hnul _ ih => exact .plain hquote hescape hnul ih
  | pair hnul _ ih => exact .pair hnul ih

theorem escaped_of_isKey {key : CString} (h : isKey key = true) : Escaped key := by
  simp only [isKey, Bool.and_eq_true, List.all_eq_true] at h
  obtain ⟨-, h⟩ := h
  induction key with
  | nil => exact .nil
  | cons c key ih =>
    obtain ⟨hquote, hescape, hnul⟩ := isKeyByte_ne (h c List.mem_cons_self)
    exact .plain hquote hescape hnul (ih fun d hd => h d (List.mem_cons_of_mem _ hd))

section Find

variable {key : CString}

theorem afterStart_append (start s : CString) : afterStart start (start ++ s) = some s := by
  simp [afterStart]

theorem jsonFindKeyValue_cons {c : UInt8} {s : CString} (hnul : c ≠ 0)
    (h : (afterStart (keyPattern key) (c :: s)).bind afterColon = none) :
    jsonFindKeyValue key (c :: s) = jsonFindKeyValue key s := by
  rw [jsonFindKeyValue, if_neg hnul, h]

theorem jsonFindKeyValue_plain {c : UInt8} {s : CString} (hquote : c ≠ jsonQuote) (hnul : c ≠ 0) :
    jsonFindKeyValue key (c :: s) = jsonFindKeyValue key s := by
  apply jsonFindKeyValue_cons hnul
  have hstart : ¬keyPattern key <+: c :: s := by
    intro h
    exact hquote (List.cons_prefix_cons.mp h).1.symm
  simp [afterStart, hstart]

theorem eq_of_prefix {s rest : CString} (hs : Escaped s) (hkey : key.all isKeyByte = true)
    (h : key ++ [jsonQuote] <+: s ++ jsonQuote :: rest) : s = key := by
  induction hs generalizing key with
  | nil =>
    cases key with
    | nil => rfl
    | cons k key =>
      rw [List.all_cons, Bool.and_eq_true] at hkey
      exact absurd (List.cons_prefix_cons.mp h).1 (isKeyByte_ne hkey.1).1
  | plain hquote hescape _ _ ih =>
    cases key with
    | nil => exact absurd (List.cons_prefix_cons.mp h).1.symm hquote
    | cons k key =>
      rw [List.all_cons, Bool.and_eq_true] at hkey
      obtain ⟨heq, hrest⟩ := List.cons_prefix_cons.mp h
      rw [ih hkey.2 hrest, heq]
  | pair _ _ _ =>
    cases key with
    | nil =>
      have hmarks : jsonQuote ≠ jsonEscape := by decide
      exact absurd (List.cons_prefix_cons.mp h).1 hmarks
    | cons k key =>
      rw [List.all_cons, Bool.and_eq_true] at hkey
      exact absurd (List.cons_prefix_cons.mp h).1 (isKeyByte_ne hkey.1).2.1

theorem isKey_all (hkey : isKey key = true) : key.all isKeyByte = true := by
  simp only [isKey, Bool.and_eq_true] at hkey
  exact hkey.2

theorem bind_afterColon {s rest value : CString} (hs : Escaped s) (hkey : isKey key = true)
    (h : (afterStart (keyPattern key) (jsonQuote :: (s ++ jsonQuote :: rest))).bind afterColon =
      some value) : s = key ∧ afterColon rest = some value := by
  unfold afterStart at h
  split_ifs at h with hstart
  · have hrest := eq_of_prefix hs (isKey_all hkey) (List.cons_prefix_cons.mp hstart).2
    have hdrop : (jsonQuote :: (s ++ jsonQuote :: rest)).drop (keyPattern key).length = rest := by
      rw [hrest]
      have happend : jsonQuote :: (key ++ jsonQuote :: rest) = keyPattern key ++ rest := by
        simp [keyPattern]
      rw [happend, List.drop_left]
    rw [hdrop] at h
    exact ⟨hrest, h⟩
  · cases h

theorem jsonFindKeyValue_text {s rest : CString} (hs : Escaped s) (hkey : isKey key = true)
    (h : afterColon rest = none ∨ jsonQuote ∉ s) :
    jsonFindKeyValue key (s ++ jsonQuote :: rest) = jsonFindKeyValue key (jsonQuote :: rest) := by
  induction hs with
  | nil => rfl
  | @plain c s hquote hescape hnul _ ih =>
    rw [List.cons_append, jsonFindKeyValue_plain hquote hnul]
    exact ih (h.imp_right fun h => fun hmem => h (List.mem_cons_of_mem _ hmem))
  | @pair c s hnul hs ih =>
    have hmarks : jsonEscape ≠ jsonQuote ∧ jsonEscape ≠ 0 := by decide
    have hrest : afterColon rest = none ∨ jsonQuote ∉ s :=
      h.imp_right fun h hmem => h (List.mem_cons_of_mem _ (List.mem_cons_of_mem _ hmem))
    rw [List.cons_append, List.cons_append, jsonFindKeyValue_plain hmarks.1 hmarks.2]
    by_cases hquote : c = jsonQuote
    · rw [hquote, jsonFindKeyValue_cons (by decide), ih hrest]
      -- A hit behind an escaped quote would need a colon behind the string.
      cases hfind : (afterStart (keyPattern key) (jsonQuote :: (s ++ jsonQuote :: rest))).bind
          afterColon with
      | none => rfl
      | some value =>
        have hcolon := (bind_afterColon hs hkey hfind).2
        rcases h with hnone | hnot
        · rw [hnone] at hcolon
          cases hcolon
        · exact absurd (by simp [hquote]) hnot
    · rw [jsonFindKeyValue_plain hquote hnul, ih hrest]

theorem jsonFindKeyValue_closing {rest : CString} (hkey : isKey key = true)
    (hrest : ∀ c ∈ rest.head?, isKeyByte c = false) :
    jsonFindKeyValue key (jsonQuote :: rest) = jsonFindKeyValue key rest := by
  apply jsonFindKeyValue_cons (by decide)
  have hstart : ¬keyPattern key <+: jsonQuote :: rest := by
    intro h
    have hprefix := (List.cons_prefix_cons.mp h).2
    simp only [isKey, Bool.and_eq_true, decide_eq_true_eq] at hkey
    cases key with
    | nil => exact hkey.1 rfl
    | cons k key =>
      cases rest with
      | nil => simp at hprefix
      | cons c rest =>
        have hk := hrest c (by simp)
        rw [List.all_cons, Bool.and_eq_true, (List.cons_prefix_cons.mp hprefix).1] at hkey
        rw [hk] at hkey
        simp at hkey
  simp [afterStart, hstart]

theorem jsonFindKeyValue_quoted {s rest : CString} (hs : Escaped s) (hkey : isKey key = true)
    (hrest : ∀ c ∈ rest.head?, isKeyByte c = false)
    (h : afterColon rest = none ∨ (s ≠ key ∧ jsonQuote ∉ s)) :
    jsonFindKeyValue key (quoted s ++ rest) = jsonFindKeyValue key rest := by
  have hopen : quoted s ++ rest = jsonQuote :: (s ++ jsonQuote :: rest) := by simp [quoted]
  rw [hopen, jsonFindKeyValue_cons (by decide),
    jsonFindKeyValue_text hs hkey (h.imp_right And.right), jsonFindKeyValue_closing hkey hrest]
  cases hfind : (afterStart (keyPattern key) (jsonQuote :: (s ++ jsonQuote :: rest))).bind
      afterColon with
  | none => rfl
  | some value =>
    obtain ⟨heq, hcolon⟩ := bind_afterColon hs hkey hfind
    rcases h with hnone | hne
    · rw [hnone] at hcolon
      cases hcolon
    · exact absurd heq hne.1

/-- The search goes over this text. -/
def Skips (key t : CString) : Prop :=
  ∀ rest, jsonFindKeyValue key (t ++ rest) = jsonFindKeyValue key rest

theorem skips_append {t u : CString} (ht : Skips key t) (hu : Skips key u) :
    Skips key (t ++ u) := by
  intro rest
  rw [List.append_assoc, ht, hu]

theorem skips_plain {t : CString} (h : ∀ c ∈ t, c ≠ jsonQuote ∧ c ≠ 0) : Skips key t := by
  intro rest
  induction t with
  | nil => rfl
  | cons c t ih =>
    obtain ⟨hquote, hnul⟩ := h c List.mem_cons_self
    rw [List.cons_append, jsonFindKeyValue_plain hquote hnul]
    exact ih fun d hd => h d (List.mem_cons_of_mem _ hd)

theorem unquoted {t : CString} (h : t.all (fun c => c != jsonQuote && c != 0) = true) :
    ∀ c ∈ t, c ≠ jsonQuote ∧ c ≠ 0 := by
  simpa using h

theorem afterColon_of_endsValue {s : CString} (h : endsValue s = true) (rest : CString) :
    afterColon (s ++ rest) = none := by
  simp only [endsValue, Bool.and_eq_true] at h
  obtain ⟨-, h⟩ := h
  unfold skipWsRange at h
  have hskip : skipWsRange (s ++ rest) = s.dropWhile isSpace ++ rest := by
    unfold skipWsRange
    rw [List.dropWhile_append, if_neg]
    intro hnil
    rw [List.isEmpty_iff.mp hnil] at h
    simp at h
  unfold afterColon
  rw [hskip]
  cases hdrop : s.dropWhile isSpace with
  | nil =>
    rw [hdrop] at h
    simp at h
  | cons c w =>
    rw [hdrop] at h
    simp only [List.head?_cons, Option.any_some, decide_eq_true_eq] at h
    simp [h]

theorem skips_value {s ending : CString} (hs : Escaped s) (hkey : isKey key = true)
    (hending : endsValue ending = true) : Skips key (quoted s ++ ending) := by
  intro rest
  have hplain := hending
  simp only [endsValue, Bool.and_eq_true, List.all_eq_true, decide_eq_true_eq] at hplain
  obtain ⟨⟨hplain, hhead⟩, -⟩ := hplain
  rw [List.append_assoc, jsonFindKeyValue_quoted hs hkey]
  · exact skips_plain hplain rest
  · intro c hc
    cases ending with
    | nil => simp at hhead
    | cons d ending =>
      simp only [List.cons_append, List.head?_cons, Option.mem_def, Option.some.injEq] at hc
      simp only [List.head?_cons, Option.any_some, Bool.not_eq_true'] at hhead
      rw [← hc, hhead]
  · exact Or.inl (afterColon_of_endsValue hending rest)

theorem quote_notMem_of_isKey {k : CString} (hk : isKey k = true) : jsonQuote ∉ k := by
  intro hmem
  exact (isKeyByte_ne (List.all_eq_true.mp (isKey_all hk) _ hmem)).1 rfl

theorem skips_key {k : CString} (hk : isKey k = true) (hkey : isKey key = true) (hne : k ≠ key) :
    Skips key (quoted k ++ lit ": ") := by
  intro rest
  have hcolon : ∀ c ∈ (lit ": " ++ rest).head?, isKeyByte c = false := by
    intro c hc
    have hhead : (lit ": " ++ rest).head? = some jsonColon := rfl
    rw [hhead] at hc
    cases hc
    rfl
  rw [List.append_assoc, jsonFindKeyValue_quoted (escaped_of_isKey hk) hkey hcolon
    (Or.inr ⟨hne, quote_notMem_of_isKey hk⟩)]
  exact skips_plain (unquoted rfl) rest

theorem jsonFindKeyValue_key (key rest : CString) :
    jsonFindKeyValue key (quoted key ++ lit ": " ++ rest) = some (skipWsRange rest) := by
  have hpattern : quoted key ++ lit ": " ++ rest = keyPattern key ++ (lit ": " ++ rest) := by
    simp [quoted, keyPattern]
  have hcolon : afterColon (lit ": " ++ rest) = some (skipWsRange rest) := rfl
  have hopen : keyPattern key ++ (lit ": " ++ rest) =
      jsonQuote :: (key ++ [jsonQuote] ++ (lit ": " ++ rest)) := rfl
  have hnul : jsonQuote ≠ 0 := by decide
  rw [hpattern, hopen, jsonFindKeyValue, if_neg hnul, ← hopen, afterStart_append, Option.bind_some,
    hcolon]

end Find

section Containers

variable {opening closing : UInt8}

theorem containerBody_outside (depth : ℕ) (c : UInt8) (s : CString) :
    containerBody opening closing .outside depth (c :: s) =
      if c = jsonQuote then
        (containerBody opening closing .string depth s).map fun r => (c :: r.1, r.2)
      else if c = opening then
        (containerBody opening closing .outside (depth + 1) s).map fun r => (c :: r.1, r.2)
      else if c = closing then
        match depth with
        | 0 => some ([], s)
        | depth + 1 =>
          (containerBody opening closing .outside depth s).map fun r => (c :: r.1, r.2)
      else (containerBody opening closing .outside depth s).map fun r => (c :: r.1, r.2) := by
  cases depth <;> rfl

theorem containerBody_eq {s body rest : CString} {place : JsonPlace} {depth : ℕ}
    (h : containerBody opening closing place depth s = some (body, rest)) :
    s = body ++ closing :: rest := by
  have hcons : ∀ {place : JsonPlace} {depth : ℕ} {c : UInt8} {s : CString},
      (∀ {place : JsonPlace} {depth : ℕ} {body : CString},
        containerBody opening closing place depth s = some (body, rest) →
          s = body ++ closing :: rest) →
      ∀ {body : CString}, (containerBody opening closing place depth s).map
        (fun r => (c :: r.1, r.2)) = some (body, rest) → c :: s = body ++ closing :: rest := by
    intro place depth c s ih body h
    obtain ⟨r, hr, heq⟩ := Option.map_eq_some_iff.mp h
    cases heq
    rw [ih hr]
    rfl
  induction s generalizing place depth body with
  | nil => cases place <;> simp [containerBody] at h
  | cons c s ih =>
    cases place with
    | escape => exact hcons ih (by simpa only [containerBody] using h)
    | string => exact hcons ih (by simpa only [containerBody] using h)
    | outside =>
      rw [containerBody_outside] at h
      by_cases hquote : c = jsonQuote
      · rw [if_pos hquote] at h
        exact hcons ih h
      · rw [if_neg hquote] at h
        by_cases hopening : c = opening
        · rw [if_pos hopening] at h
          exact hcons ih h
        · rw [if_neg hopening] at h
          by_cases hclosing : c = closing
          · rw [if_pos hclosing] at h
            cases depth with
            | zero =>
              cases h
              rw [hclosing]
              rfl
            | succ depth => exact hcons ih h
          · rw [if_neg hclosing] at h
            exact hcons ih h

/-- The text leaves the nesting of containers as it is. -/
def Neutral (opening closing : UInt8) (t : CString) : Prop :=
  ∀ depth rest, containerBody opening closing .outside depth (t ++ rest) =
    (containerBody opening closing .outside depth rest).map fun r => (t ++ r.1, r.2)

theorem neutral_append {t u : CString} (ht : Neutral opening closing t)
    (hu : Neutral opening closing u) : Neutral opening closing (t ++ u) := by
  intro depth rest
  rw [List.append_assoc, ht, hu, Option.map_map]
  congr 1
  funext r
  simp

theorem neutral_plain {t : CString}
    (h : ∀ c ∈ t, c ≠ jsonQuote ∧ c ≠ opening ∧ c ≠ closing) : Neutral opening closing t := by
  intro depth rest
  induction t with
  | nil => simp
  | cons c t ih =>
    obtain ⟨hquote, hopening, hclosing⟩ := h c List.mem_cons_self
    have hrest := ih fun d hd => h d (List.mem_cons_of_mem _ hd)
    rw [List.cons_append, containerBody_outside, if_neg hquote, if_neg hopening, if_neg hclosing, hrest,
      Option.map_map]
    rfl

theorem unmarked {t : CString}
    (h : t.all (fun c => c != jsonQuote && (c != opening && c != closing)) = true) :
    ∀ c ∈ t, c ≠ jsonQuote ∧ c ≠ opening ∧ c ≠ closing := by
  simpa using h

theorem containerBody_escaped {s : CString} (hs : Escaped s) (depth : ℕ) (rest : CString) :
    containerBody opening closing .string depth (s ++ jsonQuote :: rest) =
      (containerBody opening closing .outside depth rest).map fun r =>
        (s ++ jsonQuote :: r.1, r.2) := by
  induction hs with
  | nil => rfl
  | plain hquote hescape hnul _ ih =>
    rw [List.cons_append, containerBody]
    simp only [hescape, if_false, hquote]
    rw [ih, Option.map_map]
    rfl
  | pair hnul _ ih =>
    rw [List.cons_append, List.cons_append, containerBody]
    simp only [if_true]
    rw [containerBody, ih, Option.map_map, Option.map_map]
    rfl

theorem neutral_quoted {s : CString} (hs : Escaped s) : Neutral opening closing (quoted s) := by
  intro depth rest
  have hopen : quoted s ++ rest = jsonQuote :: (s ++ jsonQuote :: rest) := by simp [quoted]
  rw [hopen, containerBody_outside, if_pos rfl, containerBody_escaped hs, Option.map_map]
  congr 1
  funext r
  simp [quoted]

theorem neutral_container {t : CString} (hopening : opening ≠ jsonQuote)
    (hclosing : closing ≠ jsonQuote) (hne : closing ≠ opening) (ht : Neutral opening closing t) :
    Neutral opening closing (opening :: t ++ [closing]) := by
  intro depth rest
  have happend : opening :: t ++ [closing] ++ rest = opening :: (t ++ closing :: rest) := by simp
  rw [happend, containerBody_outside, if_neg hopening, if_pos rfl, ht, containerBody_outside, if_neg hclosing,
    if_neg hne, if_pos rfl]
  simp only [Option.map_map]
  congr 1
  funext r
  simp

theorem containerBody_neutral {t : CString} (hclosing : closing ≠ jsonQuote)
    (hne : closing ≠ opening) (ht : Neutral opening closing t) (rest : CString) :
    containerBody opening closing .outside 0 (t ++ closing :: rest) = some (t, rest) := by
  rw [ht, containerBody_outside, if_neg hclosing, if_neg hne, if_pos rfl]
  simp

theorem jsonMatchContainer_neutral {t : CString} (hclosing : closing ≠ jsonQuote)
    (hne : closing ≠ opening) (ht : Neutral opening closing t) (rest : CString) :
    jsonMatchContainer opening closing (opening :: t ++ closing :: rest) = some (t, rest) := by
  rw [List.cons_append, jsonMatchContainer, if_pos rfl]
  exact containerBody_neutral hclosing hne ht rest

end Containers

section Objects

/-- An object with its braces. -/
def braced (t : CString) : CString := openBrace :: t ++ [closeBrace]

theorem neutral_braced {t : CString} (ht : Neutral openBrace closeBrace t) :
    Neutral openBrace closeBrace (braced t) :=
  neutral_container (by decide) (by decide) (by decide) ht

theorem jsonNextObject_braced {gap t : CString} (hgap : openBrace ∉ gap)
    (ht : Neutral openBrace closeBrace t) (rest : CString) :
    jsonNextObject (gap ++ braced t ++ rest) = some (braced t, rest) := by
  have hdrop : (gap ++ braced t ++ rest).dropWhile (· ≠ openBrace) =
      openBrace :: t ++ closeBrace :: rest := by
    rw [List.append_assoc, List.dropWhile_append_of_pos]
    · simp [braced]
    · intro c hc
      simpa using fun heq : c = openBrace => hgap (heq ▸ hc)
  unfold jsonNextObject
  rw [hdrop, jsonMatchContainer_neutral (by decide) (by decide) ht]
  rfl

theorem jsonNextObject_none {s : CString} (h : openBrace ∉ s) : jsonNextObject s = none := by
  have hdrop : s.dropWhile (· ≠ openBrace) = [] := by
    rw [List.dropWhile_eq_nil_iff]
    intro c hc
    simpa using fun heq : c = openBrace => h (heq ▸ hc)
  unfold jsonNextObject
  rw [hdrop]
  rfl

theorem length_of_jsonNextObject {s object rest : CString}
    (h : jsonNextObject s = some (object, rest)) : rest.length < s.length := by
  unfold jsonNextObject at h
  obtain ⟨r, hr, heq⟩ := Option.map_eq_some_iff.mp h
  cases heq
  have hdrop := (List.dropWhile_sublist (p := (· ≠ openBrace)) (l := s)).length_le
  cases hs : s.dropWhile (· ≠ openBrace) with
  | nil =>
    rw [hs] at hr
    cases hr
  | cons c w =>
    rw [hs] at hr hdrop
    simp only [jsonMatchContainer] at hr
    split_ifs at hr
    have hlength := congrArg List.length (containerBody_eq hr)
    simp only [List.length_append, List.length_cons] at hlength hdrop
    omega

theorem jsonObjectsWithin_eq {n : ℕ} {s : CString} (h : s.length ≤ n) :
    jsonObjectsWithin n s = jsonObjects s := by
  unfold jsonObjects
  suffices hall : ∀ m (s : CString) n, s.length ≤ m → s.length ≤ n →
      jsonObjectsWithin m s = jsonObjectsWithin n s from hall n s s.length h le_rfl
  intro m
  induction m with
  | zero =>
    intro s n hm _
    rw [List.length_eq_zero_iff.mp (Nat.le_zero.mp hm)]
    cases n with
    | zero => rfl
    | succ n => simp [jsonObjectsWithin, jsonNextObject_none]
  | succ m ih =>
    intro s n hm hn
    cases n with
    | zero =>
      rw [List.length_eq_zero_iff.mp (Nat.le_zero.mp hn)]
      simp [jsonObjectsWithin, jsonNextObject_none]
    | succ n =>
      rw [jsonObjectsWithin, jsonObjectsWithin]
      cases hnext : jsonNextObject s with
      | none => rfl
      | some r =>
        have hlength := length_of_jsonNextObject hnext
        simp only
        rw [ih r.2 n (by omega) (by omega)]

theorem jsonObjects_braced {gap t : CString} (hgap : openBrace ∉ gap)
    (ht : Neutral openBrace closeBrace t) (rest : CString) :
    jsonObjects (gap ++ braced t ++ rest) = braced t :: jsonObjects rest := by
  have hlength : (gap ++ braced t ++ rest).length =
      (gap.length + t.length + 1 + rest.length) + 1 := by
    simp [braced]
    omega
  unfold jsonObjects
  rw [hlength, jsonObjectsWithin, jsonNextObject_braced hgap ht]
  simp only
  rw [jsonObjectsWithin_eq (by omega)]
  rfl

theorem jsonObjects_none {s : CString} (h : openBrace ∉ s) : jsonObjects s = [] := by
  unfold jsonObjects
  cases s with
  | nil => rfl
  | cons c s =>
    rw [List.length_cons, jsonObjectsWithin, jsonNextObject_none h]

end Objects

section Fields

/-- A key with its value. -/
def fieldText (f : CString × CString) : CString := quoted f.1 ++ lit ": " ++ f.2

/-- Fields with what stands between them. -/
def joinFields (separator : CString) : List (CString × CString) → CString
  | [] => []
  | [f] => fieldText f
  | f :: g :: fields => fieldText f ++ separator ++ joinFields separator (g :: fields)

/-- The search for a key goes over the field. -/
structure Passes (key : CString) (f : CString × CString) : Prop where
  isKey : isKey f.1 = true
  ne : f.1 ≠ key
  value : ∀ ending, endsValue ending = true → Skips key (f.2 ++ ending)

variable {key separator : CString}

theorem skips_fieldText {f : CString × CString} (hkey : isKey key = true) (hf : Passes key f)
    {ending : CString} (hending : endsValue ending = true) :
    Skips key (fieldText f ++ ending) := by
  have hfield : fieldText f ++ ending = quoted f.1 ++ lit ": " ++ (f.2 ++ ending) := by
    simp [fieldText, List.append_assoc]
  rw [hfield]
  exact skips_append (skips_key hf.isKey hkey hf.ne) (hf.value ending hending)

theorem joinFields_cons (separator : CString) (f : CString × CString)
    (fields : List (CString × CString)) (hfields : fields ≠ []) :
    joinFields separator (f :: fields) =
      fieldText f ++ separator ++ joinFields separator fields := by
  cases fields with
  | nil => exact absurd rfl hfields
  | cons g fields => rfl

theorem exists_jsonFindKeyValue (hkey : isKey key = true) (hseparator : endsValue separator = true)
    {before after : List (CString × CString)} {value : CString}
    (hbefore : ∀ f ∈ before, Passes key f) (ending : CString) :
    ∃ rest, jsonFindKeyValue key (joinFields separator (before ++ (key, value) :: after) ++ ending) =
      some (skipWsRange (value ++ rest)) := by
  induction before with
  | nil =>
    cases after with
    | nil =>
      refine ⟨ending, ?_⟩
      rw [← jsonFindKeyValue_key key]
      simp [joinFields, fieldText, List.append_assoc]
    | cons g after =>
      refine ⟨separator ++ joinFields separator (g :: after) ++ ending, ?_⟩
      rw [← jsonFindKeyValue_key key]
      simp [joinFields, fieldText, List.append_assoc]
  | cons f before ih =>
    obtain ⟨rest, hrest⟩ := ih fun g hg => hbefore g (List.mem_cons_of_mem _ hg)
    refine ⟨rest, ?_⟩
    rw [List.cons_append, joinFields_cons _ _ _ (by simp), List.append_assoc,
      skips_fieldText hkey (hbefore f List.mem_cons_self) hseparator, hrest]

theorem skips_joinFields (hkey : isKey key = true) (hseparator : endsValue separator = true)
    {fields : List (CString × CString)} (hfields : ∀ f ∈ fields, Passes key f)
    {ending : CString} (hending : endsValue ending = true) :
    Skips key (joinFields separator fields ++ ending) := by
  induction fields with
  | nil =>
    simp only [endsValue, Bool.and_eq_true, List.all_eq_true, decide_eq_true_eq] at hending
    exact skips_plain hending.1.1
  | cons f fields ih =>
    have hf := hfields f List.mem_cons_self
    have hrest := ih fun g hg => hfields g (List.mem_cons_of_mem _ hg)
    by_cases hnil : fields = []
    · rw [hnil]
      exact skips_fieldText hkey hf hending
    · rw [joinFields_cons _ _ _ hnil, List.append_assoc]
      exact skips_append (skips_fieldText hkey hf hseparator) hrest

theorem neutral_joinFields {opening closing : UInt8}
    (hcolon : ∀ c ∈ lit ": ", c ≠ jsonQuote ∧ c ≠ opening ∧ c ≠ closing)
    (hseparator : ∀ c ∈ separator, c ≠ jsonQuote ∧ c ≠ opening ∧ c ≠ closing)
    {fields : List (CString × CString)}
    (hfields : ∀ f ∈ fields, isKey f.1 = true ∧ Neutral opening closing f.2) :
    Neutral opening closing (joinFields separator fields) := by
  induction fields with
  | nil => exact neutral_plain (by simp [joinFields])
  | cons f fields ih =>
    obtain ⟨hkey, hvalue⟩ := hfields f List.mem_cons_self
    have hrest := ih fun g hg => hfields g (List.mem_cons_of_mem _ hg)
    have hf : Neutral opening closing (fieldText f) :=
      neutral_append (neutral_append (neutral_quoted (escaped_of_isKey hkey))
        (neutral_plain hcolon)) hvalue
    by_cases hnil : fields = []
    · rw [hnil]
      exact hf
    · rw [joinFields_cons _ _ _ hnil]
      exact neutral_append (neutral_append hf (neutral_plain hseparator)) hrest

end Fields

end PlumosBubble.Frontend
