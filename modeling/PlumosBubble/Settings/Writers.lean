import PlumosBubble.Frontend.JsonDocument

/-! What the writers of `config/system/settings.json` make of its text: `write_persisted` of
`plumos-volume-control`, `write_saved` of `plumos-display-control` and
`replace_json_key_value_atomic` of `plumos_controller_ui.c`. Where a writer finds its key at a
member of the document, it changes this member and nothing else. -/

namespace PlumosBubble.Settings

open Frontend Sequence

section Shell

def newline : UInt8 := 0x0a

/-- `[[:space:]]` in a line. -/
def isGap (c : UInt8) : Bool := isSpace c && c ≠ newline

/-- `"key"[[:space:]]*:` at this place: what follows. -/
def keyMatch (key s : CString) : Option CString :=
  (afterStart (keyPattern key) s).bind fun s =>
    match s.dropWhile isGap with
    | [] => none
    | c :: s => if c = jsonColon then some s else none

/-- `"key"[[:space:]]*:[[:space:]]*[0-9][0-9]*` at this place: what follows. -/
def numeralMatch (key s : CString) : Option CString :=
  (keyMatch key s).bind fun s =>
    let value := s.dropWhile isGap
    if value.head?.any isDigit then some (value.dropWhile isDigit) else none

/-- `grep -q`. -/
def grepKey (key : CString) : CString → Bool
  | [] => false
  | c :: s => (keyMatch key (c :: s)).isSome || grepKey key s

/-- `"key": value`. -/
def newMember (key value : CString) : CString := quoted key ++ lit ": " ++ value

/-- The `s/…/…/` of the shell writers, which replaces the first numeral of a line; `done` says
that this line had one, and `skip` how much of it is left. -/
def sedNumeral (key value : CString) : Bool → ℕ → CString → CString
  | _, _, [] => []
  | done, skip + 1, _ :: s => sedNumeral key value done skip s
  | done, 0, c :: s =>
    if c = newline then c :: sedNumeral key value false 0 s
    else if done then c :: sedNumeral key value true 0 s
    else
      match numeralMatch key (c :: s) with
      | some rest => newMember key value ++ sedNumeral key value true (s.length - rest.length) s
      | none => c :: sedNumeral key value false 0 s

/-- The places where it replaces: the text from each of them on. -/
def hits (key : CString) : Bool → ℕ → CString → List CString
  | _, _, [] => []
  | done, skip + 1, _ :: s => hits key done skip s
  | done, 0, c :: s =>
    if c = newline then hits key false 0 s
    else if done then hits key true 0 s
    else
      match numeralMatch key (c :: s) with
      | some rest => (c :: s) :: hits key true (s.length - rest.length) s
      | none => hits key false 0 s

/-- The document that is written where the key is not found. -/
def freshText (key value : CString) : CString :=
  lit "\x7b\n  \"version\": 1,\n  \"" ++ key ++ lit "\": " ++ value ++ lit "\n\x7d\n"

/-- The number that `[` reads. -/
def decimal (s : CString) : ℕ := s.foldl (fun n c => 10 * n + (c.toNat - 0x30)) 0

/-- `normalize`; `floor` is what a value of zeros becomes. -/
def normalize (floor arg : CString) : Option CString :=
  if isDigits arg then
    let value := arg.dropWhile (· = 0x30)
    let value := if value = [] then floor else value
    some (if decimal value ≤ 20 then value else lit "20")
  else none

end Shell

section Ui

/-- The branch of `replace_json_key_value_atomic` for a key that is not there. -/
def appendJsonKeyValue (key literal json : CString) : Option CString :=
  let object := skipWsRange json
  let trimmed := object.rdropWhile isSpace
  if object.head? = some openBrace ∧ trimmed.getLast? = some closeBrace then
    let content := trimmed.dropLast.tail.rdropWhile isSpace
    let separator := if skipWsRange content = [] then lit "\n" else lit ",\n"
    some (json.take (json.length - object.length) ++ openBrace :: content ++ separator ++
      lit "  " ++ fprintJsonString key ++ lit ": " ++ literal ++ lit "\n" ++
      closeBrace :: object.drop trimmed.length)
  else none

/-- The text that `replace_json_key_value_atomic` writes. -/
def replaceJsonKeyValue (key literal json : CString) : Option CString :=
  match jsonFindKeyValue key json with
  | some value =>
    (jsonValueEnd value).map fun rest =>
      json.take (json.length - value.length) ++ literal ++ rest
  | none => appendJsonKeyValue key literal json

end Ui

section Shell

variable {key value : CString}

theorem suffix_of_afterStart {start s rest : CString} (h : afterStart start s = some rest) :
    rest <:+ s := by
  unfold afterStart at h
  split_ifs at h
  cases h
  exact List.drop_suffix _ _

theorem suffix_of_keyMatch {s rest : CString} (h : keyMatch key s = some rest) : rest <:+ s := by
  obtain ⟨t, ht, hmatch⟩ := Option.bind_eq_some_iff.mp h
  have hdrop := List.dropWhile_suffix (l := t) isGap
  cases hgap : t.dropWhile isGap with
  | nil =>
    rw [hgap] at hmatch
    cases hmatch
  | cons c u =>
    rw [hgap] at hmatch hdrop
    dsimp only at hmatch
    split_ifs at hmatch
    cases hmatch
    exact (List.suffix_cons c _).trans (hdrop.trans (suffix_of_afterStart ht))

theorem suffix_of_numeralMatch {c : UInt8} {s rest : CString}
    (h : numeralMatch key (c :: s) = some rest) : rest <:+ s := by
  obtain ⟨t, ht, hmatch⟩ := Option.bind_eq_some_iff.mp h
  dsimp only at hmatch
  split_ifs at hmatch with hdigit
  cases hmatch
  have hsuffix := suffix_of_keyMatch ht
  have hgap := List.dropWhile_suffix (l := t) isGap
  cases hvalue : t.dropWhile isGap with
  | nil => simp
  | cons d u =>
    rw [hvalue] at hdigit hgap
    have hd : isDigit d = true := hdigit
    rw [List.dropWhile_cons, if_pos hd]
    have hcons : (d :: u) <:+ c :: s := hgap.trans hsuffix
    have htail : u <:+ s := by
      rcases List.suffix_cons_iff.mp hcons with heq | hs
      · rw [(List.cons.inj heq).2]
      · exact (List.suffix_cons d u).trans hs
    exact (List.dropWhile_suffix _).trans htail

theorem drop_of_suffix {s t : CString} (h : t <:+ s) : s.drop (s.length - t.length) = t :=
  (List.suffix_iff_eq_drop.mp h).symm

theorem sedNumeral_of_hits_nil {replaced : Bool} {skip : ℕ} {s : CString}
    (h : hits key replaced skip s = []) : sedNumeral key value replaced skip s = s.drop skip := by
  induction s generalizing replaced skip with
  | nil => cases skip <;> simp [sedNumeral]
  | cons c s ih =>
    cases skip with
    | succ skip =>
      rw [hits] at h
      rw [sedNumeral, ih h, List.drop_succ_cons]
    | zero =>
      rw [hits] at h
      rw [sedNumeral, List.drop_zero]
      by_cases hline : c = newline
      · rw [if_pos hline] at h ⊢
        rw [ih h, List.drop_zero]
      · rw [if_neg hline] at h ⊢
        cases replaced with
        | true =>
          rw [if_pos rfl] at h ⊢
          rw [ih h, List.drop_zero]
        | false =>
          simp only [Bool.false_eq_true, if_false] at h ⊢
          cases hmatch : numeralMatch key (c :: s) with
          | some rest =>
            rw [hmatch] at h
            cases h
          | none =>
            rw [hmatch] at h
            dsimp only at h ⊢
            rw [ih h, List.drop_zero]

theorem sedNumeral_of_hits {replaced : Bool} {s v : CString} (h : hits key replaced 0 s = [v]) :
    ∃ before rest, s = before ++ v ∧ numeralMatch key v = some rest ∧
      sedNumeral key value replaced 0 s = before ++ newMember key value ++ rest := by
  induction s generalizing replaced with
  | nil => cases h
  | cons c s ih =>
    have hgo : ∀ {replaced : Bool}, hits key replaced 0 s = [v] → ∃ before rest,
        c :: s = before ++ v ∧ numeralMatch key v = some rest ∧
          c :: sedNumeral key value replaced 0 s = before ++ newMember key value ++ rest := by
      intro replaced hs
      obtain ⟨before, rest, hv, hmatch, hsed⟩ := ih hs
      exact ⟨c :: before, rest, by rw [hv, List.cons_append], hmatch, by rw [hsed]; rfl⟩
    rw [hits] at h
    rw [sedNumeral]
    by_cases hline : c = newline
    · rw [if_pos hline] at h ⊢
      exact hgo h
    · rw [if_neg hline] at h ⊢
      cases replaced with
      | true =>
        rw [if_pos rfl] at h ⊢
        exact hgo h
      | false =>
        simp only [Bool.false_eq_true, if_false] at h ⊢
        cases hmatch : numeralMatch key (c :: s) with
        | none =>
          rw [hmatch] at h
          exact hgo h
        | some rest =>
          rw [hmatch] at h
          dsimp only at h ⊢
          obtain ⟨rfl, hrest⟩ := List.cons.inj h
          refine ⟨[], rest, rfl, hmatch, ?_⟩
          rw [sedNumeral_of_hits_nil hrest, drop_of_suffix (suffix_of_numeralMatch hmatch)]
          rfl

theorem grepKey_of_match {v rest : CString} (before : CString)
    (h : numeralMatch key v = some rest) : grepKey key (before ++ v) = true := by
  obtain ⟨t, ht, -⟩ := Option.bind_eq_some_iff.mp h
  induction before with
  | nil =>
    cases v with
    | nil =>
      have hnil : keyMatch key [] = none := by
        simp [keyMatch, afterStart, keyPattern]
      rw [hnil] at ht
      cases ht
    | cons c v =>
      rw [List.nil_append, grepKey, ht]
      rfl
  | cons c before ih => rw [List.cons_append, grepKey, ih, Bool.or_true]

end Shell

section Values

theorem isWhole_dropWhile {s : CString} (h : isDigits s = true)
    (hne : s.dropWhile (· = 0x30) ≠ []) : isWhole (s.dropWhile (· = 0x30)) = true := by
  obtain ⟨-, hdigits⟩ := isDigits_iff.mp h
  have hsuffix := List.dropWhile_suffix (l := s) (· = 0x30)
  have hhead := List.head_dropWhile_not (fun c : UInt8 => decide (c = 0x30)) hne
  have hdigits' : isDigits (s.dropWhile (· = 0x30)) = true :=
    isDigits_iff.mpr ⟨hne, fun c hc => hdigits c (hsuffix.subset hc)⟩
  simp only [isWhole, hdigits', Bool.true_and, Bool.or_eq_true, decide_eq_true_eq]
  refine Or.inl fun hzero => ?_
  rw [List.head?_eq_some_head hne, Option.some_inj] at hzero
  rw [hzero] at hhead
  simp at hhead

theorem json_normalize {floor arg value : CString} (hfloor : isWhole floor = true)
    (h : normalize floor arg = some value) : Json .value value := by
  unfold normalize at h
  split_ifs at h with hdigits
  have hwhole : isWhole value = true := by
    have hcap : isWhole (lit "20") = true := by decide
    by_cases hnil : arg.dropWhile (· = 0x30) = []
    · simp only [hnil, if_true] at h
      split_ifs at h <;> cases h
      · exact hfloor
      · exact hcap
    · simp only [hnil, if_false] at h
      split_ifs at h <;> cases h
      · exact isWhole_dropWhile hdigits hnil
      · exact hcap
  exact .number (isNumber_of_isWhole hwhole)

theorem isKeyByte_not_control {c : UInt8} (h : isKeyByte c = true) :
    c ≠ jsonQuote ∧ c ≠ jsonEscape ∧ ¬c < 0x20 := by
  have hall : ∀ n < 256, isKeyByte (UInt8.ofNat n) = true →
      UInt8.ofNat n ≠ jsonQuote ∧ UInt8.ofNat n ≠ jsonEscape ∧ ¬UInt8.ofNat n < 0x20 := by
    decide +kernel
  have hbyte := hall c.toNat c.toNat_lt
  rw [UInt8.ofNat_toNat] at hbyte
  exact hbyte h

theorem fprintJsonString_key {key : CString} (hkey : isKey key = true) :
    fprintJsonString key = quoted key := by
  have hall := List.all_eq_true.mp (isKey_all hkey)
  unfold fprintJsonString escaped
  clear hkey
  congr 1
  induction key with
  | nil => rfl
  | cons c key ih =>
    have hbyte : escapeByte fprintTable c = [c] := by
      obtain ⟨hquote, hescape, hcontrol⟩ := isKeyByte_not_control (hall c List.mem_cons_self)
      unfold escapeByte
      rw [if_neg (by simp [hquote, hescape])]
      cases hletter : fprintTable.letter c with
      | none => simp [hcontrol]
      | some l => exact absurd (fprintTable.control c l hletter) hcontrol
    rw [List.flatMap_cons, hbyte, ih fun d hd => hall d (List.mem_cons_of_mem _ hd)]
    rfl

end Values

section Members

variable {key value literal : CString}

/-- The text behind a member. -/
def Document.behind (d : Document) (after : List Member) : CString :=
  back after ++ closeBrace :: d.ending

theorem endsValue_behind (m : Member) (d : Document) (after : List Member) :
    EndsValue (m.trail ++ Document.behind d after) := by
  obtain ⟨c, s, hs, hc⟩ := back_head after d.ending
  exact ⟨m.trail, c, s, by rw [Document.behind, hs], m.trail_blank, hc⟩

/-- The value is a numeral on the line of its key. -/
structure OnOneLine (m : Member) : Prop where
  gap : m.gap.all isGap = true
  space : m.space.all isGap = true
  digits : isDigits m.value = true

/-- `s/…/…/` finds the key where it is a member of the document, with a numeral, and nowhere
else. -/
inductive SedFinds (key text : CString) : Prop
  | mk {d : Document} {before after : List Member} {m : Member} (htext : d.text = text)
      (hmembers : d.members = before ++ m :: after) (hkey : m.key = key) (hline : OnOneLine m)
      (hhits : hits key false 0 text = [quoted key ++ m.afterKey ++ Document.behind d after])

/-- `json_find_key_value` finds the key where it is a member of the document, and finds none
where it is no member. -/
inductive UiFinds (key text : CString) : Prop
  | member {d : Document} {before after : List Member} {m : Member} (htext : d.text = text)
      (hmembers : d.members = before ++ m :: after) (hkey : m.key = key)
      (hfind : jsonFindKeyValue key text = some (m.value ++ m.trail ++ Document.behind d after))
  | none {d : Document} (htext : d.text = text) (hkey : key ∉ d.members.map Member.key)
      (hfind : jsonFindKeyValue key text = none)

theorem dropWhile_gap {g r : CString} {c : UInt8} (hg : g.all isGap = true)
    (hc : isGap c = false) : (g ++ c :: r).dropWhile isGap = c :: r := by
  rw [List.dropWhile_append_of_pos (List.all_eq_true.mp hg)]
  simp [hc]

theorem numeralMatch_member {m : Member} (hline : OnOneLine m) {rest : CString}
    (hrest : EndsValue (m.trail ++ rest)) :
    numeralMatch m.key (quoted m.key ++ m.afterKey ++ rest) = some (m.trail ++ rest) := by
  have htext : quoted m.key ++ m.afterKey ++ rest =
      keyPattern m.key ++ (m.gap ++ jsonColon :: (m.space ++ (m.value ++ (m.trail ++ rest)))) := by
    simp [Member.afterKey, quoted, keyPattern, List.append_assoc]
  obtain ⟨hne, hdigits⟩ := isDigits_iff.mp hline.digits
  have hbehind : (m.trail ++ rest).dropWhile isDigit = m.trail ++ rest := by
    obtain ⟨g, c, s, heq, hg, hc⟩ := hrest
    have hspace : ∀ c, isSpace c = true ∨ endsWord c = true → isDigit c = false := by
      intro c hc
      by_contra hdigit
      have hword := isWordByte_ne (isWordByte_of_isDigit (by simpa using hdigit))
      rcases hc with hc | hc
      · rw [hword.1] at hc
        cases hc
      · rw [hword.2.1] at hc
        cases hc
    rw [heq]
    cases g with
    | nil => simp [hspace c (Or.inr hc)]
    | cons d g =>
      rw [List.all_cons, Bool.and_eq_true] at hg
      simp [hspace d (Or.inl hg.1)]
  cases hvalue : m.value with
  | nil => exact absurd hvalue hne
  | cons d digits =>
    have hd : isDigit d = true := hdigits d (by rw [hvalue]; exact List.mem_cons_self)
    have hgap : isGap d = false := by
      simp [isGap, (isWordByte_ne (isWordByte_of_isDigit hd)).1]
    have hkey : keyMatch m.key (quoted m.key ++ m.afterKey ++ rest) =
        some (m.space ++ (m.value ++ (m.trail ++ rest))) := by
      rw [htext, keyMatch, afterStart_append, Option.bind_some,
        dropWhile_gap hline.gap (by decide)]
      rfl
    rw [numeralMatch, hkey, Option.bind_some, hvalue, List.cons_append,
      dropWhile_gap hline.space hgap, ← List.cons_append, ← hvalue]
    have hhead : (m.value ++ (m.trail ++ rest)).head?.any isDigit = true := by
      rw [hvalue]
      simpa using hd
    simp only [hhead, if_true]
    rw [List.dropWhile_append_of_pos hdigits, hbehind]

theorem exists_sedNumeral {text : CString} (h : SedFinds key text) (hvalue : Json .value value) :
    ∃ d d' : Document, d.text = text ∧ sedNumeral key value false 0 text = d'.text ∧
      d'.pairs = assign key value d.pairs := by
  obtain ⟨htext, hmembers, hkey, hline, hhits⟩ := h
  rename_i d before after m
  obtain ⟨start, rest, hsplit, hmatch, hsed⟩ := @sedNumeral_of_hits key value _ _ _ hhits
  rw [← hkey, numeralMatch_member hline (endsValue_behind m d after)] at hmatch
  cases hmatch
  let m' : Member :=
    { m with
      gap := []
      space := lit " "
      value := value
      gap_blank := rfl
      space_blank := by decide
      value_json := hvalue }
  have hstart : start = d.start ++ openBrace :: front before ++ m.lead := by
    have hd := d.text_split hmembers
    rw [htext, hsplit, Member.text, hkey] at hd
    apply List.append_cancel_right
    simpa only [List.append_assoc, Document.behind] using hd
  refine ⟨d, d.replace hmembers m' rfl, htext, ?_, ?_⟩
  · have hcolon : lit ": " = jsonColon :: lit " " := by decide
    rw [hsed, d.text_replace hmembers, hstart]
    simp [m', Member.text, Member.afterKey, newMember, Document.behind, hkey, hcolon,
      List.append_assoc]
  · rw [d.pairs_replace hmembers, ← hkey]

theorem take_front (front rest : CString) :
    (front ++ rest).take ((front ++ rest).length - rest.length) = front := by
  rw [List.length_append, Nat.add_sub_cancel, List.take_left]

theorem replaceJsonKeyValue_value {before old rest : CString} (hold : Json .value old)
    (hrest : EndsValue rest)
    (hfind : jsonFindKeyValue key (before ++ (old ++ rest)) = some (old ++ rest)) :
    replaceJsonKeyValue key literal (before ++ (old ++ rest)) =
      some (before ++ literal ++ rest) := by
  rw [replaceJsonKeyValue, hfind]
  dsimp only
  rw [jsonValueEnd_value hold hrest, Option.map_some, take_front]

theorem exists_replaceValue {d : Document} {before after : List Member} {m : Member}
    (hmembers : d.members = before ++ m :: after) (hliteral : Json .value literal)
    (hfind : jsonFindKeyValue m.key d.text =
      some (m.value ++ m.trail ++ Document.behind d after)) :
    ∃ d' : Document, replaceJsonKeyValue m.key literal d.text = some d'.text ∧
      d'.pairs = assign m.key literal d.pairs := by
  let m' : Member := { m with value := literal, value_json := hliteral }
  have hsame : m'.key = m.key := rfl
  refine ⟨d.replace hmembers m' hsame, ?_, d.pairs_replace hmembers hsame⟩
  have hsplit : d.text = d.start ++ openBrace :: front before ++ m.lead ++ quoted m.key ++ m.gap ++
      jsonColon :: m.space ++ (m.value ++ (m.trail ++ Document.behind d after)) := by
    rw [d.text_split hmembers]
    simp [Member.text, Member.afterKey, Document.behind, List.append_assoc]
  rw [List.append_assoc, hsplit] at hfind
  rw [hsplit, d.text_replace hmembers,
    replaceJsonKeyValue_value m.value_json (endsValue_behind m d after) hfind]
  simp [m', Member.text, Member.afterKey, Document.behind, List.append_assoc]

theorem rdropWhile_blank {s g : CString} {c : UInt8} (hc : isSpace c = false)
    (hg : g.all isSpace = true) : (s ++ [c] ++ g).rdropWhile isSpace = s ++ [c] := by
  induction g using List.reverseRecOn with
  | nil =>
    rw [List.append_nil]
    exact List.rdropWhile_concat_neg _ _ _ (by simp [hc])
  | append_singleton g b ih =>
    rw [List.all_append, Bool.and_eq_true] at hg
    rw [← List.append_assoc, List.rdropWhile_concat_pos]
    · exact ih hg.1
    · simpa using hg.2

theorem rdropWhile_all {g : CString} (hg : g.all isSpace = true) :
    g.rdropWhile isSpace = [] :=
  List.rdropWhile_eq_nil_iff.mpr (List.all_eq_true.mp hg)

theorem skipWsRange_blank {g s : CString} {c : UInt8} (hg : g.all isSpace = true)
    (hc : isSpace c = false) : skipWsRange (g ++ c :: s) = c :: s := by
  unfold skipWsRange
  rw [List.dropWhile_append_of_pos (List.all_eq_true.mp hg)]
  simp [hc]

theorem appendJsonKeyValue_braces (hkey : isKey key = true) {start body ending : CString}
    (hstart : start.all isSpace = true) (hending : ending.all isSpace = true) :
    appendJsonKeyValue key literal (start ++ openBrace :: body ++ closeBrace :: ending) =
      some (start ++ openBrace :: body.rdropWhile isSpace ++
        (if skipWsRange (body.rdropWhile isSpace) = [] then lit "\n" else lit ",\n") ++
        lit "  " ++ quoted key ++ lit ": " ++ literal ++ lit "\n" ++ closeBrace :: ending) := by
  have htext : start ++ openBrace :: body ++ closeBrace :: ending =
      start ++ (openBrace :: body ++ closeBrace :: ending) := by
    simp
  have hclose : openBrace :: body ++ closeBrace :: ending =
      openBrace :: body ++ [closeBrace] ++ ending := by
    simp
  have hobject : skipWsRange (start ++ openBrace :: body ++ closeBrace :: ending) =
      openBrace :: body ++ closeBrace :: ending := by
    rw [htext]
    exact skipWsRange_blank hstart (by decide)
  have htrim : (openBrace :: body ++ closeBrace :: ending).rdropWhile isSpace =
      openBrace :: body ++ [closeBrace] := by
    rw [hclose]
    exact rdropWhile_blank (by decide) hending
  have hcontent : (openBrace :: body ++ [closeBrace]).dropLast.tail = body := by
    rw [List.dropLast_concat, List.tail_cons]
  have htake : (start ++ openBrace :: body ++ closeBrace :: ending).take
      ((start ++ openBrace :: body ++ closeBrace :: ending).length -
        (openBrace :: body ++ closeBrace :: ending).length) = start := by
    rw [htext, take_front]
  have hdrop : (openBrace :: body ++ closeBrace :: ending).drop
      (openBrace :: body ++ [closeBrace]).length = ending := by
    rw [hclose, List.drop_left]
  unfold appendJsonKeyValue
  rw [hobject]
  dsimp only
  rw [htrim, hcontent, htake, hdrop, if_pos, fprintJsonString_key hkey]
  exact ⟨rfl, by rw [List.getLast?_concat]⟩

theorem appendJsonKeyValue_document (hkey : isKey key = true) (d : Document) :
    appendJsonKeyValue key literal d.text =
      some (d.start ++ openBrace :: d.body.rdropWhile isSpace ++
        (if skipWsRange (d.body.rdropWhile isSpace) = [] then lit "\n" else lit ",\n") ++
        lit "  " ++ quoted key ++ lit ": " ++ literal ++ lit "\n" ++ closeBrace :: d.ending) :=
  appendJsonKeyValue_braces hkey d.start_blank d.ending_blank

theorem indent_blank : (lit "\n  ").all isSpace = true := by decide

theorem blank_blank : (lit " ").all isSpace = true := by decide

theorem newline_blank : (lit "\n").all isSpace = true := by decide

/-- A member that begins on a new line and ends with one. -/
def newLineMember (hkey : isKey key = true) (hliteral : Json .value literal) : Member where
  lead := lit "\n  "
  key := key
  gap := []
  space := lit " "
  value := literal
  trail := lit "\n"
  lead_blank := indent_blank
  key_escaped := escaped_of_isKey hkey
  gap_blank := nil_blank
  space_blank := blank_blank
  value_json := hliteral
  trail_blank := newline_blank

/-- A member without the blanks behind it. -/
def trimmed (m : Member) : Member := { m with trail := [], trail_blank := nil_blank }

theorem rdropWhile_member (m : Member) (before : CString) :
    (before ++ m.text).rdropWhile isSpace = before ++ (trimmed m).text ∧
      skipWsRange (before ++ (trimmed m).text) ≠ [] := by
  obtain ⟨-, s, c, hvalue, hc⟩ := m.value_json.ends
  have hlast : before ++ (trimmed m).text =
      before ++ m.lead ++ quoted m.key ++ m.gap ++ jsonColon :: m.space ++ s ++ [c] := by
    simp [trimmed, Member.text, Member.afterKey, hvalue, List.append_assoc]
  have htext : before ++ m.text = before ++ (trimmed m).text ++ m.trail := by
    simp [trimmed, Member.text, Member.afterKey, List.append_assoc]
  constructor
  · rw [htext, hlast]
    exact rdropWhile_blank hc m.trail_blank
  · rw [hlast]
    unfold skipWsRange
    rw [Ne, List.dropWhile_eq_nil_iff]
    intro hall
    have hblank := hall c (by simp)
    rw [hc] at hblank
    cases hblank

theorem exists_append {d : Document} (hkey : isKey key = true)
    (hnew : key ∉ d.members.map Member.key) (hliteral : Json .value literal) :
    ∃ d' : Document, appendJsonKeyValue key literal d.text = some d'.text ∧
      d'.pairs = assign key literal d.pairs := by
  have hlead : lit "\n  " = lit "\n" ++ lit "  " := by decide
  have hcomma : lit ",\n" = comma :: lit "\n" := by decide
  have hcolon : lit ": " = jsonColon :: lit " " := by decide
  let new := newLineMember hkey hliteral
  rw [appendJsonKeyValue_document hkey]
  cases hms : d.members using List.reverseRecOn with
  | nil =>
    have hbody : d.body = d.inside := by
      unfold Document.body
      rw [hms]
    have hmembers : (d.push new hnew).members = [] ++ new :: [] := by
      simp only [Document.push, hms, new]
    have hnil : skipWsRange [] = [] := rfl
    refine ⟨d.push new hnew, ?_, d.pairs_push hnew⟩
    rw [Document.text_split _ hmembers, hbody, rdropWhile_all d.inside_blank, if_pos hnil]
    simp [front, back, Member.text, Member.afterKey, new, newLineMember, hlead, hcolon,
      Document.push, List.append_assoc]
  | append_singleton before last =>
    have hsame : (trimmed last).key = last.key := rfl
    let d₁ := d.replace hms (trimmed last) hsame
    have hpairs : d₁.pairs = d.pairs := by
      simp [d₁, Document.pairs, Document.replace, hms, trimmed, Member.pair]
    have hnew₁ : new.key ∉ d₁.members.map Member.key := by
      rw [← d₁.keys_eq, hpairs, d.keys_eq]
      exact hnew
    have hbody : d.body.rdropWhile isSpace = front before ++ (trimmed last).text := by
      rw [d.body_split hms]
      have hback : back [] = [] := rfl
      rw [hback, List.append_nil]
      exact (rdropWhile_member last (front before)).1
    have hmembers : (d₁.push new hnew₁).members = (before ++ [trimmed last]) ++ new :: [] := rfl
    refine ⟨d₁.push new hnew₁, ?_, ?_⟩
    · rw [Document.text_split _ hmembers, hbody, if_neg (rdropWhile_member last _).2]
      simp [front, back, Member.text, Member.afterKey, new, newLineMember, hlead, hcolon, hcomma,
        Document.push, Document.replace, d₁, List.append_assoc]
    · rw [d₁.pairs_push hnew₁, hpairs]
      rfl

theorem exists_replaceJsonKeyValue {text : CString} (h : UiFinds key text)
    (hkey : isKey key = true) (hliteral : Json .value literal) :
    ∃ d d' : Document, d.text = text ∧ replaceJsonKeyValue key literal text = some d'.text ∧
      d'.pairs = assign key literal d.pairs := by
  cases h with
  | @member d before after m htext hmembers hkey hfind =>
    rw [← htext, ← hkey] at hfind ⊢
    obtain ⟨d', hedit, hpairs⟩ := exists_replaceValue hmembers hliteral hfind
    exact ⟨d, d', rfl, hedit, hpairs⟩
  | @none d htext hnew hfind =>
    rw [← htext] at hfind ⊢
    obtain ⟨d', hedit, hpairs⟩ := exists_append hkey hnew hliteral
    refine ⟨d, d', rfl, ?_, hpairs⟩
    rw [replaceJsonKeyValue, hfind]
    exact hedit

end Members

end PlumosBubble.Settings
