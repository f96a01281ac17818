import PlumosBubble.Settings.Readings
import PlumosBubble.Settings.StruckObject

/-! When a level that is written is read back, the other settings stay, and a write that fails
leaves the file. `write_saved` moves nothing that was not written as a whole; `write_persisted`
moves whatever there is. -/

namespace PlumosBubble.Settings.Levels

open Frontend Sequence

section Statement

/-- The level that a text stands for, to a reader. -/
def Tool.level (tool : Tool) (s : CString) : CString := (tool.normalize s).getD tool.standard

/-- A write that returns success is read back and keeps the other members; one with a command
that fails leaves the text. -/
structure Persists (tool : Tool) (value : CString) (d : Object) (o : Outcomes)
    (result : Bool × Files) : Prop where
  kept : result.1 = true → tool.read result.2.settings = value ∧
    KeepsOthers tool.key d result.2.settings
  failed : o.Fails → result.2.settings = d.text

/-- The strike puts there what was there before. -/
def Settled (key value place : CString) : Prop :=
  ∃ rest, numeralMatch key place = some rest ∧ place = newMember key value ++ rest

/-- Each strike puts there what was there before. -/
def Idle (key value text : CString) : Prop :=
  grepKey key text = true ∧ ∀ place ∈ hits key false 0 text, Settled key value place

/-- No other level follows on the first line that has one; where no line has one, the standard
is written. -/
def Tool.ReadsBack (tool : Tool) (value text : CString) : Prop :=
  match (hits tool.key false 0 text).head? with
  | none => tool.level tool.standard = value
  | some place => ∀ last, laterNumeral tool.key place = some last → tool.level last = value

/-- The settings in which the level can be written. Those without the key must have no other
member than the version. -/
def Settable (tool : Tool) (value : CString) (d : Object) : Prop :=
  if grepKey tool.key d.text = true then
    d.LeavesOthers tool.key value ∧ tool.ReadsBack value d.text
  else others tool.key d.members = [(lit "version", lit "1")]

/-- What is moved is what was there, or nothing is moved. -/
def Stays (value : CString) (o : Outcomes) (files : Files) : Prop :=
  o.rename = false ∨
    match o.writing with
    | .whole => Idle volume.key value files.settings
    | .refused => files.temp = none ∨ files.temp = some files.settings
    | .cut n => Idle volume.key value files.settings ∧ files.settings.length ≤ n

/-- The condition for `write_persisted` where a command fails. -/
def Harmless (value : CString) (o : Outcomes) (files : Files) : Prop :=
  Stays value o files ∧ (o.sync = false ∨ readPersisted files.settings = value)

end Statement

section Unchanged

variable {key value s t rest extra : CString} {struck : Bool} {hs : List CString}

theorem getLast?_suffix (h : rest <:+ s) (hne : rest ≠ []) : s.getLast? = rest.getLast? := by
  obtain ⟨u, rfl⟩ := h
  exact List.getLast?_append_of_ne_nil u hne

theorem dropWhile_stops {p : UInt8 → Bool} (h : s.dropWhile p ≠ []) (extra : CString) :
    (s ++ extra).dropWhile p = s.dropWhile p ++ extra := by
  rw [List.dropWhile_append, if_neg]
  rwa [List.isEmpty_iff]

theorem keyMatch_append (h : keyMatch key s = some t) (extra : CString) :
    keyMatch key (s ++ extra) = some (t ++ extra) := by
  obtain ⟨u, hu, hmatch⟩ := Option.bind_eq_some_iff.mp h
  unfold afterStart at hu
  split_ifs at hu with hstart
  cases hu
  have hlonger : keyPattern key <+: s ++ extra := hstart.trans (List.prefix_append s extra)
  rw [keyMatch, afterStart, if_pos hlonger, Option.bind_some,
    List.drop_append_of_le_length hstart.length_le]
  cases hdrop : (s.drop (keyPattern key).length).dropWhile isGap with
  | nil =>
    rw [hdrop] at hmatch
    cases hmatch
  | cons c v =>
    rw [hdrop] at hmatch
    dsimp only at hmatch
    split_ifs at hmatch with hc
    cases hmatch
    rw [dropWhile_stops (by simp [hdrop]), hdrop]
    exact if_pos hc

theorem numeralMatch_append (h : numeralMatch key s = some rest)
    (hlast : ∀ c ∈ s.getLast?, isDigit c = false) (extra : CString) :
    rest ≠ [] ∧ numeralMatch key (s ++ extra) = some (rest ++ extra) := by
  obtain ⟨t, ht, hmatch⟩ := Option.bind_eq_some_iff.mp h
  dsimp only at hmatch
  split_ifs at hmatch with hdigit
  cases hmatch
  have hvalue : t.dropWhile isGap <:+ s := (List.dropWhile_suffix _).trans (suffix_of_keyMatch ht)
  have hne : t.dropWhile isGap ≠ [] := by
    intro hnil
    rw [hnil] at hdigit
    cases hdigit
  have hrest : (t.dropWhile isGap).dropWhile isDigit ≠ [] := by
    intro hnil
    rw [List.dropWhile_eq_nil_iff] at hnil
    have hd := hnil _ (List.getLast_mem hne)
    have hfree := hlast ((t.dropWhile isGap).getLast hne) (by
      rw [getLast?_suffix hvalue hne, List.getLast?_eq_some_getLast hne]
      rfl)
    exact absurd (hfree.symm.trans hd) Bool.false_ne_true
  refine ⟨hrest, ?_⟩
  rw [numeralMatch, keyMatch_append ht, Option.bind_some]
  dsimp only
  rw [dropWhile_stops hne, List.head?_append_of_ne_nil _ hne, if_pos hdigit,
    dropWhile_stops hrest]

theorem numeralMatch_newMember (hvalue : isDigits value = true)
    (hrest : rest.head?.any isDigit = false) :
    numeralMatch key (newMember key value ++ rest) = some rest := by
  have hcolon : lit ": " = jsonColon :: [0x20] := by decide
  have htext : newMember key value ++ rest =
      quoted key ++ [] ++ jsonColon :: ([0x20] ++ (value ++ rest)) := by
    simp [newMember, hcolon]
  rw [htext]
  exact (numeral_key rfl (by decide) hvalue hrest).1

theorem Strikes.head (h : Strikes key value true s t hs) : t.head? = s.head? := by
  cases h with
  | nil => rfl
  | newline _ => rfl
  | pass _ _ _ => rfl

theorem Strikes.eq_of_settled (h : Strikes key value struck s t hs)
    (hsettled : ∀ place ∈ hs, Settled key value place) : t = s := by
  induction h with
  | nil => rfl
  | newline _ ih => rw [ih hsettled]
  | pass _ _ _ ih => rw [ih hsettled]
  | strike hmatch _ ih =>
    rw [List.forall_mem_cons] at hsettled
    obtain ⟨⟨rest, hrest, heq⟩, htail⟩ := hsettled
    rw [hmatch] at hrest
    cases hrest
    rw [ih htail, ← heq]

theorem Strikes.settled_of_append (hvalue : isDigits value = true)
    (h : Strikes key value struck s t hs) (hlast : ∀ c ∈ s.getLast?, isDigit c = false)
    (heq : t = s ++ extra) : ∀ place ∈ hs, Settled key value place := by
  have htail : ∀ {c : UInt8} {s : CString}, (∀ d ∈ (c :: s).getLast?, isDigit d = false) →
      ∀ d ∈ s.getLast?, isDigit d = false := by
    intro c s hlast
    cases s with
    | nil => simp
    | cons e s => rwa [getLast?_suffix (List.suffix_cons c (e :: s)) (by simp)] at hlast
  induction h with
  | nil => simp
  | newline _ ih => exact ih (htail hlast) (List.cons.inj heq).2
  | pass _ _ _ ih => exact ih (htail hlast) (List.cons.inj heq).2
  | @strike s rest t hs hmatch h ih =>
    obtain ⟨hne, hlonger⟩ := numeralMatch_append hmatch hlast extra
    have hhead : t.head?.any isDigit = false := by
      rw [h.head]
      exact head_of_match hmatch
    rw [← heq, numeralMatch_newMember hvalue hhead, Option.some_inj] at hlonger
    rw [getLast?_suffix (suffix_of_match hmatch) hne] at hlast
    refine List.forall_mem_cons.mpr ⟨⟨rest, hmatch, ?_⟩, ih hlast hlonger⟩
    rw [hlonger, ← List.append_assoc] at heq
    exact (List.append_cancel_right heq).symm

end Unchanged

section Tools

/-- What the tools rely on. -/
structure Tool.Sound (tool : Tool) : Prop where
  key : isKey tool.key = true
  name : plainName tool.key = tool.key
  other : lit "version" ≠ tool.key
  line : lastNumeral tool.key (lit "  \"version\": 1,") = none
  whole : ∀ {arg value : CString}, tool.normalize arg = some value → isWhole value = true
  again : ∀ {arg value : CString}, tool.normalize arg = some value →
    tool.normalize value = some value

theorem normalize_cases {floor arg value : CString} (h : normalize floor arg = some value) :
    isWhole value = true ∧ value.dropWhile (· = 0x30) = value ∧ value ≠ [] ∧ decimal value ≤ 20 ∨
      value = floor ∨ value = lit "20" := by
  unfold normalize at h
  split_ifs at h with hdigits
  by_cases hnil : arg.dropWhile (· = 0x30) = []
  · simp only [hnil, if_true] at h
    split_ifs at h <;> cases h
    · exact Or.inr (Or.inl rfl)
    · exact Or.inr (Or.inr rfl)
  · simp only [hnil, if_false] at h
    split_ifs at h with hle <;> cases h
    · exact Or.inl ⟨isWhole_dropWhile hdigits hnil, List.dropWhile_idempotent _ _, hnil, hle⟩
    · exact Or.inr (Or.inr rfl)

theorem normalize_again {floor value : CString} (hwhole : isWhole value = true)
    (hdrop : value.dropWhile (· = 0x30) = value) (hne : value ≠ []) (hle : decimal value ≤ 20) :
    normalize floor value = some value := by
  have hdigits : isDigits value = true := by
    rw [isWhole, Bool.and_eq_true] at hwhole
    exact hwhole.1
  rw [normalize, if_pos hdigits]
  simp only [hdrop, if_neg hne, if_pos hle]

theorem volume_sound : volume.Sound where
  key := by decide
  name := by decide
  other := by decide
  line := by decide
  whole := by
    intro arg value h
    have hends : isWhole (lit "0") = true ∧ isWhole (lit "20") = true := by decide
    rcases normalize_cases h with ⟨hwhole, -⟩ | rfl | rfl
    · exact hwhole
    · exact hends.1
    · exact hends.2
  again := by
    intro arg value h
    have hends : normalizeVolume (lit "0") = some (lit "0") ∧
        normalizeVolume (lit "20") = some (lit "20") := by decide
    rcases normalize_cases h with ⟨hwhole, hdrop, hne, hle⟩ | rfl | rfl
    · exact normalize_again hwhole hdrop hne hle
    · exact hends.1
    · exact hends.2

theorem normalizeBrightness_cases {arg value : CString} (h : normalizeBrightness arg = some value) :
    isWhole value = true ∧ value.dropWhile (· = 0x30) = value ∧ value ≠ [] ∧ decimal value ≤ 20 ∨
      value = lit "1" ∨ value = lit "20" := by
  unfold normalizeBrightness at h
  split_ifs at h
  · cases h
    exact Or.inr (Or.inl rfl)
  · exact normalize_cases h

theorem display_sound : display.Sound where
  key := by decide
  name := by decide
  other := by decide
  line := by decide
  whole := by
    intro arg value h
    have hends : isWhole (lit "1") = true ∧ isWhole (lit "20") = true := by decide
    rcases normalizeBrightness_cases h with ⟨hwhole, -⟩ | rfl | rfl
    · exact hwhole
    · exact hends.1
    · exact hends.2
  again := by
    intro arg value h
    have hends : normalizeBrightness (lit "1") = some (lit "1") ∧
        normalizeBrightness (lit "20") = some (lit "20") := by decide
    rcases normalizeBrightness_cases h with ⟨hwhole, hdrop, hne, hle⟩ | rfl | rfl
    · show normalizeBrightness value = some value
      rw [normalizeBrightness, hdrop, if_neg (by simp; omega)]
      exact normalize_again hwhole hdrop hne hle
    · exact hends.1
    · exact hends.2

end Tools

section Fresh

variable {key value : CString}

theorem freshText_eq (key value : CString) :
    freshText key value = lit "\x7b\n  \"version\": 1,\n  " ++ (newMember key value ++
      newline :: closeBrace :: [newline]) := by
  have hfront : lit "\x7b\n  \"version\": 1,\n  \"" =
      lit "\x7b\n  \"version\": 1,\n  " ++ [jsonQuote] := by decide
  have hcolon : lit "\": " = jsonQuote :: lit ": " := by decide
  have hback : lit "\n\x7d\n" = newline :: closeBrace :: [newline] := by decide
  simp [freshText, hfront, hcolon, hback, newMember, quoted]

/-- What is written where the key is not found. -/
def freshObject (hkey : isKey key = true) (hvalue : isWhole value = true) : Object where
  start := []
  members :=
    [{ lead := [newline, 0x20, 0x20]
       key := lit "version"
       gap := []
       space := [0x20]
       value := lit "1"
       trail := []
       lead_blank := by decide
       key_escaped := escaped_key (by decide +kernel)
       gap_blank := nil_blank
       space_blank := by decide
       value_json := .number (isNumber_of_isWhole (by decide +kernel))
       trail_blank := nil_blank },
     { lead := [newline, 0x20, 0x20]
       key := key
       gap := []
       space := [0x20]
       value := value
       trail := [newline]
       lead_blank := by decide
       key_escaped := escaped_key hkey
       gap_blank := nil_blank
       space_blank := by decide
       value_json := json_of_isWhole hvalue
       trail_blank := by decide }]
  inside := []
  ending := [newline]
  start_blank := nil_blank
  inside_blank := nil_blank
  ending_blank := by decide

theorem freshObject_text (hkey : isKey key = true) (hvalue : isWhole value = true) :
    (freshObject hkey hvalue).text = freshText key value := by
  have hfront : lit "\x7b\n  \"version\": 1,\n  " = openBrace :: newline :: 0x20 :: 0x20 ::
      (quoted (lit "version") ++ jsonColon :: 0x20 :: (lit "1" ++
        comma :: newline :: 0x20 :: [0x20])) := by
    decide
  have hcolon : lit ": " = jsonColon :: [0x20] := by decide
  rw [freshText_eq, hfront]
  simp [Object.text, freshObject, between, back, Member.text, Member.afterKey, newMember, hcolon]

theorem freshObject_others (hkey : isKey key = true) (hvalue : isWhole value = true)
    (hname : plainName key = key) (hother : lit "version" ≠ key) :
    others key (freshObject hkey hvalue).members = [(lit "version", lit "1")] := by
  have hversion : plainName (lit "version") = lit "version" ∧ solid false (lit "1") = lit "1" := by
    decide
  simp [others, freshObject, hversion, hname, hother]

theorem firstReading_fresh (hkey : isKey key = true) (hvalue : isDigits value = true)
    (hline : lastNumeral key (lit "  \"version\": 1,") = none) :
    firstReading key (freshText key value) = some value := by
  have htext : freshText key value = [openBrace] ++ newline :: (lit "  \"version\": 1," ++
      newline :: (lit "  " ++ newMember key value ++ newline :: [closeBrace, newline])) := by
    have hfront : lit "\x7b\n  \"version\": 1,\n  " = [openBrace] ++ newline ::
        (lit "  \"version\": 1," ++ newline :: lit "  ") := rfl
    rw [freshText_eq, hfront]
    simp
  have hbrace : newline ∉ [openBrace] := by decide
  have hversion : newline ∉ lit "  \"version\": 1," := by decide
  have hindent : newline ∉ lit "  " := by decide
  have hmember : newline ∉ lit "  " ++ newMember key value := by
    rw [List.mem_append, not_or]
    exact ⟨hindent, newline_notMem_newMember hkey hvalue⟩
  have hfirst : lastNumeral key [openBrace] = none := by
    have hplain : ∀ c ∈ [openBrace], c ≠ jsonQuote := by simp [openBrace, jsonQuote]
    have hrest : lastNumeral key ([openBrace] ++ []) = lastNumeral key [] :=
      lastNumeral_plain hplain
    exact hrest
  have hblank : ∀ c ∈ lit "  ", c ≠ jsonQuote := by
    have hall : (lit "  ").all (fun c => c != jsonQuote) = true := rfl
    simpa using hall
  have hnew : lastNumeral key (newMember key value ++ []) =
      some ((lastNumeral key []).getD value) := lastNumeral_newMember hkey hvalue rfl
  rw [List.append_nil] at hnew
  rw [htext, firstReading, splitOn_separated hbrace, splitOn_separated hversion,
    splitOn_separated hmember, List.findSome?_cons, hfirst, List.findSome?_cons, hline,
    List.findSome?_cons, lastNumeral_plain hblank, hnew]
  rfl

end Fresh

section Texts

variable {key value : CString}

theorem getLast_text (d : Object) : ∀ c ∈ d.text.getLast?, isDigit c = false := by
  have hsuffix : closeBrace :: d.ending <:+ d.text :=
    ⟨d.start ++ openBrace :: between d.inside d.members, by simp [Object.text]⟩
  rw [getLast?_suffix hsuffix (by simp)]
  have hspace : ∀ n < 256, isSpace (UInt8.ofNat n) = true → isDigit (UInt8.ofNat n) = false := by
    decide +kernel
  intro c hc
  rcases List.mem_cons.mp (List.mem_of_getLast? hc) with rfl | hmem
  · decide
  · have hblank := hspace c.toNat c.toNat_lt
    rw [UInt8.ofNat_toNat] at hblank
    exact hblank (List.all_eq_true.mp d.ending_blank c hmem)

theorem newText_idle {text : CString} (h : Idle key value text) :
    newText key value text = text := by
  rw [newText, if_pos h.1]
  exact (strikes_sedNumeral key value false text).eq_of_settled h.2

theorem idle_of_prefix (hkey : isKey key = true) (hvalue : isDigits value = true) {d : Object}
    (h : d.text <+: newText key value d.text) : Idle key value d.text := by
  obtain ⟨extra, heq⟩ := h
  unfold newText at heq
  split_ifs at heq with hgrep
  · exact ⟨hgrep, (strikes_sedNumeral key value false d.text).settled_of_append hvalue
      (getLast_text d) heq.symm⟩
  · -- the fresh text has its first closing brace behind the key
    exfalso
    have hplain : closeBrace ∉ lit "\x7b\n  \"version\": 1,\n  " ++ (newMember key value ++
        [newline]) := by
      have hfront : closeBrace ∉ lit "\x7b\n  \"version\": 1,\n  " := by decide
      have hcolon : lit ": " = jsonColon :: [0x20] := by decide
      have hbytes : isDigit closeBrace = false ∧ isKeyByte closeBrace = false := by decide
      obtain ⟨-, hdigits⟩ := isDigits_iff.mp hvalue
      have hin : closeBrace ∉ value :=
        fun hmem => absurd (hbytes.1.symm.trans (hdigits _ hmem)) Bool.false_ne_true
      have hname : closeBrace ∉ key := fun hmem =>
        absurd (hbytes.2.symm.trans (List.all_eq_true.mp (isKey_all hkey) _ hmem))
          Bool.false_ne_true
      have hrest : closeBrace ∉ [jsonQuote, jsonColon, 0x20, newline] := by decide
      simp only [List.mem_cons, List.not_mem_nil, or_false, not_or] at hrest
      simp [newMember, quoted, hcolon, hfront, hin, hname, hrest]
    have hbrace : closeBrace ∈ d.text := by simp [Object.text]
    have hfresh : d.text <+: freshText key value := ⟨extra, heq⟩
    have hstart : lit "\x7b\n  \"version\": 1,\n  " ++ (newMember key value ++ [newline]) <+:
        freshText key value := ⟨[closeBrace, newline], by rw [freshText_eq]; simp⟩
    rcases List.prefix_or_prefix_of_prefix hfresh hstart with hin | hout
    · exact hplain (hin.subset hbrace)
    · obtain ⟨rest, hrest⟩ := hout
      have hnumeral : numeralMatch key (newMember key value ++ newline :: rest) =
          some (newline :: rest) := numeralMatch_newMember hvalue rfl
      have hfound := grepKey_of_match (lit "\x7b\n  \"version\": 1,\n  ") hnumeral
      have htext : lit "\x7b\n  \"version\": 1,\n  " ++ (newMember key value ++ newline :: rest) =
          d.text := by
        rw [← hrest]
        simp
      rw [htext] at hfound
      exact hgrep hfound

theorem newText_eq_iff (hkey : isKey key = true) (hvalue : isDigits value = true) (d : Object) :
    newText key value d.text = d.text ↔ Idle key value d.text := by
  constructor
  · intro h
    exact idle_of_prefix hkey hvalue ⟨[], by rw [List.append_nil, h]⟩
  · exact newText_idle

theorem take_newText_iff (hkey : isKey key = true) (hvalue : isDigits value = true) (d : Object)
    (n : ℕ) : (newText key value d.text).take n = d.text ↔
      Idle key value d.text ∧ d.text.length ≤ n := by
  constructor
  · intro h
    have hidle := idle_of_prefix hkey hvalue (h ▸ List.take_prefix n _)
    rw [newText_idle hidle, List.take_eq_self_iff] at h
    exact ⟨hidle, h⟩
  · rintro ⟨hidle, hle⟩
    rw [newText_idle hidle, List.take_of_length_le hle]

theorem keepsOthers_iff {d d' : Object} :
    KeepsOthers key d d'.text ↔ others key d'.members = others key d.members := by
  constructor
  · rintro ⟨d'', htext, hothers⟩
    have hpairs := between_cancel d'.start_blank d''.start_blank d'.inside_blank d''.inside_blank
      htext.symm
    have hof : ∀ ms : List Member, others key ms =
        ((ms.map Member.pair).map fun p => (plainName p.1, solid false p.2)).filter
          fun p => p.1 ≠ key := by
      intro ms
      rw [others, List.map_map]
      rfl
    rw [← hothers, hof, hof, hpairs]
  · exact fun h => ⟨d', rfl, h⟩

end Texts

section Success

variable {tool : Tool} {value : CString}

theorem read_newText (hsound : tool.Sound) {arg : CString}
    (hnormal : tool.normalize arg = some value) (text : CString) :
    tool.read (newText tool.key value text) = value ↔
      (grepKey tool.key text = true → tool.ReadsBack value text) := by
  have hwhole := hsound.whole hnormal
  rw [isWhole, Bool.and_eq_true] at hwhole
  have hlevel : (tool.normalize value).getD tool.standard = value := by
    rw [hsound.again hnormal]
    rfl
  unfold newText
  by_cases hgrep : grepKey tool.key text = true
  · rw [if_pos hgrep, Tool.read, firstReading_sed hsound.key hwhole.1, Tool.ReadsBack]
    cases hhits : (hits tool.key false 0 text).head? with
    | none => simp [hgrep, Tool.level]
    | some place =>
      cases hlater : laterNumeral tool.key place with
      | none => simp [hlater, hlevel]
      | some last => simp [hgrep, hlater, Tool.level]
  · rw [if_neg hgrep, Tool.read, firstReading_fresh hsound.key hwhole.1 hsound.line]
    simp [hgrep, hlevel]

theorem keepsOthers_newText (hsound : tool.Sound) (hwhole : isWhole value = true) (d : Object) :
    KeepsOthers tool.key d (newText tool.key value d.text) ↔
      if grepKey tool.key d.text = true then d.LeavesOthers tool.key value
      else others tool.key d.members = [(lit "version", lit "1")] := by
  unfold newText
  split_ifs with hgrep
  · obtain ⟨d', htext, hothers⟩ := exists_struck_object hsound.key hwhole d
    rw [← htext, keepsOthers_iff, hothers]
  · rw [← freshObject_text hsound.key hwhole, keepsOthers_iff,
      freshObject_others hsound.key hwhole hsound.name hsound.other]
    exact eq_comm

theorem settable_iff (hsound : tool.Sound) {arg : CString}
    (hnormal : tool.normalize arg = some value) (d : Object) :
    tool.read (newText tool.key value d.text) = value ∧
      KeepsOthers tool.key d (newText tool.key value d.text) ↔ Settable tool value d := by
  rw [read_newText hsound hnormal, keepsOthers_newText hsound (hsound.whole hnormal), Settable]
  split_ifs with hgrep
  · rw [and_comm]
    simp [hgrep]
  · simp [hgrep]

end Success

section Writes

variable {o : Outcomes} {arg value : CString} {files : Files} {d : Object}

theorem save_settings (files : Files) (copy : Written) :
    (files.save copy).settings = files.settings ∧ (files.save copy).temp = files.temp := by
  unfold Files.save
  cases files.backup <;> exact ⟨rfl, rfl⟩

theorem move_settings (files : Files) (works : Bool) :
    (files.move works).2.settings =
      if works then files.temp.getD files.settings else files.settings := by
  unfold Files.move
  cases files.temp <;> cases works <;> rfl

theorem writePersisted_eq (hnormal : normalizeVolume arg = some value) (o : Outcomes)
    (files : Files) :
    (writePersisted o arg files).1 = o.sync ∧
      (writePersisted o arg files).2.settings =
        if o.rename then (o.writing.left (newText volume.key value files.settings)
          files.temp).getD files.settings else files.settings := by
  obtain ⟨hsettings, htemp⟩ := save_settings files o.copy
  rw [writePersisted, hnormal]
  dsimp only
  refine ⟨rfl, ?_⟩
  rw [move_settings, hsettings, htemp]
  rfl

theorem writeSaved_eq (hnormal : normalizeBrightness arg = some value) (o : Outcomes)
    (files : Files) :
    (o.Fails → (writeSaved o arg files).1 = false ∧
      (writeSaved o arg files).2.settings = files.settings) ∧
    (¬o.Fails → (writeSaved o arg files).1 = true ∧
      (writeSaved o arg files).2.settings = newText display.key value files.settings) := by
  rw [writeSaved, hnormal]
  dsimp only
  unfold Outcomes.Fails
  cases o.mkdir with
  | false => simp
  | true =>
    by_cases hwriting : o.writing = .whole
    · cases hrename : o.rename with
      | false => simp [hwriting, Written.left, Files.move]
      | true =>
        simp only [hwriting, Written.left, Files.move]
        simp [display]
    · simp [hwriting]

theorem keeps_old (key : CString) (d : Object) : KeepsOthers key d d.text := ⟨d, rfl, rfl⟩

/-- Where a command fails, `write_persisted` leaves the text only if it moves nothing new. -/
theorem stays_iff (hnormal : normalizeVolume arg = some value) (hd : d.text = files.settings) :
    (writePersisted o arg files).2.settings = d.text ↔ Stays value o files := by
  have hkey := volume_sound.key
  have hwhole := volume_sound.whole hnormal
  rw [isWhole, Bool.and_eq_true] at hwhole
  rw [(writePersisted_eq hnormal o files).2, Stays]
  cases o.rename with
  | false => simp [hd]
  | true =>
    simp only [if_true, Bool.true_eq_false, false_or]
    cases o.writing with
    | whole =>
      show newText volume.key value files.settings = d.text ↔ Idle volume.key value files.settings
      rw [← hd, newText_eq_iff hkey hwhole.1]
    | refused =>
      show files.temp.getD files.settings = d.text ↔ _
      rw [hd]
      cases files.temp <;> simp
    | cut n =>
      show (newText volume.key value files.settings).take n = d.text ↔
        Idle volume.key value files.settings ∧ files.settings.length ≤ n
      rw [← hd, take_newText_iff hkey hwhole.1]

/-- A level is written as it should be exactly in these cases. For the brightness a failing
command is enough, for the volume it is not. -/
theorem persists_iff (o : Outcomes) (arg value : CString) (files : Files) (d : Object)
    (hd : d.text = files.settings) :
    (normalizeBrightness arg = some value →
      (Persists display value d o (writeSaved o arg files) ↔
        o.Fails ∨ Settable display value d)) ∧
    (normalizeVolume arg = some value →
      (Persists volume value d o (writePersisted o arg files) ↔
        (o.Fails → Harmless value o files) ∧
          (¬o.Fails → o.sync = false ∨ Settable volume value d))) := by
  constructor
  · intro hnormal
    obtain ⟨hfails, hworks⟩ := writeSaved_eq hnormal o files
    by_cases hfail : o.Fails
    · obtain ⟨hresult, hsettings⟩ := hfails hfail
      refine iff_of_true ⟨?_, fun _ => hsettings.trans hd.symm⟩ (Or.inl hfail)
      intro hok
      exact absurd (hresult.symm.trans hok) Bool.false_ne_true
    · obtain ⟨hresult, hsettings⟩ := hworks hfail
      rw [or_iff_right hfail, ← settable_iff display_sound hnormal, hd, ← hsettings]
      exact ⟨fun h => h.kept hresult, fun h => ⟨fun _ => h, fun h' => absurd h' hfail⟩⟩
  · intro hnormal
    obtain ⟨hresult, hsettings⟩ := writePersisted_eq hnormal o files
    have hstays := stays_iff (o := o) hnormal hd
    by_cases hfail : o.Fails
    · rw [and_iff_left fun h => absurd hfail h, imp_iff_right hfail, Harmless, ← hstays]
      constructor
      · rintro ⟨hkept, hfailed⟩
        refine ⟨hfailed hfail, ?_⟩
        cases hsync : o.sync with
        | false => exact Or.inl rfl
        | true =>
          have hread := (hkept (hresult.trans hsync)).1
          rw [hfailed hfail, hd] at hread
          exact Or.inr hread
      · rintro ⟨hsame, hread⟩
        refine ⟨fun hok => ?_, fun _ => hsame⟩
        rw [hsame]
        refine ⟨?_, keeps_old _ d⟩
        rcases hread with hsync | hread
        · rw [hresult, hsync] at hok
          cases hok
        · rw [hd]
          exact hread
    · have hnew : (writePersisted o arg files).2.settings =
          newText volume.key value files.settings := by
        unfold Outcomes.Fails at hfail
        rw [not_or, not_or, not_not] at hfail
        obtain ⟨-, hwriting, hrename⟩ := hfail
        rw [hsettings, hwriting, if_pos (by simpa using hrename)]
        rfl
      rw [and_iff_right fun h => absurd h hfail, imp_iff_right hfail,
        ← settable_iff volume_sound hnormal, hd, ← hnew]
      constructor
      · rintro ⟨hkept, -⟩
        cases hsync : o.sync with
        | false => exact Or.inl rfl
        | true => exact Or.inr (hkept (hresult.trans hsync))
      · intro h
        refine ⟨fun hok => ?_, fun h' => absurd h' hfail⟩
        rcases h with hsync | h
        · rw [hresult, hsync] at hok
          cases hok
        · exact h

/-- An object with one number. -/
def oneNumber (key value : CString) (hkey : isKey key = true) (hvalue : isWhole value = true) :
    Object where
  start := []
  members :=
    [{ lead := []
       key := key
       gap := []
       space := []
       value := value
       trail := []
       lead_blank := nil_blank
       key_escaped := escaped_key hkey
       gap_blank := nil_blank
       space_blank := nil_blank
       value_json := json_of_isWhole hvalue
       trail_blank := nil_blank }]
  inside := []
  ending := []
  start_blank := nil_blank
  inside_blank := nil_blank
  ending_blank := nil_blank

/-- All commands end well, up to the one that writes. -/
def ending (writing : Written) : Outcomes where
  mkdir := true
  copy := .whole
  writing := writing
  rename := true
  sync := true

/-- Settings that name the version only. -/
theorem persists_sample :
    Persists display (lit "7") (oneNumber (lit "version") (lit "1")
        (by decide +kernel) (by decide +kernel)) (ending .whole)
      (writeSaved (ending .whole) (lit "07") ⟨lit "\x7b\"version\":1\x7d", none, none⟩) ∧
    Persists volume (lit "7") (oneNumber (lit "version") (lit "1")
        (by decide +kernel) (by decide +kernel)) (ending .whole)
      (writePersisted (ending .whole) (lit "07") ⟨lit "\x7b\"version\":1\x7d", none, none⟩) := by
  have hboth := persists_iff (ending .whole) (lit "07") (lit "7")
    ⟨lit "\x7b\"version\":1\x7d", none, none⟩ (oneNumber (lit "version")
      (lit "1") (by decide +kernel) (by decide +kernel)) (by decide +kernel)
  have hfail : ¬(ending .whole).Fails := by simp [Outcomes.Fails, ending]
  refine ⟨(hboth.1 (by decide +kernel)).mpr (Or.inr ?_),
    (hboth.2 (by decide +kernel)).mpr ⟨fun h => absurd h hfail, fun _ => Or.inr ?_⟩⟩
  · rw [Settable, if_neg (by decide +kernel)]
    decide +kernel
  · rw [Settable, if_neg (by decide +kernel)]
    decide +kernel

/-- What `sed` has not written is lost, and so are the settings of which none is the volume. -/
theorem lost_with_volume :
    ¬Persists volume (lit "7") (oneNumber (lit "volume") (lit "5")
        (by decide +kernel) (by decide +kernel)) (ending (.cut 0))
      (writePersisted (ending (.cut 0)) (lit "7") ⟨lit "\x7b\"volume\":5\x7d", none, none⟩) ∧
    ¬Persists volume (lit "7") (oneNumber (lit "brightness") (lit "5")
        (by decide +kernel) (by decide +kernel)) (ending .whole)
      (writePersisted (ending .whole) (lit "7")
        ⟨lit "\x7b\"brightness\":5\x7d", none, none⟩) := by
  constructor
  · intro h
    have hempty := h.failed (Or.inr (Or.inl (by simp [ending])))
    revert hempty
    decide +kernel
  · intro h
    have hkept := (h.kept (by decide +kernel)).2
    have hnew : (writePersisted (ending .whole) (lit "7")
        ⟨lit "\x7b\"brightness\":5\x7d", none, none⟩).2.settings =
        (@freshObject (lit "volume") (lit "7") (by decide +kernel)
          (by decide +kernel)).text := by
      decide +kernel
    rw [hnew, keepsOthers_iff] at hkept
    revert hkept
    decide +kernel

end Writes

end PlumosBubble.Settings.Levels
