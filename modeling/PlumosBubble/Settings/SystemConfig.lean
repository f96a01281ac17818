import Mathlib.Data.Nat.Digits.Lemmas
import PlumosBubble.Frontend.JsonStrict
import PlumosBubble.Script.Basic
import PlumosBubble.Settings.Writers

/-! `save_system_config_number`, `save_system_config_bool` and `save_system_config_string`: the
literal of a value, the text that `replace_json_key_value_atomic` makes of the config, and the
calls by which it gets there, each of which may fail. -/

namespace PlumosBubble.Settings.SystemConfig

open Frontend Sequence Scripts

section Literals

/-- `%ld`. -/
def digits (n : ℕ) : CString :=
  if n = 0 then lit "0" else (Nat.digits 10 n).reverse.map fun d => 0x30 + UInt8.ofNat d

def numeral (value : ℤ) : CString :=
  (if value < 0 then lit "-" else []) ++ digits value.natAbs

/-- The loop of `append_json_string_literal`. -/
def appendBytes (size : ℕ) : CString → CString → Option CString
  | out, [] => some out
  | out, c :: s => (appendString size out (escapeByte fprintTable c)).bind fun out =>
      appendBytes size out s

/-- `append_json_string_literal`. -/
def appendJsonStringLiteral (size : ℕ) (s : CString) : Option CString :=
  (appendString size [] [jsonQuote]).bind fun out =>
    (appendBytes size out s).bind fun out => appendString size out [jsonQuote]

/-- A key that fits into the pattern of `json_find_key_value`. -/
structure SystemKey where
  name : CString
  is_key : isKey name = true
  fits : name.length + 3 ≤ 128

/-- The keys that the callers pass. -/
def systemKeys : List CString :=
  [lit "volume", lit "brightness", lit "lumination", lit "contrast", lit "hue",
    lit "saturation", lit "wifi_enabled", lit "automatic_time", lit "lid_suspend_enabled",
    lit "language", lit "timezone", lit "audio_output"]

theorem systemKeys_fit : ∀ name ∈ systemKeys, isKey name = true ∧ name.length + 3 ≤ 128 := by
  decide

/-- What the three functions save; a `long` always fits into its array. -/
inductive SystemValue where
  | number (value : Int64)
  | bool (value : Bool)
  | string (value : CString)

def SystemValue.literal : SystemValue → Option CString
  | number value => some (numeral value.toInt)
  | bool value => some (if value then lit "true" else lit "false")
  | string value => appendJsonStringLiteral 512 value

/-- What the text of a string stands for. -/
inductive Spells : CString → CString → Prop
  | nil : Spells [] []
  | plain {c : UInt8} {t s : CString} (hquote : c ≠ jsonQuote) (hescape : c ≠ jsonEscape)
      (hcontrol : ¬c < 0x20) (ht : Spells t s) : Spells (c :: t) (c :: s)
  | letter {c : UInt8} {t s : CString} (hc : c ∈ lit "\"\\/bfnrt") (ht : Spells t s) :
      Spells (jsonEscape :: c :: t) (unescaped c :: s)
  | unicode {c : UInt8} {t s : CString} (hc : c < 0x80) (ht : Spells t s) :
      Spells (jsonEscape :: 0x75 :: hexByte c ++ t) (c :: s)

/-- What a numeral stands for. -/
def numberValue : CString → ℤ
  | [] => 0
  | c :: s => if c = 0x2d then -(decimal s : ℤ) else decimal (c :: s)

/-- The literal stands for the value. -/
def SystemValue.Denotes (literal : CString) : SystemValue → Prop
  | number value => IsNumber literal ∧ numberValue literal = value.toInt
  | bool value => literal = if value then lit "true" else lit "false"
  | string value => ∃ text, literal = quoted text ∧ Spells text value

end Literals

section Program

/-- The config, its temporary file, its backup and the temporary file of that. -/
inductive ConfigPath where
  | config
  | temp
  | backup
  | backupTemp
  deriving DecidableEq

/-- What the files hold. -/
abbrev ConfigFiles := ConfigPath → Option CString

abbrev Saving (α : Type) : Type 1 := Script ConfigFiles Empty α

/-- A call that works or fails, and changes no file either way. -/
def mayFail : Saving Bool := Script.run fun s => [(true, s), (false, s)]

/-- `read_file`. -/
def readFile (path : ConfigPath) : Saving (Option CString) :=
  Script.run fun s => [(s path, s), (none, s)]

/-- `file_exists`. -/
def fileExists (path : ConfigPath) : Saving Bool := Script.read fun s => (s path).isSome

/-- `fopen(path, "wb")`. -/
def fopen (path : ConfigPath) : Saving Bool :=
  Script.run fun s => [(true, Function.update s path (some [])), (false, s)]

/-- The calls that print a text and flush it: a part of it is written where one of them fails,
which that call says. -/
def print (path : ConfigPath) (text : CString) : Saving Bool :=
  Script.run fun s =>
    (true, Function.update s path (some text)) ::
      (List.range (text.length + 1)).map fun n =>
        (false, Function.update s path (some (text.take n)))

def rename (tmp path : ConfigPath) : Saving Bool :=
  Script.run fun s =>
    match s tmp with
    | some text =>
      [(true, Function.update (Function.update s path (some text)) tmp none), (false, s)]
    | none => [(false, s)]

/-- `unlink`, whose result nobody reads. -/
def unlink (path : ConfigPath) : Saving Unit :=
  Script.run fun s => [((), Function.update s path none), ((), s)]

/-- `unlink(tmp_path); return 0;` -/
def giveUp (tmp : ConfigPath) : Saving Bool := do
  unlink tmp
  pure false

def afterRename (tmp : ConfigPath) (renamed : Bool) : Saving Bool :=
  if renamed then pure true else giveUp tmp

/-- `fsync`, `fclose` and `rename`. -/
def install (tmp path : ConfigPath) : Saving Bool := do
  let synced ← mayFail
  let closed ← mayFail
  if synced && closed then do
    let renamed ← rename tmp path
    afterRename tmp renamed
  else giveUp tmp

def afterPrint (tmp path : ConfigPath) (written : Bool) : Saving Bool :=
  if written then install tmp path else giveUp tmp

/-- What follows `fopen`. -/
def writeOpened (tmp path : ConfigPath) (text : CString) (opened : Bool) : Saving Bool :=
  if opened then do
    let written ← print tmp text
    afterPrint tmp path written
  else pure false

/-- `write_buffer_atomic`. -/
def writeBufferAtomic (path tmp : ConfigPath) (data : CString) : Saving Bool := do
  let opened ← fopen tmp
  writeOpened tmp path data opened

/-- `ensure_system_config_backup`; its two paths may be too long. -/
def ensureSystemConfigBackup (data : CString) : Saving Bool := do
  let fits ← mayFail
  if fits then do
    let present ← fileExists .backup
    if present then pure true else writeBufferAtomic .backup .backupTemp data
  else pure false

/-- What follows `ensure_system_config_backup`: the calls of `write_buffer_atomic` again. -/
def writeText (text : CString) (saved : Bool) : Saving Bool :=
  if saved then writeBufferAtomic .config .temp text else pure false

/-- What follows `read_file`. -/
def replaceIn (key literal : CString) : Option CString → Saving Bool
  | none => pure false
  | some json =>
    match replaceJsonKeyValue key literal json with
    | none => pure false
    | some text => do
      let saved ← ensureSystemConfigBackup json
      writeText text saved

/-- `replace_json_key_value_atomic`; the path of the temporary file may be too long. -/
def replaceJsonKeyValueAtomic (key literal : CString) : Saving Bool := do
  let fits ← mayFail
  if fits && key ≠ [] then do
    let json ← readFile .config
    replaceIn key literal json
  else pure false

/-- What the three functions do with a literal, or where there is none. -/
def saveLiteral (key : CString) : Option CString → Saving Bool
  | none => pure false
  | some literal => replaceJsonKeyValueAtomic key literal

/-- `save_system_config_number`. -/
def saveSystemConfigNumber (key : CString) (value : Int64) : Saving Bool :=
  saveLiteral key (SystemValue.number value).literal

/-- `save_system_config_bool`. -/
def saveSystemConfigBool (key : CString) (value : Bool) : Saving Bool :=
  saveLiteral key (SystemValue.bool value).literal

/-- `save_system_config_string`. -/
def saveSystemConfigString (key value : CString) : Saving Bool :=
  saveLiteral key (SystemValue.string value).literal

def saveSystemConfig (key : CString) : SystemValue → Saving Bool
  | .number value => saveSystemConfigNumber key value
  | .bool value => saveSystemConfigBool key value
  | .string value => saveSystemConfigString key value

end Program

section Values

theorem Spells.stringText {t s : CString} (h : Spells t s) : StringText t := by
  induction h with
  | nil => exact .nil
  | plain hquote hescape hcontrol _ ih => exact .plain hquote hescape hcontrol ih
  | letter hc _ ih => exact .letter hc ih
  | @unicode c t s hc _ ih =>
    have hall : ∀ n < 128, (hexByte (UInt8.ofNat n)).length = 4 ∧
        (hexByte (UInt8.ofNat n)).all isHexDigit = true := by
      decide
    have hbyte := hall c.toNat (UInt8.lt_iff_toNat_lt.mp hc)
    rw [UInt8.ofNat_toNat] at hbyte
    exact .unicode hbyte.1 hbyte.2 ih

theorem spells_escapeByte {c : UInt8} {t s : CString} (h : Spells t s) :
    Spells (escapeByte fprintTable c ++ t) (c :: s) := by
  unfold escapeByte
  by_cases hmark : c = jsonQuote ∨ c = jsonEscape
  · have hsame : unescaped c = c ∧ c ∈ lit "\"\\/bfnrt" := by
      rcases hmark with rfl | rfl <;> decide +kernel
    have hletter := Spells.letter hsame.2 h
    rw [hsame.1] at hletter
    rw [if_pos hmark]
    exact hletter
  · rw [if_neg hmark]
    rw [not_or] at hmark
    cases hletter : fprintTable.letter c with
    | some l =>
      have hmem : l ∈ lit "\"\\/bfnrt" := by
        have hl : l ∈ [0x6e, 0x72, 0x74] := by
          simp only [fprintTable] at hletter
          split_ifs at hletter <;> cases hletter <;> simp
        have hall : ∀ l ∈ [0x6e, 0x72, 0x74], l ∈ lit "\"\\/bfnrt" := by decide +kernel
        exact hall l hl
      have hspells := Spells.letter hmem h
      rw [(fprintTable.reads c l hletter).2] at hspells
      exact hspells
    | none =>
      by_cases hcontrol : c < 0x20
      · simp only [hcontrol, if_true]
        have hsmall : c < 0x80 := by
          rw [UInt8.lt_iff_toNat_lt] at hcontrol ⊢
          exact lt_trans hcontrol (by decide)
        exact .unicode hsmall h
      · simp only [hcontrol, if_false]
        exact .plain hmark.1 hmark.2 hcontrol h

theorem spells_escaped (s : CString) : Spells (escaped fprintTable s) s := by
  induction s with
  | nil => exact .nil
  | cons c s ih =>
    have hcons : escaped fprintTable (c :: s) =
        escapeByte fprintTable c ++ escaped fprintTable s := List.flatMap_cons
    rw [hcons]
    exact spells_escapeByte ih

theorem appendString_eq {size : ℕ} {out s t : CString} (h : appendString size out s = some t) :
    t = out ++ s := by
  unfold appendString at h
  split_ifs at h
  exact (Option.some_inj.mp h).symm

theorem appendBytes_eq {size : ℕ} {out s t : CString} (h : appendBytes size out s = some t) :
    t = out ++ escaped fprintTable s := by
  induction s generalizing out with
  | nil =>
    cases h
    simp [escaped]
  | cons c s ih =>
    obtain ⟨next, hnext, hrest⟩ := Option.bind_eq_some_iff.mp h
    rw [ih hrest, appendString_eq hnext, List.append_assoc]
    rfl

theorem appendJsonStringLiteral_eq {size : ℕ} {s t : CString}
    (h : appendJsonStringLiteral size s = some t) : t = quoted (escaped fprintTable s) := by
  obtain ⟨first, hfirst, hrest⟩ := Option.bind_eq_some_iff.mp h
  obtain ⟨second, hsecond, hlast⟩ := Option.bind_eq_some_iff.mp hrest
  rw [appendString_eq hlast, appendBytes_eq hsecond, appendString_eq hfirst]
  rfl

theorem digit_byte {d : ℕ} (h : d < 10) :
    isDigit (0x30 + UInt8.ofNat d) = true ∧ (0x30 + UInt8.ofNat d).toNat - 0x30 = d ∧
      (0x30 + UInt8.ofNat d = 0x30 → d = 0) := by
  have hall : ∀ d < 10, isDigit (0x30 + UInt8.ofNat d) = true ∧
      (0x30 + UInt8.ofNat d).toNat - 0x30 = d ∧ (0x30 + UInt8.ofNat d = 0x30 → d = 0) := by
    decide
  exact hall d h

theorem isWhole_digits (n : ℕ) : isWhole (digits n) = true := by
  by_cases hn : n = 0
  · subst hn
    decide
  · have hne : (Nat.digits 10 n).reverse ≠ [] := by
      simpa using Nat.digits_ne_nil_iff_ne_zero.mpr hn
    have hlt : ∀ d ∈ (Nat.digits 10 n).reverse, d < 10 :=
      fun d hd => Nat.digits_lt_base (by norm_num) (List.mem_reverse.mp hd)
    have hhead : ((Nat.digits 10 n).reverse).head hne ≠ 0 := by
      rw [List.head_reverse]
      exact Nat.getLast_digit_ne_zero 10 hn
    have hdigits : isDigits (digits n) = true := by
      unfold digits
      rw [if_neg hn, isDigits_iff]
      refine ⟨by simpa using hne, fun c hc => ?_⟩
      obtain ⟨d, hd, rfl⟩ := List.mem_map.mp hc
      exact (digit_byte (hlt d hd)).1
    simp only [isWhole, hdigits, Bool.true_and, Bool.or_eq_true, decide_eq_true_eq]
    refine Or.inl fun hzero => hhead ?_
    unfold digits at hzero
    rw [if_neg hn, List.head?_map, List.head?_eq_some_head hne, Option.map_some,
      Option.some_inj] at hzero
    exact (digit_byte (hlt _ (List.head_mem hne))).2.2 hzero

theorem decimal_digits (n : ℕ) : decimal (digits n) = n := by
  by_cases hn : n = 0
  · subst hn
    decide
  · have hfold : ∀ ds : List ℕ, (∀ d ∈ ds, d < 10) →
        decimal (ds.reverse.map fun d => 0x30 + UInt8.ofNat d) = Nat.ofDigits 10 ds := by
      intro ds hds
      unfold decimal
      rw [List.foldl_map, List.foldl_reverse]
      induction ds with
      | nil => rfl
      | cons d ds ih =>
        rw [List.foldr_cons, ih fun e he => hds e (List.mem_cons_of_mem _ he),
          (digit_byte (hds d List.mem_cons_self)).2.1, Nat.ofDigits_cons]
        simp [Nat.add_comm]
    unfold digits
    rw [if_neg hn, hfold _ fun d hd => Nat.digits_lt_base (by norm_num) hd, Nat.ofDigits_digits]

theorem numeral_spec (value : ℤ) :
    IsNumber (numeral value) ∧ numberValue (numeral value) = value := by
  have hminus : lit "-" = [0x2d] := by decide
  have hwhole := isWhole_digits value.natAbs
  constructor
  · have hsign : (if value < 0 then lit "-" else []) ∈ [[], lit "-"] := by
      split_ifs <;> simp
    have hnumber := IsNumber.mk hsign hwhole .none .none
    simpa [numeral] using hnumber
  · unfold numeral
    by_cases hneg : value < 0
    · rw [if_pos hneg, hminus]
      simp only [List.cons_append, List.nil_append, numberValue, if_true, decimal_digits]
      omega
    · rw [if_neg hneg, List.nil_append]
      cases hdigits : digits value.natAbs with
      | nil =>
        rw [hdigits] at hwhole
        cases hwhole
      | cons c s =>
        have hc : c ≠ 0x2d := by
          rintro rfl
          have hall := (isDigits_iff.mp (Bool.and_eq_true_iff.mp hwhole).1).2 0x2d
            (by rw [hdigits]; exact List.mem_cons_self)
          revert hall
          decide
        rw [numberValue, if_neg hc, ← hdigits, decimal_digits]
        omega

theorem SystemValue.literal_spec {value : SystemValue} {literal : CString}
    (h : value.literal = some literal) (N : CString → Prop) :
    Strict N .value literal ∧ value.Denotes literal := by
  cases value with
  | number value =>
    cases h
    obtain ⟨hnumber, hvalue⟩ := numeral_spec value.toInt
    exact ⟨.number hnumber, hnumber, hvalue⟩
  | bool value =>
    cases h
    refine ⟨.word ?_, rfl⟩
    cases value <;> simp
  | string value =>
    have hspells := spells_escaped value
    rw [appendJsonStringLiteral_eq h]
    exact ⟨.string hspells.stringText, _, rfl, hspells⟩

end Values

section Edit

variable {key literal text : CString} {pairs : List (CString × CString)}

/-- A valid object with no escapes in its names, in which only a member at the top can have the
key, and at most one of them has it. -/
structure Editable (key : CString) (pairs : List (CString × CString)) (text : CString) : Prop where
  object : ObjectText (OtherName key) pairs text
  plain : ∀ p ∈ pairs, jsonEscape ∉ p.1
  once : (pairs.map Prod.fst).count key ≤ 1

theorem isKey_plain (hkey : isKey key = true) : jsonEscape ∉ key := by
  intro hmem
  exact (isKeyByte_ne (List.all_eq_true.mp (isKey_all hkey) _ hmem)).2.1 rfl

theorem stringText_plain {s : CString}
    (h : ∀ c ∈ s, c ≠ jsonQuote ∧ c ≠ jsonEscape ∧ ¬c < 0x20) : StringText s := by
  induction s with
  | nil => exact .nil
  | cons c s ih =>
    obtain ⟨hquote, hescape, hcontrol⟩ := h c List.mem_cons_self
    exact .plain hquote hescape hcontrol (ih fun d hd => h d (List.mem_cons_of_mem _ hd))

theorem stringText_of_isKey (hkey : isKey key = true) : StringText key :=
  stringText_plain fun _ hc => isKeyByte_not_control (List.all_eq_true.mp (isKey_all hkey) _ hc)

theorem memberText_new (hkey : isKey key = true) (hliteral : Strict (OtherName key) .value literal)
    {lead : CString} (hlead : lead.all isBlank = true) :
    MemberText (OtherName key) (key, literal)
      (lead ++ quoted key ++ lit ": " ++ literal ++ lit "\n") := by
  have hcolon : lit ": " = jsonColon :: lit " " := by decide
  have htext : lead ++ quoted key ++ lit ": " ++ literal ++ lit "\n" =
      lead ++ quoted key ++ [] ++ jsonColon :: (lit " " ++ literal ++ lit "\n") := by
    simp [hcolon]
  rw [htext]
  exact .mk hlead (stringText_of_isKey hkey) rfl (by decide) hliteral (by decide)

theorem append_object (hkey : isKey key = true) (h : ObjectText (OtherName key) pairs text)
    (hliteral : Strict (OtherName key) .value literal) :
    ∃ new, appendJsonKeyValue key literal text = some new ∧
      ObjectText (OtherName key) (pairs ++ [(key, literal)]) new := by
  have hlead : (lit "\n" ++ lit "  ").all isBlank = true := by decide
  have hcomma : lit ",\n" = comma :: lit "\n" := by decide
  have hmember := memberText_new hkey hliteral hlead
  cases h with
  | @empty start inside ending hstart hinside hending =>
    have hnil : inside.rdropWhile isSpace = [] := rdropWhile_all (blank_space hinside)
    have hskip : skipWsRange [] = [] := rfl
    refine ⟨_, appendJsonKeyValue_braces hkey (blank_space hstart) (blank_space hending), ?_⟩
    rw [hnil, if_pos hskip, List.nil_append]
    have hobject := ObjectText.full hstart (.last hmember) hending
    simpa using hobject
  | @full start body ending _ hstart hbody hending =>
    obtain ⟨s, c, g, rfl, hc, hg, htrimmed⟩ := hbody.trim
    have htrim : (s ++ [c] ++ g).rdropWhile isSpace = s ++ [c] := rdropWhile_blank hc hg
    have hskip : skipWsRange (s ++ [c]) ≠ [] := by
      unfold skipWsRange
      rw [Ne, List.dropWhile_eq_nil_iff]
      intro hall
      have hblank := hall c (by simp)
      rw [hc] at hblank
      cases hblank
    refine ⟨_, appendJsonKeyValue_braces hkey (blank_space hstart) (blank_space hending), ?_⟩
    rw [htrim, if_neg hskip, hcomma]
    have hobject := ObjectText.full hstart (htrimmed.push hmember) hending
    simpa using hobject

theorem replace_object (hkey : isKey key = true) (h : ObjectText (OtherName key) pairs text)
    (hplain : ∀ p ∈ pairs, jsonEscape ∉ p.1) (hmem : key ∈ pairs.map Prod.fst)
    (hliteral : Strict (OtherName key) .value literal) :
    ∃ new, replaceJsonKeyValue key literal text = some new ∧
      ObjectText (OtherName key) (assign key literal pairs) new := by
  cases h with
  | empty => cases hmem
  | @full start body ending _ hstart hbody hending =>
    obtain ⟨before, old, after, rfl, hold, hfind, hedit⟩ := hbody.edit hkey hplain hmem
    obtain ⟨hends, hhit⟩ := hfind ending
    have hsplit : start ++ openBrace :: (before ++ (old ++ after)) ++ closeBrace :: ending =
        start ++ openBrace :: before ++ (old ++ (after ++ closeBrace :: ending)) := by
      simp
    have hsearch : jsonFindKeyValue key
        (start ++ openBrace :: before ++ (old ++ (after ++ closeBrace :: ending))) =
          some (old ++ (after ++ closeBrace :: ending)) := by
      have htext : start ++ openBrace :: before ++ (old ++ (after ++ closeBrace :: ending)) =
          start ++ ([openBrace] ++ (before ++ (old ++ after) ++ closeBrace :: ending)) := by
        simp
      rw [htext, skips_plain (blank_plain (blank_space hstart)),
        skips_byte (by decide) (by decide), hhit]
    rw [hsplit, replaceJsonKeyValue_value hold hends hsearch]
    refine ⟨_, rfl, ?_⟩
    have hobject := ObjectText.full hstart (hedit literal hliteral) hending
    simpa using hobject

theorem count_assign : ((assign key literal pairs).map Prod.fst).count key ≤
    max 1 ((pairs.map Prod.fst).count key) := by
  induction pairs with
  | nil => simp [assign]
  | cons p pairs ih =>
    unfold assign
    by_cases hp : p.1 = key
    · rw [if_pos hp]
      simp [hp]
    · rw [if_neg hp]
      simpa [List.count_cons, hp] using ih

theorem mem_assign {p : CString × CString} (h : p ∈ assign key literal pairs) :
    p = (key, literal) ∨ p ∈ pairs := by
  induction pairs with
  | nil => simpa [assign] using h
  | cons q pairs ih =>
    unfold assign at h
    split_ifs at h with hq
    · rcases List.mem_cons.mp h with rfl | h
      · exact Or.inl rfl
      · exact Or.inr (List.mem_cons_of_mem _ h)
    · rcases List.mem_cons.mp h with rfl | h
      · exact Or.inr List.mem_cons_self
      · exact (ih h).imp_right (List.mem_cons_of_mem _)

theorem Editable.replace (hkey : isKey key = true) (h : Editable key pairs text)
    (hliteral : Strict (OtherName key) .value literal) :
    ∃ new, replaceJsonKeyValue key literal text = some new ∧
      Editable key (assign key literal pairs) new := by
  have hobject : ∃ new, replaceJsonKeyValue key literal text = some new ∧
      ObjectText (OtherName key) (assign key literal pairs) new := by
    by_cases hmem : key ∈ pairs.map Prod.fst
    · exact replace_object hkey h.object h.plain hmem hliteral
    · have hnames : ∀ p ∈ pairs, OtherName key p.1 := fun p hp =>
        ⟨h.plain p hp, fun heq => hmem (List.mem_map.mpr ⟨p, hp, heq⟩)⟩
      rw [assign_of_notMem hmem, replaceJsonKeyValue, h.object.skips hkey hnames]
      exact append_object hkey h.object hliteral
  obtain ⟨new, hnew, hobject⟩ := hobject
  refine ⟨new, hnew, hobject, fun p hp => ?_, count_assign.trans (max_le le_rfl h.once)⟩
  rcases mem_assign hp with rfl | hp
  · exact isKey_plain hkey
  · exact h.plain p hp

end Edit

section Runs

variable {old new : CString} {s : ConfigFiles} {path tmp : ConfigPath}

/-- The config holds this text. -/
def Holds (text : CString) (s : ConfigFiles) : Prop := s .config = some text

/-- The config is the old one or the new one. -/
def Either (old new : CString) (s : ConfigFiles) : Prop := Holds old s ∨ Holds new s

/-- The config is the new one exactly where the run says so. -/
def Saved (old new : CString) (ok : Bool) (s : ConfigFiles) : Prop :=
  Holds (if ok then new else old) s

/-- The new text is in the temporary file. -/
def Ready (old new : CString) (s : ConfigFiles) : Prop := Holds old s ∧ s .temp = some new

theorem holds_update (hpath : path ≠ .config) (value : Option CString) (hs : Holds old s) :
    Holds old (Function.update s path value) := by
  unfold Holds
  rw [Function.update_of_ne (Ne.symm hpath)]
  exact hs

theorem keeps_mayFail {P : ConfigFiles → Prop} : Keeps P mayFail :=
  .run (fun _ => List.cons_ne_nil _ _) fun s hs o ho => by
    rcases mem_pair ho with rfl | rfl <;> exact hs

theorem keeps_fopen (hpath : path ≠ .config) : Keeps (Holds old) (fopen path) :=
  .run (fun _ => List.cons_ne_nil _ _) fun s hs o ho => by
    rcases mem_pair ho with rfl | rfl
    · exact holds_update hpath _ hs
    · exact hs

theorem keeps_print (hpath : path ≠ .config) (text : CString) :
    Keeps (Holds old) (print path text) :=
  .run (fun _ => List.cons_ne_nil _ _) fun s hs o ho => by
    rcases List.mem_cons.mp ho with rfl | ho
    · exact holds_update hpath _ hs
    · obtain ⟨n, -, rfl⟩ := List.mem_map.mp ho
      exact holds_update hpath _ hs

theorem keeps_unlink (hpath : path ≠ .config) : Keeps (Holds old) (unlink path) :=
  .run (fun _ => List.cons_ne_nil _ _) fun s hs o ho => by
    rcases mem_pair ho with rfl | rfl
    · exact holds_update hpath none hs
    · exact hs

theorem keeps_giveUp (hpath : path ≠ .config) : Keeps (Holds old) (giveUp path) :=
  .bind (keeps_unlink hpath) fun _ => .pure false

theorem keeps_rename (htmp : tmp ≠ .config) (hpath : path ≠ .config) :
    Keeps (Holds old) (rename tmp path) := by
  refine .run (fun s => ?_) fun s hs o ho => ?_
  · cases s tmp <;> exact List.cons_ne_nil _ _
  · cases hfile : s tmp with
    | none =>
      rw [hfile] at ho
      rw [List.mem_singleton.mp ho]
      exact hs
    | some text =>
      rw [hfile] at ho
      rcases mem_pair ho with rfl | rfl
      · exact holds_update htmp none (holds_update hpath _ hs)
      · exact hs

theorem keeps_writeBufferAtomic (htmp : tmp ≠ .config) (hpath : path ≠ .config)
    (data : CString) : Keeps (Holds old) (writeBufferAtomic path tmp data) := by
  have hafter : ∀ renamed, Keeps (Holds old) (afterRename tmp renamed) :=
    fun _ => .ite (.pure true) (keeps_giveUp htmp)
  have hinstall : Keeps (Holds old) (install tmp path) :=
    .bind keeps_mayFail fun _ => .bind keeps_mayFail fun _ =>
      .ite (.bind (keeps_rename htmp hpath) hafter) (keeps_giveUp htmp)
  exact .bind (keeps_fopen htmp) fun _ =>
    .ite (.bind (keeps_print htmp data) fun _ => .ite hinstall (keeps_giveUp htmp)) (.pure false)

theorem keeps_backup (data : CString) : Keeps (Holds old) (ensureSystemConfigBackup data) :=
  .bind keeps_mayFail fun _ =>
    .ite (.bind (.read _) fun _ =>
      .ite (.pure true) (keeps_writeBufferAtomic (by decide) (by decide) data)) (.pure false)

abbrev Does (old new : CString) (m : Saving Bool) (s : ConfigFiles) : Prop :=
  wp (Either old new) (Saved old new) (fun _ _ => False) m s

theorem does_bind {α : Type} {m : Saving α} {f : α → Saving Bool} (hm : Keeps (Holds old) m)
    (hs : Holds old s) (hf : ∀ a t, Holds old t → Does old new (f a) t) :
    Does old new (m >>= f) s := by
  unfold Does
  rw [wp_bind]
  exact wp_mono (hm.stays s hs) (fun _ ht => Or.inl ht) (fun a t ht => hf a t ht)
    fun e => e.elim

theorem does_false (hs : Holds old s) : Does old new (pure false) s := hs

theorem does_giveUp (hs : Holds old s) : Does old new (giveUp .temp) s :=
  does_bind (keeps_unlink (by decide)) hs fun _ _ ht => does_false ht

theorem does_rename (hs : Ready old new s) :
    Does old new (rename .temp .config >>= afterRename .temp) s := by
  unfold Does
  rw [wp_bind]
  unfold rename
  rw [wp_run, hs.2]
  refine ⟨List.cons_ne_nil _ _, fun o ho => ?_⟩
  rcases mem_pair ho with rfl | rfl
  · have hnew : Holds new (Function.update (Function.update s .config (some new)) .temp none) :=
      holds_update (by decide) none (Function.update_self ..)
    exact ⟨Or.inr hnew, hnew⟩
  · exact ⟨Or.inl hs.1, does_giveUp hs.1⟩

theorem does_install (hs : Ready old new s) : Does old new (install .temp .config) s := by
  have hready : ∀ t, Ready old new t → Either old new t := fun _ ht => Or.inl ht.1
  unfold Does install
  rw [wp_bind]
  refine wp_mono (keeps_mayFail.stays s hs) hready (fun synced t ht => ?_) fun e => e.elim
  rw [wp_bind]
  refine wp_mono (keeps_mayFail.stays t ht) hready (fun closed u hu => ?_) fun e => e.elim
  split
  · exact does_rename hu
  · exact does_giveUp hu.1

/-- `write_buffer_atomic` on the config. -/
theorem does_writeBufferAtomic (hs : Holds old s) :
    Does old new (writeBufferAtomic .config .temp new) s := by
  refine does_bind (keeps_fopen (by decide)) hs fun opened t ht => ?_
  unfold writeOpened
  split
  · unfold Does print
    rw [wp_bind, wp_run]
    refine ⟨List.cons_ne_nil _ _, fun o ho => ?_⟩
    rcases List.mem_cons.mp ho with rfl | ho
    · have htext : Holds old (Function.update t .temp (some new)) :=
        holds_update (by decide) _ ht
      have htemp : Function.update t .temp (some new) .temp = some new := Function.update_self ..
      exact ⟨Or.inl htext, does_install ⟨htext, htemp⟩⟩
    · obtain ⟨n, -, rfl⟩ := List.mem_map.mp ho
      have htext : Holds old (Function.update t .temp (some (new.take n))) :=
        holds_update (by decide) _ ht
      exact ⟨Or.inl htext, does_giveUp htext⟩
  · exact does_false ht

/-- A run of `replace_json_key_value_atomic`, by the text that it writes. -/
theorem does_replace {key literal : CString} (hs : Holds old s)
    (hnew : replaceJsonKeyValue key literal old = some new) :
    Does old new (replaceJsonKeyValueAtomic key literal) s := by
  refine does_bind keeps_mayFail hs fun fits t ht => ?_
  split
  · unfold Does readFile
    rw [wp_bind, wp_run]
    refine ⟨List.cons_ne_nil _ _, fun o ho => ?_⟩
    rcases mem_pair ho with rfl | rfl
    · rw [show t .config = some old from ht]
      refine ⟨Or.inl ht, ?_⟩
      simp only [replaceIn, hnew]
      refine does_bind (keeps_backup old) ht fun saved u hu => ?_
      unfold writeText
      split
      · exact does_writeBufferAtomic hu
      · exact does_false hu
    · exact ⟨Or.inl ht, does_false ht⟩
  · exact does_false ht

/-- What a run of one of the three functions has done when it returns: where it returns 1, the
config is a valid object again, in which the key has the value and all other members are as they
were; where it returns 0, the config is the same. -/
theorem system_config_edit (key : SystemKey) (value : SystemValue)
    {pairs : List (CString × CString)} {text : CString} (h : Editable key.name pairs text)
    {s t : ConfigFiles} (hs : s .config = some text) {ok : Bool}
    (hrun : (saveSystemConfig key.name value).Returns s ok t) :
    (ok = true → ∃ literal new, t .config = some new ∧ value.Denotes literal ∧
      Editable key.name (assign key.name literal pairs) new) ∧
    (ok = false → t .config = some text) := by
  have hsave : saveSystemConfig key.name value = saveLiteral key.name value.literal := by
    cases value <;> rfl
  rw [hsave] at hrun
  cases hliteral : value.literal with
  | none =>
    rw [hliteral] at hrun
    have hnone : wp (Holds text) (fun ok t => ok = false ∧ Holds text t) (fun _ _ => False)
        (saveLiteral key.name none) s := ⟨rfl, hs⟩
    obtain ⟨hok, ht⟩ := returns_of_wp hnone hs hrun
    refine ⟨fun htrue => ?_, fun _ => ht⟩
    rw [hok] at htrue
    cases htrue
  | some literal =>
    rw [hliteral] at hrun
    obtain ⟨hstrict, hdenotes⟩ := value.literal_spec hliteral (OtherName key.name)
    obtain ⟨new, hnew, hedit⟩ := h.replace key.is_key hstrict
    have hsaved : Saved text new ok t := returns_of_wp (does_replace hs hnew) (Or.inl hs) hrun
    constructor
    · rintro rfl
      exact ⟨literal, new, hsaved, hdenotes, hedit⟩
    · rintro rfl
      exact hsaved

/-- A config with braces, commas and an array inside of a member, and with blanks. -/
def sampleText : CString :=
  lit "\x7b \"hdmi\":\x7b\"modes\":[\"a, \x7d\"]\x7d,\n \"volume\" : 12 \x7d\n"

def samplePairs : List (CString × CString) :=
  [(lit "hdmi", lit "\x7b\"modes\":[\"a, \x7d\"]\x7d"), (lit "volume", lit "12")]

theorem sample_editable : Editable (lit "volume") samplePairs sampleText := by
  have hitem : Strict (OtherName (lit "volume")) .item ([] ++ quoted (lit "a, \x7d") ++ []) :=
    .item rfl (.string (stringText_plain (by decide +kernel))) rfl
  have hmodes : Strict (OtherName (lit "volume")) .member
      ([] ++ quoted (lit "modes") ++ [] ++ jsonColon ::
        ([] ++ bracketed ([] ++ quoted (lit "a, \x7d") ++ []) ++ [])) :=
    .member rfl (stringText_plain (by decide +kernel)) ⟨by decide +kernel, by decide +kernel⟩ rfl
      (.item rfl (.array (.lastItem hitem)) rfl)
  have hvalue := Strict.object (.lastMember hmodes)
  have hnumber : Strict (OtherName (lit "volume")) .value (lit "12") :=
    .number (isNumber_of_isWhole (by decide +kernel))
  have hhdmi := @MemberText.mk (OtherName (lit "volume")) (lit " ") (lit "hdmi") [] [] _ []
    (by decide +kernel) (stringText_plain (by decide +kernel)) rfl rfl hvalue rfl
  have hvolume := @MemberText.mk (OtherName (lit "volume")) (lit "\n ") (lit "volume") (lit " ")
    (lit " ") _ (lit " ") (by decide +kernel) (stringText_plain (by decide +kernel))
    (by decide +kernel) (by decide +kernel) hnumber (by decide +kernel)
  have hobject := @ObjectText.full (OtherName (lit "volume")) [] _ (lit "\n") _ rfl
    (.more hhdmi (.last hvolume)) (by decide +kernel)
  refine ⟨?_, by decide +kernel, by decide +kernel⟩
  unfold samplePairs sampleText
  convert hobject using 1 <;> decide +kernel

/-- A volume that is saved while no backup is there. -/
theorem system_config_edit_sample :
    let files : ConfigFiles := fun path => if path = .config then some sampleText else none
    let run := saveSystemConfig (lit "volume") (.number 7)
    let after := (Script.play (List.replicate 16 0) run files).2
    (∃ literal new, after .config = some new ∧ (SystemValue.number 7).Denotes literal ∧
      Editable (lit "volume") (assign (lit "volume") literal samplePairs) new) := by
  intro files run after
  have hrun : run.Returns files true after := Script.returns_play (by decide +kernel)
  exact (system_config_edit ⟨lit "volume", by decide +kernel, by decide +kernel⟩ (.number 7)
    sample_editable rfl hrun).1 rfl

end Runs

end PlumosBubble.Settings.SystemConfig
