import Mathlib.Data.List.DropRight
import PlumosBubble.Frontend.JsonWrite
import PlumosBubble.Sequence.Assignments

/-! Documents of JSON text: an object with its members and all the blanks around them. A text is
a document in one way only, as far as its members go; a member can be replaced and a new one
put at the end. -/

namespace PlumosBubble.Frontend

open Sequence

section Grammar

def comma : UInt8 := 0x2c

def isDigit (c : UInt8) : Bool := 0x30 ≤ c && c ≤ 0x39

/-- At least one digit. -/
def isDigits (s : CString) : Bool := s ≠ [] && s.all isDigit

/-- Digits without a zero that could be left out. -/
def isWhole (s : CString) : Bool := isDigits s && (s.head? ≠ some 0x30 || s.length = 1)

inductive IsFraction : CString → Prop
  | none : IsFraction []
  | some {digits : CString} (h : isDigits digits = true) : IsFraction (dot :: digits)

inductive IsExponent : CString → Prop
  | none : IsExponent []
  | some {e : UInt8} {sign digits : CString} (he : e ∈ lit "eE")
      (hsign : sign ∈ [[], lit "+", lit "-"]) (h : isDigits digits = true) :
      IsExponent (e :: sign ++ digits)

/-- A number. -/
inductive IsNumber : CString → Prop
  | mk {sign whole fraction exponent : CString} (hsign : sign ∈ [[], lit "-"])
      (hwhole : isWhole whole = true) (hfraction : IsFraction fraction)
      (hexponent : IsExponent exponent) : IsNumber (sign ++ whole ++ fraction ++ exponent)

inductive JsonKind where
  | value
  | item
  | items
  | member
  | members

def bracketed (t : CString) : CString := openBracket :: t ++ [closeBracket]

/-- Values, the items of an array and the members of an object. -/
inductive Json : JsonKind → CString → Prop
  | number {w : CString} (hw : IsNumber w) : Json .value w
  | word {w : CString} (hw : w ∈ [lit "true", lit "false", lit "null"]) : Json .value w
  | string {s : CString} (hs : Escaped s) : Json .value (quoted s)
  | noItems {g : CString} (hg : g.all isSpace = true) : Json .value (bracketed g)
  | array {t : CString} (ht : Json .items t) : Json .value (bracketed t)
  | noMembers {g : CString} (hg : g.all isSpace = true) : Json .value (braced g)
  | object {t : CString} (ht : Json .members t) : Json .value (braced t)
  | item {g v h : CString} (hg : g.all isSpace = true) (hv : Json .value v)
      (hh : h.all isSpace = true) : Json .item (g ++ v ++ h)
  | lastItem {t : CString} (ht : Json .item t) : Json .items t
  | items {t u : CString} (ht : Json .item t) (hu : Json .items u) :
      Json .items (t ++ comma :: u)
  | member {g k h t : CString} (hg : g.all isSpace = true) (hk : Escaped k)
      (hh : h.all isSpace = true) (ht : Json .item t) :
      Json .member (g ++ quoted k ++ h ++ jsonColon :: t)
  | lastMember {t : CString} (ht : Json .member t) : Json .members t
  | members {t u : CString} (ht : Json .member t) (hu : Json .members u) :
      Json .members (t ++ comma :: u)

end Grammar

section Words

/-- A byte of a number or of a word. -/
def isWordByte (c : UInt8) : Bool :=
  isDigit c || (0x61 ≤ c && c ≤ 0x7a) || c ∈ [0x2b, 0x2d, dot, 0x45]

/-- A byte that ends a word, for `json_value_end`. -/
def endsWord (c : UInt8) : Bool := c = comma || c = closeBrace || c = closeBracket

theorem isWordByte_ne {c : UInt8} (h : isWordByte c = true) :
    isSpace c = false ∧ endsWord c = false ∧ c ≠ jsonQuote ∧ c ≠ openBrace ∧ c ≠ openBracket ∧
      c ≠ closeBrace ∧ c ≠ closeBracket := by
  have hall : ∀ n < 256, isWordByte (UInt8.ofNat n) = true →
      isSpace (UInt8.ofNat n) = false ∧ endsWord (UInt8.ofNat n) = false ∧
        UInt8.ofNat n ≠ jsonQuote ∧ UInt8.ofNat n ≠ openBrace ∧ UInt8.ofNat n ≠ openBracket ∧
        UInt8.ofNat n ≠ closeBrace ∧ UInt8.ofNat n ≠ closeBracket := by
    decide +kernel
  have hbyte := hall c.toNat c.toNat_lt
  rw [UInt8.ofNat_toNat] at hbyte
  exact hbyte h

theorem isDigits_iff {s : CString} :
    isDigits s = true ↔ s ≠ [] ∧ ∀ c ∈ s, isDigit c = true := by
  simp [isDigits]

theorem isWordByte_of_isDigit {c : UInt8} (h : isDigit c = true) : isWordByte c = true := by
  simp [isWordByte, h]

/-- What a number or a word is made of. -/
def IsWord (w : CString) : Prop := w ≠ [] ∧ ∀ c ∈ w, isWordByte c = true

theorem isWord_of_isDigits {s : CString} (h : isDigits s = true) : IsWord s := by
  obtain ⟨hne, hdigits⟩ := isDigits_iff.mp h
  exact ⟨hne, fun c hc => isWordByte_of_isDigit (hdigits c hc)⟩

theorem isWord_of_isNumber {w : CString} (h : IsNumber w) : IsWord w := by
  obtain ⟨hsign, hwhole, hfraction, hexponent⟩ := h
  rename_i sign whole fraction exponent
  simp only [isWhole, Bool.and_eq_true] at hwhole
  have hword := isWord_of_isDigits hwhole.1
  have hsigns : ∀ c ∈ sign, isWordByte c = true := by
    revert sign
    decide +kernel
  have hfractions : ∀ c ∈ fraction, isWordByte c = true := by
    cases hfraction with
    | none => simp
    | some h =>
      intro c hc
      rcases List.mem_cons.mp hc with rfl | hc
      · decide
      · exact (isWord_of_isDigits h).2 c hc
  have hexponents : ∀ c ∈ exponent, isWordByte c = true := by
    cases hexponent with
    | none => simp
    | some he hsign h =>
      rename_i e s digits
      have hes : ∀ e ∈ lit "eE", isWordByte e = true := by decide +kernel
      have hss : ∀ s ∈ [[], lit "+", lit "-"], ∀ c ∈ s, isWordByte c = true := by decide +kernel
      intro c hc
      rcases List.mem_append.mp hc with hc | hc
      · rcases List.mem_cons.mp hc with rfl | hc
        · exact hes c he
        · exact hss s hsign c hc
      · exact (isWord_of_isDigits h).2 c hc
  refine ⟨by simp [hword.1], fun c hc => ?_⟩
  simp only [List.mem_append] at hc
  rcases hc with ((hc | hc) | hc) | hc
  · exact hsigns c hc
  · exact hword.2 c hc
  · exact hfractions c hc
  · exact hexponents c hc

theorem isWord_of_literal {w : CString} (h : w ∈ [lit "true", lit "false", lit "null"]) :
    IsWord w := by
  have hall : ∀ w ∈ [lit "true", lit "false", lit "null"],
      w ≠ [] ∧ ∀ c ∈ w, isWordByte c = true := by
    decide +kernel
  exact hall w h

theorem isNumber_of_isWhole {s : CString} (h : isWhole s = true) : IsNumber s := by
  have hnumber : IsNumber ([] ++ s ++ [] ++ []) := .mk (by simp) h .none .none
  simpa using hnumber

theorem json_of_isWhole {s : CString} (h : isWhole s = true) : Json .value s :=
  .number (isNumber_of_isWhole h)

end Words

section Values

/-- `json_value_end` of a value that begins here: what follows it. -/
def jsonValueEnd (s : CString) : Option CString :=
  match s with
  | [] => none
  | c :: s =>
    if c = jsonQuote then (stringBody false s).map Prod.snd
    else if c = openBrace then (jsonMatchContainer openBrace closeBrace (c :: s)).map Prod.snd
    else if c = openBracket then
      (jsonMatchContainer openBracket closeBracket (c :: s)).map Prod.snd
    else
      let word := ((c :: s).takeWhile fun c => !endsWord c).rdropWhile isSpace
      if word = [] then none else some ((c :: s).drop word.length)

theorem neutral_bytes {opening closing : UInt8} {p : UInt8 → Bool} {t : CString}
    (ht : ∀ c ∈ t, p c = true) (hopening : p opening = false) (hclosing : p closing = false)
    (hquote : p jsonQuote = false) : Neutral opening closing t := by
  have hne : ∀ {d : UInt8}, p d = false → ∀ c ∈ t, c ≠ d := by
    intro d hd c hc heq
    rw [← heq, ht c hc] at hd
    cases hd
  exact neutral_plain fun c hc => ⟨hne hquote c hc, hne hopening c hc, hne hclosing c hc⟩

/-- The brackets that open and close a container. -/
structure IsPair (opening closing : UInt8) : Prop where
  mem : (opening, closing) ∈ [(openBrace, closeBrace), (openBracket, closeBracket)]

theorem forall_pairs {P : UInt8 × UInt8 → Prop} (hbrace : P (openBrace, closeBrace))
    (hbracket : P (openBracket, closeBracket)) :
    ∀ pair ∈ [(openBrace, closeBrace), (openBracket, closeBracket)], P pair := by
  intro pair hpair
  simp only [List.mem_cons, List.not_mem_nil, or_false] at hpair
  rcases hpair with rfl | rfl
  · exact hbrace
  · exact hbracket

theorem IsPair.neutral_space {opening closing : UInt8} (h : IsPair opening closing)
    {g : CString} (hg : g.all isSpace = true) : Neutral opening closing g := by
  have hspace : ∀ pair ∈ [(openBrace, closeBrace), (openBracket, closeBracket)],
      isSpace pair.1 = false ∧ isSpace pair.2 = false :=
    forall_pairs (by decide) (by decide)
  obtain ⟨hopening, hclosing⟩ := hspace _ h.mem
  exact neutral_bytes (List.all_eq_true.mp hg) hopening hclosing (by decide)

theorem IsPair.neutral_word {opening closing : UInt8} (h : IsPair opening closing)
    {w : CString} (hw : IsWord w) : Neutral opening closing w := by
  have hword : ∀ pair ∈ [(openBrace, closeBrace), (openBracket, closeBracket)],
      isWordByte pair.1 = false ∧ isWordByte pair.2 = false :=
    forall_pairs (by decide) (by decide)
  obtain ⟨hopening, hclosing⟩ := hword _ h.mem
  exact neutral_bytes hw.2 hopening hclosing (by decide)

theorem IsPair.neutral_byte {opening closing : UInt8} (h : IsPair opening closing)
    {c : UInt8} (hc : c ∈ [comma, jsonColon]) : Neutral opening closing [c] := by
  have hall : ∀ pair ∈ [(openBrace, closeBrace), (openBracket, closeBracket)],
      ∀ c ∈ [comma, jsonColon], c ≠ jsonQuote ∧ c ≠ pair.1 ∧ c ≠ pair.2 := by
    apply forall_pairs
    · simp [comma, jsonColon, jsonQuote, openBrace, closeBrace]
    · simp [comma, jsonColon, jsonQuote, openBracket, closeBracket]
  apply neutral_plain
  intro d hd
  rw [List.mem_singleton.mp hd]
  exact hall _ h.mem c hc

theorem IsPair.neutral_container {opening closing : UInt8} (h : IsPair opening closing)
    {t : CString} (ht : Neutral opening closing t) :
    Neutral opening closing (braced t) ∧ Neutral opening closing (bracketed t) := by
  have hbytes : ∀ pair ∈ [(openBrace, closeBrace), (openBracket, closeBracket)],
      pair.1 ≠ jsonQuote ∧ pair.2 ≠ jsonQuote ∧ pair.2 ≠ pair.1 ∧
        (pair = (openBrace, closeBrace) ∧
            (∀ c ∈ [openBracket, closeBracket], c ≠ jsonQuote ∧ c ≠ pair.1 ∧ c ≠ pair.2) ∨
          pair = (openBracket, closeBracket) ∧
            (∀ c ∈ [openBrace, closeBrace], c ≠ jsonQuote ∧ c ≠ pair.1 ∧ c ≠ pair.2)) := by
    apply forall_pairs
    · simp [jsonQuote, openBrace, closeBrace, openBracket, closeBracket]
    · simp [jsonQuote, openBrace, closeBrace, openBracket, closeBracket]
  have hplain : ∀ {a b : UInt8},
      (∀ c ∈ [a, b], c ≠ jsonQuote ∧ c ≠ opening ∧ c ≠ closing) →
        Neutral opening closing (a :: t ++ [b]) := by
    intro a b hab
    have hfirst : Neutral opening closing [a] :=
      neutral_plain fun c hc => hab c (by simp [List.mem_singleton.mp hc])
    have hlast : Neutral opening closing [b] :=
      neutral_plain fun c hc => hab c (by simp [List.mem_singleton.mp hc])
    exact neutral_append (neutral_append hfirst ht) hlast
  obtain ⟨hopening, hclosing, hne, hcase⟩ := hbytes _ h.mem
  have hself := PlumosBubble.Frontend.neutral_container hopening hclosing hne ht
  rcases hcase with ⟨heq, hother⟩ | ⟨heq, hother⟩
  · cases heq
    exact ⟨hself, hplain hother⟩
  · cases heq
    exact ⟨hplain hother, hself⟩

theorem IsPair.neutral_json {opening closing : UInt8} (h : IsPair opening closing)
    {kind : JsonKind} {t : CString} (ht : Json kind t) : Neutral opening closing t := by
  induction ht with
  | number hw => exact h.neutral_word (isWord_of_isNumber hw)
  | word hw => exact h.neutral_word (isWord_of_literal hw)
  | string hs => exact neutral_quoted hs
  | noItems hg => exact (h.neutral_container (h.neutral_space hg)).2
  | array _ ih => exact (h.neutral_container ih).2
  | noMembers hg => exact (h.neutral_container (h.neutral_space hg)).1
  | object _ ih => exact (h.neutral_container ih).1
  | item hg _ hh ih =>
    exact neutral_append (neutral_append (h.neutral_space hg) ih) (h.neutral_space hh)
  | lastItem _ ih => exact ih
  | items _ _ iht ihu =>
    exact neutral_append iht (neutral_append (h.neutral_byte (by simp)) ihu)
  | member hg hk hh _ ih =>
    exact neutral_append
      (neutral_append (neutral_append (h.neutral_space hg) (neutral_quoted hk))
        (h.neutral_space hh))
      (neutral_append (h.neutral_byte (by simp)) ih)
  | lastMember _ ih => exact ih
  | members _ _ iht ihu =>
    exact neutral_append iht (neutral_append (h.neutral_byte (by simp)) ihu)

/-- What may follow a value: blanks, and a byte that ends a word. -/
def EndsValue (rest : CString) : Prop :=
  ∃ g c s, rest = g ++ c :: s ∧ g.all isSpace = true ∧ endsWord c = true

theorem takeWhile_word {w rest : CString} (hw : IsWord w) (hrest : EndsValue rest) :
    ((w ++ rest).takeWhile fun c => !endsWord c).rdropWhile isSpace = w := by
  obtain ⟨g, c, s, rfl, hg, hc⟩ := hrest
  have hspace : ∀ c, isSpace c = true → endsWord c = false := by
    have hall : ∀ c, endsWord c = true → isSpace c = false := by
      intro c hc
      simp only [endsWord, Bool.or_eq_true, decide_eq_true_eq] at hc
      rcases hc with (rfl | rfl) | rfl <;> decide
    intro c hc
    cases hends : endsWord c with
    | false => rfl
    | true => rw [hall c hends] at hc; cases hc
  have htake : ((w ++ (g ++ c :: s)).takeWhile fun c => !endsWord c) = w ++ g := by
    rw [← List.append_assoc, List.takeWhile_append_of_pos]
    · simp [hc]
    · intro d hd
      rcases List.mem_append.mp hd with hd | hd
      · simp [(isWordByte_ne (hw.2 d hd)).2.1]
      · simp [hspace d (List.all_eq_true.mp hg d hd)]
  have hlast : w.rdropWhile isSpace = w := by
    rw [List.rdropWhile_eq_self_iff]
    intro hne
    rw [(isWordByte_ne (hw.2 _ (List.getLast_mem hne))).1]
    simp
  rw [htake]
  clear htake
  induction g using List.reverseRecOn with
  | nil => rw [List.append_nil, hlast]
  | append_singleton g d ih =>
    rw [List.all_append, Bool.and_eq_true] at hg
    rw [← List.append_assoc, List.rdropWhile_concat_pos]
    · exact ih hg.1
    · simpa using hg.2

theorem stringBody_rest {s : CString} (hs : Escaped s) (rest : CString) :
    (stringBody false (s ++ jsonQuote :: rest)).map Prod.snd = some rest := by
  induction hs with
  | nil => rfl
  | plain hquote hescape hnul _ ih =>
    rw [List.cons_append, stringBody]
    simpa [hquote, hescape, Function.comp_def] using ih
  | pair hnul _ ih =>
    rw [List.cons_append, List.cons_append, stringBody_pair]
    simpa [Function.comp_def] using ih

theorem jsonValueEnd_value {v rest : CString} (hv : Json .value v) (hrest : EndsValue rest) :
    jsonValueEnd (v ++ rest) = some rest := by
  have hword : ∀ {w : CString}, IsWord w → jsonValueEnd (w ++ rest) = some rest := by
    intro w hw
    have htake := takeWhile_word hw hrest
    obtain ⟨hne, hbytes⟩ := hw
    cases w with
    | nil => exact absurd rfl hne
    | cons c w =>
      obtain ⟨-, -, hquote, hbrace, hbracket, -, -⟩ := isWordByte_ne (hbytes c List.mem_cons_self)
      rw [List.cons_append] at htake ⊢
      rw [jsonValueEnd, if_neg hquote, if_neg hbrace, if_neg hbracket, htake]
      simp
  have hobject : ∀ {t : CString}, Neutral openBrace closeBrace t →
      jsonValueEnd (braced t ++ rest) = some rest := by
    intro t ht
    have htext : braced t ++ rest = openBrace :: t ++ closeBrace :: rest := by simp [braced]
    have hmatch := jsonMatchContainer_neutral (by decide) (by decide) ht rest
    rw [htext] at *
    rw [List.cons_append] at hmatch ⊢
    rw [jsonValueEnd, if_neg (by decide), if_pos rfl, hmatch, Option.map_some]
  have harray : ∀ {t : CString}, Neutral openBracket closeBracket t →
      jsonValueEnd (bracketed t ++ rest) = some rest := by
    intro t ht
    have htext : bracketed t ++ rest = openBracket :: t ++ closeBracket :: rest := by
      simp [bracketed]
    have hmatch := jsonMatchContainer_neutral (by decide) (by decide) ht rest
    rw [htext]
    rw [List.cons_append] at hmatch ⊢
    rw [jsonValueEnd, if_neg (by decide), if_neg (by decide), if_pos rfl, hmatch, Option.map_some]
  have hbraces : IsPair openBrace closeBrace := ⟨by simp⟩
  have hbrackets : IsPair openBracket closeBracket := ⟨by simp⟩
  cases hv with
  | number hw => exact hword (isWord_of_isNumber hw)
  | word hw => exact hword (isWord_of_literal hw)
  | string hs =>
    rename_i s
    have htext : quoted s ++ rest = jsonQuote :: (s ++ jsonQuote :: rest) := by simp [quoted]
    rw [htext, jsonValueEnd, if_pos rfl, stringBody_rest hs]
  | noItems hg => exact harray (hbrackets.neutral_space hg)
  | array ht => exact harray (hbrackets.neutral_json ht)
  | noMembers hg => exact hobject (hbraces.neutral_space hg)
  | object ht => exact hobject (hbraces.neutral_json ht)

theorem Json.ends {v : CString} (hv : Json .value v) :
    (∃ c s, v = c :: s ∧ isSpace c = false) ∧ ∃ s c, v = s ++ [c] ∧ isSpace c = false := by
  have hword : ∀ {w : CString}, IsWord w →
      (∃ c s, w = c :: s ∧ isSpace c = false) ∧ ∃ s c, w = s ++ [c] ∧ isSpace c = false := by
    intro w hw
    constructor
    · obtain ⟨hne, hbytes⟩ := hw
      cases w with
      | nil => exact absurd rfl hne
      | cons c w => exact ⟨c, w, rfl, (isWordByte_ne (hbytes c List.mem_cons_self)).1⟩
    · exact ⟨w.dropLast, w.getLast hw.1, (List.dropLast_append_getLast hw.1).symm,
        (isWordByte_ne (hw.2 _ (List.getLast_mem hw.1))).1⟩
  cases hv with
  | number hw => exact hword (isWord_of_isNumber hw)
  | word hw => exact hword (isWord_of_literal hw)
  | string hs => exact ⟨⟨_, _, rfl, rfl⟩, _, _, rfl, rfl⟩
  | noItems hg => exact ⟨⟨_, _, rfl, rfl⟩, _, _, rfl, rfl⟩
  | array ht => exact ⟨⟨_, _, rfl, rfl⟩, _, _, rfl, rfl⟩
  | noMembers hg => exact ⟨⟨_, _, rfl, rfl⟩, _, _, rfl, rfl⟩
  | object ht => exact ⟨⟨_, _, rfl, rfl⟩, _, _, rfl, rfl⟩

end Values

section Documents

/-- A member of an object, with the blanks around its parts. -/
structure Member where
  lead : CString
  key : CString
  gap : CString
  space : CString
  value : CString
  trail : CString
  lead_blank : lead.all isSpace = true
  key_escaped : Escaped key
  gap_blank : gap.all isSpace = true
  space_blank : space.all isSpace = true
  value_json : Json .value value
  trail_blank : trail.all isSpace = true

namespace Member

/-- What stands behind the key. -/
def afterKey (m : Member) : CString := m.gap ++ jsonColon :: m.space ++ m.value ++ m.trail

def text (m : Member) : CString := m.lead ++ quoted m.key ++ m.afterKey

def pair (m : Member) : CString × CString := (m.key, m.value)

/-- The member without the blanks around it. -/
def core (m : Member) : CString := quoted m.key ++ m.gap ++ jsonColon :: m.space ++ m.value

end Member

/-- The members behind the first one. -/
def back (ms : List Member) : CString := ms.flatMap fun m => comma :: m.text

/-- The members in front of one. -/
def front (ms : List Member) : CString := ms.flatMap fun m => m.text ++ [comma]

/-- An object with a key at most once. -/
structure Document where
  start : CString
  members : List Member
  inside : CString
  ending : CString
  start_blank : start.all isSpace = true
  inside_blank : inside.all isSpace = true
  ending_blank : ending.all isSpace = true
  keys_nodup : (members.map Member.key).Nodup

namespace Document

/-- What stands between the braces; `inside` where there are no members. -/
def body (d : Document) : CString :=
  match d.members with
  | [] => d.inside
  | m :: ms => m.text ++ back ms

def text (d : Document) : CString := d.start ++ openBrace :: d.body ++ closeBrace :: d.ending

def pairs (d : Document) : List (CString × CString) := d.members.map Member.pair

/-- The value of a key. -/
def value (d : Document) (key : CString) : Option CString := d.pairs.lookup key

theorem keys_eq (d : Document) : d.pairs.map Prod.fst = d.members.map Member.key := by
  unfold pairs
  rw [List.map_map]
  rfl

theorem front_back (ms : List Member) (m : Member) :
    m.text ++ back ms ++ [comma] = front (m :: ms) := by
  induction ms generalizing m with
  | nil => simp [back, front]
  | cons n ms ih =>
    have hback : m.text ++ back (n :: ms) ++ [comma] =
        m.text ++ comma :: (n.text ++ back ms ++ [comma]) := by
      simp [back, List.append_assoc]
    rw [hback, ih n]
    simp [front, List.append_assoc]

theorem body_split (d : Document) {before after : List Member} {m : Member}
    (h : d.members = before ++ m :: after) : d.body = front before ++ m.text ++ back after := by
  unfold body
  rw [h]
  cases before with
  | nil => simp [front]
  | cons b before =>
    rw [List.cons_append, ← front_back]
    simp [back, List.append_assoc]

theorem text_split (d : Document) {before after : List Member} {m : Member}
    (h : d.members = before ++ m :: after) :
    d.text = d.start ++ openBrace :: front before ++ m.text ++
      (back after ++ closeBrace :: d.ending) := by
  unfold text
  rw [d.body_split h]
  simp [List.append_assoc]

/-- A member in the place of another one with the same key. -/
def replace (d : Document) {before after : List Member} {m : Member}
    (h : d.members = before ++ m :: after) (m' : Member) (hkey : m'.key = m.key) : Document :=
  { d with
    members := before ++ m' :: after
    keys_nodup := by
      have hnodup := d.keys_nodup
      rw [h] at hnodup
      simpa [hkey] using hnodup }

/-- A new member behind all others. -/
def push (d : Document) (m : Member) (h : m.key ∉ d.members.map Member.key) : Document :=
  { d with
    members := d.members ++ [m]
    keys_nodup := by
      rw [List.map_append, List.map_singleton, List.nodup_append]
      refine ⟨d.keys_nodup, by simp, ?_⟩
      rintro key hkey _ hm rfl
      rw [List.mem_singleton.mp hm] at hkey
      exact h hkey }

theorem text_replace (d : Document) {before after : List Member} {m m' : Member}
    (h : d.members = before ++ m :: after) (hkey : m'.key = m.key) :
    (d.replace h m' hkey).text = d.start ++ openBrace :: front before ++ m'.text ++
      (back after ++ closeBrace :: d.ending) :=
  text_split (d.replace h m' hkey) rfl

theorem pairs_replace (d : Document) {before after : List Member} {m m' : Member}
    (h : d.members = before ++ m :: after) (hkey : m'.key = m.key) :
    (d.replace h m' hkey).pairs = assign m'.key m'.value d.pairs := by
  have hbefore : m'.key ∉ (before.map Member.pair).map Prod.fst := by
    have hnodup := d.keys_nodup
    rw [h, List.map_append, List.map_cons, List.nodup_append] at hnodup
    intro hmem
    rw [List.map_map] at hmem
    exact hnodup.2.2 _ hmem _ List.mem_cons_self hkey
  have hpairs : d.pairs = before.map Member.pair ++ (m'.key, m.value) :: after.map Member.pair := by
    unfold pairs
    rw [h, hkey]
    simp [Member.pair]
  rw [hpairs, assign_split hbefore]
  simp [pairs, replace, Member.pair]

theorem pairs_push (d : Document) {m : Member} (h : m.key ∉ d.members.map Member.key) :
    (d.push m h).pairs = assign m.key m.value d.pairs := by
  rw [← d.keys_eq] at h
  rw [assign_of_notMem h]
  simp [pairs, push, Member.pair]

end Document

end Documents

section Unambiguous

theorem blank_cancel {g g' r r' : CString} {c c' : UInt8} (hg : g.all isSpace = true)
    (hg' : g'.all isSpace = true) (hc : isSpace c = false) (hc' : isSpace c' = false)
    (h : g ++ c :: r = g' ++ c' :: r') : c :: r = c' :: r' := by
  have hdrop : ∀ {g r : CString} {c : UInt8}, g.all isSpace = true → isSpace c = false →
      (g ++ c :: r).dropWhile isSpace = c :: r := by
    intro g r c hg hc
    rw [List.dropWhile_append_of_pos (List.all_eq_true.mp hg)]
    simp [hc]
  rw [← hdrop hg hc, h, hdrop hg' hc']

theorem escaped_cancel {s s' r r' : CString} (hs : Escaped s) (hs' : Escaped s')
    (h : s ++ jsonQuote :: r = s' ++ jsonQuote :: r') : s = s' ∧ r = r' := by
  have hrest := stringBody_rest hs r
  rw [h, stringBody_rest hs' r'] at hrest
  cases hrest
  exact ⟨List.append_cancel_right h, rfl⟩

theorem value_cancel {v v' r r' : CString} (hv : Json .value v) (hv' : Json .value v')
    (hr : EndsValue r) (hr' : EndsValue r') (h : v ++ r = v' ++ r') : v = v' ∧ r = r' := by
  have hrest := jsonValueEnd_value hv hr
  rw [h, jsonValueEnd_value hv' hr'] at hrest
  cases hrest
  exact ⟨List.append_cancel_right h, rfl⟩

theorem isSpace_of_endsWord {c : UInt8} (h : endsWord c = true) : isSpace c = false := by
  simp only [endsWord, Bool.or_eq_true, decide_eq_true_eq] at h
  rcases h with (rfl | rfl) | rfl <;> decide

theorem Member.text_cancel {m m' : Member} {c c' : UInt8} {r r' : CString}
    (hc : endsWord c = true) (hc' : endsWord c' = true)
    (h : m.text ++ c :: r = m'.text ++ c' :: r') : m.pair = m'.pair ∧ c :: r = c' :: r' := by
  have hsplit : ∀ (m : Member) (c : UInt8) (r : CString), m.text ++ c :: r =
      m.lead ++ jsonQuote :: (m.key ++ jsonQuote :: (m.gap ++ jsonColon ::
        (m.space ++ (m.value ++ (m.trail ++ c :: r))))) := by
    intro m c r
    simp [Member.text, Member.afterKey, quoted, List.append_assoc]
  have hends : ∀ (m : Member) {c : UInt8} (r : CString), endsWord c = true →
      EndsValue (m.trail ++ c :: r) :=
    fun m c r hc => ⟨_, _, _, rfl, m.trail_blank, hc⟩
  have hvalue : ∀ (m : Member) (s : CString), ∃ b t, m.value ++ s = b :: t ∧ isSpace b = false := by
    intro m s
    obtain ⟨⟨b, t, hm, hb⟩, -⟩ := m.value_json.ends
    exact ⟨b, t ++ s, by rw [hm, List.cons_append], hb⟩
  rw [hsplit, hsplit] at h
  have hlead := (List.cons.inj (blank_cancel m.lead_blank m'.lead_blank (by decide) (by decide)
    h)).2
  obtain ⟨hkey, hgap⟩ := escaped_cancel m.key_escaped m'.key_escaped hlead
  have hspace := (List.cons.inj (blank_cancel m.gap_blank m'.gap_blank (by decide) (by decide)
    hgap)).2
  obtain ⟨b, t, hb, hbspace⟩ := hvalue m (m.trail ++ c :: r)
  obtain ⟨b', t', hb', hbspace'⟩ := hvalue m' (m'.trail ++ c' :: r')
  rw [hb, hb'] at hspace
  have hvalues := blank_cancel m.space_blank m'.space_blank hbspace hbspace' hspace
  rw [← hb, ← hb'] at hvalues
  obtain ⟨heq, htrail⟩ := value_cancel m.value_json m'.value_json (hends m r hc) (hends m' r' hc')
    hvalues
  exact ⟨by rw [Member.pair, Member.pair, hkey, heq],
    blank_cancel m.trail_blank m'.trail_blank (isSpace_of_endsWord hc) (isSpace_of_endsWord hc')
      htrail⟩

theorem back_head (ms : List Member) (ending : CString) :
    ∃ c s, back ms ++ closeBrace :: ending = c :: s ∧ endsWord c = true := by
  cases ms with
  | nil => exact ⟨closeBrace, ending, rfl, by decide⟩
  | cons m ms =>
    refine ⟨comma, m.text ++ (back ms ++ closeBrace :: ending), ?_, by decide⟩
    simp [back, List.append_assoc]

theorem back_cancel {ms ms' : List Member} {ending ending' : CString}
    (h : back ms ++ closeBrace :: ending = back ms' ++ closeBrace :: ending') :
    ms.map Member.pair = ms'.map Member.pair := by
  have hne : comma ≠ closeBrace := by decide
  induction ms generalizing ms' with
  | nil =>
    cases ms' with
    | nil => rfl
    | cons m' ms' => exact absurd (List.cons.inj h).1 (Ne.symm hne)
  | cons m ms ih =>
    cases ms' with
    | nil => exact absurd (List.cons.inj h).1 hne
    | cons m' ms' =>
      have hsplit : ∀ (m : Member) (ms : List Member) (ending : CString),
          back (m :: ms) ++ closeBrace :: ending =
            comma :: (m.text ++ (back ms ++ closeBrace :: ending)) := by
        intro m ms ending
        simp [back, List.append_assoc]
      rw [hsplit, hsplit] at h
      have hrest := (List.cons.inj h).2
      obtain ⟨c, s, hs, hc⟩ := back_head ms ending
      obtain ⟨c', s', hs', hc'⟩ := back_head ms' ending'
      rw [hs, hs'] at hrest
      obtain ⟨hpair, htail⟩ := Member.text_cancel hc hc' hrest
      rw [← hs, ← hs'] at htail
      rw [List.map_cons, List.map_cons, hpair, ih htail]

/-- What stands between the braces of an object. -/
def between (inside : CString) : List Member → CString
  | [] => inside
  | m :: ms => m.text ++ back ms

theorem between_cancel {start start' inside inside' ending ending' : CString}
    {ms ms' : List Member} (hstart : start.all isSpace = true) (hstart' : start'.all isSpace = true)
    (hinside : inside.all isSpace = true) (hinside' : inside'.all isSpace = true)
    (h : start ++ openBrace :: (between inside ms ++ closeBrace :: ending) =
      start' ++ openBrace :: (between inside' ms' ++ closeBrace :: ending')) :
    ms.map Member.pair = ms'.map Member.pair := by
  have hbrace : isSpace openBrace = false := by decide
  have hbody := (List.cons.inj (blank_cancel hstart hstart' hbrace hbrace h)).2
  have hmember : ∀ (m : Member) (ms : List Member) (ending : CString) (g s : CString),
      g.all isSpace = true →
      g ++ closeBrace :: s ≠ m.text ++ back ms ++ closeBrace :: ending := by
    intro m ms ending g s hg heq
    have hquote : m.text ++ back ms ++ closeBrace :: ending =
        m.lead ++ jsonQuote ::
          (m.key ++ jsonQuote :: (m.afterKey ++ (back ms ++ closeBrace :: ending))) := by
      simp [Member.text, quoted, List.append_assoc]
    rw [hquote] at heq
    have hhead := blank_cancel hg m.lead_blank (by decide) (by decide) heq
    exact absurd (List.cons.inj hhead).1 (by decide)
  cases ms with
  | nil =>
    cases ms' with
    | nil => rfl
    | cons m' ms' => exact absurd hbody (hmember m' ms' _ _ _ hinside)
  | cons m ms =>
    cases ms' with
    | nil => exact absurd hbody.symm (hmember m ms _ _ _ hinside')
    | cons m' ms' =>
      simp only [between, List.append_assoc] at hbody
      obtain ⟨c, s, hs, hc⟩ := back_head ms ending
      obtain ⟨c', s', hs', hc'⟩ := back_head ms' ending'
      rw [hs, hs'] at hbody
      obtain ⟨hpair, htail⟩ := Member.text_cancel hc hc' hbody
      rw [← hs, ← hs'] at htail
      rw [List.map_cons, List.map_cons, hpair, back_cancel htail]

theorem Document.pairs_eq {d d' : Document} (h : d.text = d'.text) : d.pairs = d'.pairs := by
  have hsplit : ∀ d : Document, d.text =
      d.start ++ openBrace :: (between d.inside d.members ++ closeBrace :: d.ending) := by
    intro d
    have hbody : d.body = between d.inside d.members := by
      unfold Document.body
      cases d.members <;> rfl
    rw [Document.text, hbody]
    simp
  rw [hsplit, hsplit] at h
  exact between_cancel d.start_blank d'.start_blank d.inside_blank d'.inside_blank h

end Unambiguous

end PlumosBubble.Frontend
