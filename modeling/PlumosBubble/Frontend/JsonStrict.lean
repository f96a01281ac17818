import PlumosBubble.Frontend.JsonDocument

/-! JSON as the standard has it: four kinds of blanks, no control characters in strings, and the
escapes that there are. A grammar that is told which names the members may have, and what a
search for a key and an edit of a member do to an object of it. -/

namespace PlumosBubble.Frontend

open Sequence

section Grammar

/-- The blanks of JSON. -/
def isBlank (c : UInt8) : Bool := c ∈ [0x20, 0x09, 0x0a, 0x0d]

def isHexDigit (c : UInt8) : Bool :=
  isDigit c || (0x61 ≤ c && c ≤ 0x66) || (0x41 ≤ c && c ≤ 0x46)

/-- The text of a string; the bytes of an encoding are not looked at. -/
inductive StringText : CString → Prop
  | nil : StringText []
  | plain {c : UInt8} {s : CString} (hquote : c ≠ jsonQuote) (hescape : c ≠ jsonEscape)
      (hcontrol : ¬c < 0x20) (hs : StringText s) : StringText (c :: s)
  | letter {c : UInt8} {s : CString} (hc : c ∈ lit "\"\\/bfnrt") (hs : StringText s) :
      StringText (jsonEscape :: c :: s)
  | unicode {h s : CString} (hlength : h.length = 4) (hhex : h.all isHexDigit = true)
      (hs : StringText s) : StringText (jsonEscape :: 0x75 :: h ++ s)

/-- Values, the items of an array and the members of an object, with names as `N` wants them. -/
inductive Strict (N : CString → Prop) : JsonKind → CString → Prop
  | number {w : CString} (hw : IsNumber w) : Strict N .value w
  | word {w : CString} (hw : w ∈ [lit "true", lit "false", lit "null"]) : Strict N .value w
  | string {s : CString} (hs : StringText s) : Strict N .value (quoted s)
  | noItems {g : CString} (hg : g.all isBlank = true) : Strict N .value (bracketed g)
  | array {t : CString} (ht : Strict N .items t) : Strict N .value (bracketed t)
  | noMembers {g : CString} (hg : g.all isBlank = true) : Strict N .value (braced g)
  | object {t : CString} (ht : Strict N .members t) : Strict N .value (braced t)
  | item {g v h : CString} (hg : g.all isBlank = true) (hv : Strict N .value v)
      (hh : h.all isBlank = true) : Strict N .item (g ++ v ++ h)
  | lastItem {t : CString} (ht : Strict N .item t) : Strict N .items t
  | items {t u : CString} (ht : Strict N .item t) (hu : Strict N .items u) :
      Strict N .items (t ++ comma :: u)
  | member {g k h t : CString} (hg : g.all isBlank = true) (hk : StringText k) (hname : N k)
      (hh : h.all isBlank = true) (ht : Strict N .item t) :
      Strict N .member (g ++ quoted k ++ h ++ jsonColon :: t)
  | lastMember {t : CString} (ht : Strict N .member t) : Strict N .members t
  | members {t u : CString} (ht : Strict N .member t) (hu : Strict N .members u) :
      Strict N .members (t ++ comma :: u)

variable {N : CString → Prop} {s t : CString}

theorem isSpace_of_isBlank {c : UInt8} (h : isBlank c = true) : isSpace c = true := by
  have hall : ∀ c ∈ [0x20, 0x09, 0x0a, 0x0d], isSpace c = true := by decide +kernel
  exact hall c (by simpa [isBlank] using h)

theorem blank_space {g : CString} (h : g.all isBlank = true) : g.all isSpace = true :=
  List.all_eq_true.mpr fun c hc => isSpace_of_isBlank (List.all_eq_true.mp h c hc)

theorem isHexDigit_plain {c : UInt8} (h : isHexDigit c = true) :
    c ≠ jsonQuote ∧ c ≠ jsonEscape ∧ c ≠ 0 := by
  refine ⟨?_, ?_, ?_⟩
  all_goals
    rintro rfl
    revert h
    decide

theorem StringText.escaped (h : StringText s) : Escaped s := by
  induction h with
  | nil => exact .nil
  | plain hquote hescape hcontrol _ ih =>
    have hnul : ∀ {c : UInt8}, ¬c < 0x20 → c ≠ 0 := by
      rintro c hc rfl
      exact hc (by decide)
    exact .plain hquote hescape (hnul hcontrol) ih
  | letter hc _ ih =>
    have hnul : ∀ c ∈ lit "\"\\/bfnrt", c ≠ 0 := by decide +kernel
    exact .pair (hnul _ hc) ih
  | @unicode h s hlength hhex _ ih =>
    have hdigits : Escaped h := by
      clear hlength
      induction h with
      | nil => exact .nil
      | cons d h ih =>
        rw [List.all_cons, Bool.and_eq_true] at hhex
        obtain ⟨hquote, hescape, hnul⟩ := isHexDigit_plain hhex.1
        exact .plain hquote hescape hnul (ih hhex.2)
    exact .pair (by decide) (escaped_append hdigits ih)

theorem Strict.json {kind : JsonKind} (h : Strict N kind t) : Json kind t := by
  induction h with
  | number hw => exact .number hw
  | word hw => exact .word hw
  | string hs => exact .string hs.escaped
  | noItems hg => exact .noItems (blank_space hg)
  | array _ ih => exact .array ih
  | noMembers hg => exact .noMembers (blank_space hg)
  | object _ ih => exact .object ih
  | item hg _ hh ih => exact .item (blank_space hg) ih (blank_space hh)
  | lastItem _ ih => exact .lastItem ih
  | items _ _ iht ihu => exact .items iht ihu
  | member hg hk _ hh _ ih => exact .member (blank_space hg) hk.escaped (blank_space hh) ih
  | lastMember _ ih => exact .lastMember ih
  | members _ _ iht ihu => exact .members iht ihu

end Grammar

section Search

variable {key : CString}

/-- A name without escapes that is not this key. -/
def OtherName (key k : CString) : Prop := jsonEscape ∉ k ∧ k ≠ key

theorem quote_notMem {k : CString} (hk : StringText k) (hplain : jsonEscape ∉ k) :
    jsonQuote ∉ k := by
  induction hk with
  | nil => exact List.not_mem_nil
  | plain hquote _ _ _ ih =>
    rw [List.mem_cons, not_or] at hplain ⊢
    exact ⟨Ne.symm hquote, ih hplain.2⟩
  | letter _ _ _ => exact absurd List.mem_cons_self hplain
  | unicode _ _ _ _ => exact absurd List.mem_cons_self hplain

theorem EndsValue.blank {g rest : CString} (hg : g.all isSpace = true) (h : EndsValue rest) :
    EndsValue (g ++ rest) := by
  obtain ⟨g', c, s, rfl, hg', hc⟩ := h
  exact ⟨g ++ g', c, s, by rw [List.append_assoc], by rw [List.all_append, hg, hg']; rfl, hc⟩

theorem endsValue_cons {c : UInt8} (hc : endsWord c = true) (s : CString) : EndsValue (c :: s) :=
  ⟨[], c, s, rfl, rfl, hc⟩

theorem EndsValue.behind {rest : CString} (h : EndsValue rest) :
    afterColon rest = none ∧ ∀ c ∈ rest.head?, isKeyByte c = false := by
  obtain ⟨g, c, s, rfl, hg, hc⟩ := h
  have hbytes : c ≠ jsonColon ∧ isKeyByte c = false := by
    simp only [endsWord, Bool.or_eq_true, decide_eq_true_eq] at hc
    rcases hc with (rfl | rfl) | rfl <;> decide
  constructor
  · unfold afterColon skipWsRange
    rw [List.dropWhile_append_of_pos (List.all_eq_true.mp hg)]
    simp [isSpace_of_endsWord hc, hbytes.1]
  · cases g with
    | nil =>
      intro d hd
      cases hd
      exact hbytes.2
    | cons b g =>
      intro d hd
      cases hd
      rw [List.all_cons, Bool.and_eq_true] at hg
      exact (isSpace_plain hg.1).2.2

theorem head_colon {g : CString} (hg : g.all isSpace = true) (s : CString) :
    ∀ c ∈ (g ++ jsonColon :: s).head?, isKeyByte c = false := by
  cases g with
  | nil =>
    intro c hc
    cases hc
    decide
  | cons b g =>
    intro c hc
    cases hc
    rw [List.all_cons, Bool.and_eq_true] at hg
    exact (isSpace_plain hg.1).2.2

theorem skips_byte {c : UInt8} (hquote : c ≠ jsonQuote) (hnul : c ≠ 0) : Skips key [c] :=
  skips_plain fun d hd => by rw [List.mem_singleton.mp hd]; exact ⟨hquote, hnul⟩

theorem find_name {k g : CString} (hkey : isKey key = true) (hk : StringText k)
    (hname : OtherName key k) (hg : g.all isSpace = true) (rest : CString) :
    jsonFindKeyValue key (quoted k ++ (g ++ jsonColon :: rest)) = jsonFindKeyValue key rest := by
  rw [jsonFindKeyValue_quoted hk.escaped hkey (head_colon hg rest)
    (Or.inr ⟨hname.2, quote_notMem hk hname.1⟩), skips_plain (blank_plain hg)]
  exact skips_byte (by decide) (by decide) rest

theorem find_string {s rest : CString} (hkey : isKey key = true) (hs : StringText s)
    (hrest : EndsValue rest) :
    jsonFindKeyValue key (quoted s ++ rest) = jsonFindKeyValue key rest :=
  jsonFindKeyValue_quoted hs.escaped hkey hrest.behind.2 (Or.inl hrest.behind.1)

theorem find_word {w : CString} (hw : IsWord w) : Skips key w := by
  apply skips_plain
  intro c hc
  refine ⟨(isWordByte_ne (hw.2 c hc)).2.2.1, ?_⟩
  rintro rfl
  have hbyte := hw.2 0 hc
  revert hbyte
  decide

theorem Strict.find (hkey : isKey key = true) {kind : JsonKind} {t : CString}
    (h : Strict (OtherName key) kind t) :
    ∀ rest, EndsValue rest → jsonFindKeyValue key (t ++ rest) = jsonFindKeyValue key rest := by
  have hbrackets : ∀ {a b : UInt8} {t : CString}, a ≠ jsonQuote → a ≠ 0 → b ≠ jsonQuote → b ≠ 0 →
      endsWord b = true →
      (∀ rest, EndsValue rest → jsonFindKeyValue key (t ++ rest) = jsonFindKeyValue key rest) →
      ∀ rest, jsonFindKeyValue key (a :: t ++ [b] ++ rest) = jsonFindKeyValue key rest := by
    intro a b t haquote hanul hbquote hbnul hb ht rest
    have htext : a :: t ++ [b] ++ rest = [a] ++ (t ++ (b :: rest)) := by simp
    rw [htext, skips_byte haquote hanul, ht _ (endsValue_cons hb rest)]
    exact skips_byte hbquote hbnul rest
  have hblank : ∀ {g : CString}, g.all isBlank = true → ∀ rest, EndsValue rest →
      jsonFindKeyValue key (g ++ rest) = jsonFindKeyValue key rest :=
    fun hg rest _ => skips_plain (blank_plain (blank_space hg)) rest
  have hcomma : ∀ {t u : CString},
      (∀ rest, EndsValue rest → jsonFindKeyValue key (t ++ rest) = jsonFindKeyValue key rest) →
      (∀ rest, EndsValue rest → jsonFindKeyValue key (u ++ rest) = jsonFindKeyValue key rest) →
      ∀ rest, EndsValue rest →
        jsonFindKeyValue key (t ++ comma :: u ++ rest) = jsonFindKeyValue key rest := by
    intro t u ht hu rest hrest
    have htext : t ++ comma :: u ++ rest = t ++ (comma :: (u ++ rest)) := by simp
    rw [htext, ht _ (endsValue_cons (by decide) _)]
    exact (skips_byte (by decide) (by decide) (u ++ rest)).trans (hu rest hrest)
  induction h with
  | number hw => exact fun rest _ => find_word (isWord_of_isNumber hw) rest
  | word hw => exact fun rest _ => find_word (isWord_of_literal hw) rest
  | string hs => exact fun rest hrest => find_string hkey hs hrest
  | noItems hg =>
    exact fun rest _ => hbrackets (by decide) (by decide) (by decide) (by decide) (by decide)
      (hblank hg) rest
  | array _ ih =>
    exact fun rest _ => hbrackets (by decide) (by decide) (by decide) (by decide) (by decide)
      ih rest
  | noMembers hg =>
    exact fun rest _ => hbrackets (by decide) (by decide) (by decide) (by decide) (by decide)
      (hblank hg) rest
  | object _ ih =>
    exact fun rest _ => hbrackets (by decide) (by decide) (by decide) (by decide) (by decide)
      ih rest
  | @item g v h hg _ hh ih =>
    intro rest hrest
    have htext : g ++ v ++ h ++ rest = g ++ (v ++ (h ++ rest)) := by simp
    have hend := hrest.blank (blank_space hh)
    rw [htext, skips_plain (blank_plain (blank_space hg)), ih _ hend, hblank hh rest hrest]
  | lastItem _ ih => exact ih
  | items _ _ iht ihu => exact hcomma iht ihu
  | @member g k h t hg hk hname hh _ ih =>
    intro rest hrest
    have htext : g ++ quoted k ++ h ++ jsonColon :: t ++ rest =
        g ++ (quoted k ++ (h ++ jsonColon :: (t ++ rest))) := by simp
    rw [htext, skips_plain (blank_plain (blank_space hg)),
      find_name hkey hk hname (blank_space hh), ih rest hrest]
  | lastMember _ ih => exact ih
  | members _ _ iht ihu => exact hcomma iht ihu

end Search

section Objects

/-- A member of an object: its name and the text of its value. -/
inductive MemberText (N : CString → Prop) : CString × CString → CString → Prop
  | mk {lead k gap space v trail : CString} (hlead : lead.all isBlank = true)
      (hk : StringText k) (hgap : gap.all isBlank = true) (hspace : space.all isBlank = true)
      (hv : Strict N .value v) (htrail : trail.all isBlank = true) :
      MemberText N (k, v) (lead ++ quoted k ++ gap ++ jsonColon :: (space ++ v ++ trail))

/-- The members of an object. -/
inductive MembersText (N : CString → Prop) : List (CString × CString) → CString → Prop
  | last {p : CString × CString} {t : CString} (ht : MemberText N p t) : MembersText N [p] t
  | more {p : CString × CString} {ps : List (CString × CString)} {t u : CString}
      (ht : MemberText N p t) (hu : MembersText N ps u) :
      MembersText N (p :: ps) (t ++ comma :: u)

/-- An object with these members. -/
inductive ObjectText (N : CString → Prop) : List (CString × CString) → CString → Prop
  | empty {start inside ending : CString} (hstart : start.all isBlank = true)
      (hinside : inside.all isBlank = true) (hending : ending.all isBlank = true) :
      ObjectText N [] (start ++ openBrace :: inside ++ closeBrace :: ending)
  | full {start body ending : CString} {ps : List (CString × CString)}
      (hstart : start.all isBlank = true) (hbody : MembersText N ps body)
      (hending : ending.all isBlank = true) :
      ObjectText N ps (start ++ openBrace :: body ++ closeBrace :: ending)

variable {N M : CString → Prop} {key t u : CString} {p q : CString × CString}
  {ps qs : List (CString × CString)}

theorem MemberText.skips (hkey : isKey key = true) (h : MemberText (OtherName key) p t)
    (hname : OtherName key p.1) {rest : CString} (hrest : EndsValue rest) :
    jsonFindKeyValue key (t ++ rest) = jsonFindKeyValue key rest := by
  cases h with
  | mk hlead hk hgap hspace hv htrail =>
    exact (Strict.member hlead hk hname hgap (.item hspace hv htrail)).find hkey rest hrest

theorem MembersText.skips (hkey : isKey key = true) (h : MembersText (OtherName key) ps t)
    (hnames : ∀ p ∈ ps, OtherName key p.1) {rest : CString} (hrest : EndsValue rest) :
    jsonFindKeyValue key (t ++ rest) = jsonFindKeyValue key rest := by
  induction h with
  | last ht => exact ht.skips hkey (hnames _ List.mem_cons_self) hrest
  | @more p ps t u ht _ ih =>
    have htext : t ++ comma :: u ++ rest = t ++ (comma :: (u ++ rest)) := by simp
    rw [htext, ht.skips hkey (hnames _ List.mem_cons_self) (endsValue_cons (by decide) _)]
    exact (skips_byte (by decide) (by decide) (u ++ rest)).trans
      (ih fun p hp => hnames p (List.mem_cons_of_mem _ hp))

theorem ObjectText.skips (hkey : isKey key = true) (h : ObjectText (OtherName key) ps t)
    (hnames : ∀ p ∈ ps, OtherName key p.1) : jsonFindKeyValue key t = none := by
  have hbyte : ∀ {c : UInt8}, c ≠ jsonQuote → c ≠ 0 → ∀ s,
      jsonFindKeyValue key (c :: s) = jsonFindKeyValue key s :=
    fun hquote hnul s => skips_byte hquote hnul s
  have hblank : ∀ {g : CString}, g.all isBlank = true → Skips key g :=
    fun hg => skips_plain (blank_plain (blank_space hg))
  have hending : ∀ {g : CString}, g.all isBlank = true →
      jsonFindKeyValue key (closeBrace :: g) = none := by
    intro g hg
    have hnil := hblank hg []
    rw [List.append_nil] at hnil
    rw [hbyte (by decide) (by decide), hnil]
    rfl
  cases h with
  | @empty start inside ending hstart hinside hend =>
    rw [List.append_assoc, hblank hstart, List.cons_append, hbyte (by decide) (by decide),
      hblank hinside, hending hend]
  | @full start body ending _ hstart hbody hend =>
    rw [List.append_assoc, hblank hstart, List.cons_append, hbyte (by decide) (by decide),
      hbody.skips hkey hnames (endsValue_cons (by decide) _), hending hend]

theorem find_key {gap space v : CString} (hgap : gap.all isSpace = true)
    (hspace : space.all isSpace = true) (hv : Json .value v) (rest : CString) :
    jsonFindKeyValue key (quoted key ++ (gap ++ jsonColon :: (space ++ (v ++ rest)))) =
      some (v ++ rest) := by
  obtain ⟨⟨c, s, hhead, hc⟩, -⟩ := hv.ends
  have hskip : ∀ {g r : CString} {c : UInt8}, g.all isSpace = true → isSpace c = false →
      skipWsRange (g ++ c :: r) = c :: r := by
    intro g r c hg hc
    unfold skipWsRange
    rw [List.dropWhile_append_of_pos (List.all_eq_true.mp hg)]
    simp [hc]
  have hcolon : afterColon (gap ++ jsonColon :: (space ++ (v ++ rest))) = some (v ++ rest) := by
    unfold afterColon
    rw [hskip hgap (by decide)]
    dsimp only
    rw [if_pos rfl, hhead, List.cons_append, hskip hspace hc]
  have hopen : quoted key ++ (gap ++ jsonColon :: (space ++ (v ++ rest))) =
      keyPattern key ++ (gap ++ jsonColon :: (space ++ (v ++ rest))) := by
    simp [quoted, keyPattern]
  have hcons : keyPattern key ++ (gap ++ jsonColon :: (space ++ (v ++ rest))) =
      jsonQuote :: (key ++ [jsonQuote] ++ (gap ++ jsonColon :: (space ++ (v ++ rest)))) := rfl
  rw [hopen, hcons, jsonFindKeyValue, if_neg (by decide), ← hcons, afterStart_append,
    Option.bind_some, hcolon]

/-- Where a member has the key, the search finds its value, and with another one in its place
the members are as before but for this one. -/
theorem MembersText.edit (hkey : isKey key = true) (h : MembersText (OtherName key) ps t)
    (hplain : ∀ p ∈ ps, jsonEscape ∉ p.1) (hmem : key ∈ ps.map Prod.fst) :
    ∃ before old after, t = before ++ (old ++ after) ∧ Json .value old ∧
      (∀ rest, EndsValue (after ++ closeBrace :: rest) ∧
        jsonFindKeyValue key (t ++ closeBrace :: rest) =
          some (old ++ (after ++ closeBrace :: rest))) ∧
      ∀ new, Strict (OtherName key) .value new →
        MembersText (OtherName key) (assign key new ps) (before ++ (new ++ after)) := by
  have hmember : ∀ {p : CString × CString} {t : CString}, MemberText (OtherName key) p t →
      p.1 = key → ∃ before old after, t = before ++ (old ++ after) ∧ Json .value old ∧
        (∀ rest, EndsValue rest → EndsValue (after ++ rest) ∧
          jsonFindKeyValue key (t ++ rest) = some (old ++ (after ++ rest))) ∧
        ∀ new, Strict (OtherName key) .value new →
          MemberText (OtherName key) (key, new) (before ++ (new ++ after)) := by
    intro p t ht hp
    cases ht with
    | @mk lead k gap space v trail hlead hk hgap hspace hv htrail =>
      dsimp only at hp
      subst hp
      refine ⟨lead ++ quoted k ++ gap ++ jsonColon :: space, v, trail, by simp, hv.json,
        fun rest hrest => ⟨hrest.blank (blank_space htrail), ?_⟩, fun new hnew => ?_⟩
      · have htext : lead ++ quoted k ++ gap ++ jsonColon :: (space ++ v ++ trail) ++ rest =
            lead ++ (quoted k ++ (gap ++ jsonColon :: (space ++ (v ++ (trail ++ rest))))) := by
          simp
        rw [htext, skips_plain (blank_plain (blank_space hlead))]
        exact find_key (blank_space hgap) (blank_space hspace) hv.json _
      · have htext : lead ++ quoted k ++ gap ++ jsonColon :: space ++ (new ++ trail) =
            lead ++ quoted k ++ gap ++ jsonColon :: (space ++ new ++ trail) := by
          simp
        rw [htext]
        exact .mk hlead hk hgap hspace hnew htrail
  induction h with
  | @last p t ht =>
    have hp : p.1 = key := by
      rw [List.map_singleton, List.mem_singleton] at hmem
      exact hmem.symm
    obtain ⟨before, old, after, htext, hold, hfind, hedit⟩ := hmember ht hp
    refine ⟨before, old, after, htext, hold,
      fun rest => hfind _ (endsValue_cons (by decide) rest), fun new hnew => ?_⟩
    rw [assign, if_pos hp]
    exact .last (hedit new hnew)
  | @more p ps t u ht hu ih =>
    by_cases hp : p.1 = key
    · obtain ⟨before, old, after, htext, hold, hfind, hedit⟩ := hmember ht hp
      refine ⟨before, old, after ++ comma :: u, by rw [htext]; simp, hold,
        fun rest => ?_, fun new hnew => ?_⟩
      · have hrest := hfind (comma :: (u ++ closeBrace :: rest))
          (endsValue_cons (by decide) _)
        simpa using hrest
      · have hsplit : before ++ (new ++ (after ++ comma :: u)) =
            before ++ (new ++ after) ++ comma :: u := by
          simp
        rw [hsplit, assign, if_pos hp]
        exact .more (hedit new hnew) hu
    · have hmem' : key ∈ ps.map Prod.fst := by
        rw [List.map_cons, List.mem_cons] at hmem
        exact hmem.resolve_left fun h => hp h.symm
      obtain ⟨before, old, after, htext, hold, hfind, hedit⟩ :=
        ih (fun p hp => hplain p (List.mem_cons_of_mem _ hp)) hmem'
      refine ⟨t ++ comma :: before, old, after, by rw [htext]; simp, hold,
        fun rest => ⟨(hfind rest).1, ?_⟩, fun new hnew => ?_⟩
      · have hsplit : t ++ comma :: u ++ closeBrace :: rest =
            t ++ (comma :: (u ++ closeBrace :: rest)) := by
          simp
        rw [hsplit, ht.skips hkey ⟨hplain p List.mem_cons_self, hp⟩
          (endsValue_cons (by decide) _)]
        exact (skips_byte (by decide) (by decide) _).trans (hfind rest).2
      · have hsplit : t ++ comma :: before ++ (new ++ after) =
            t ++ comma :: (before ++ (new ++ after)) := by
          simp
        rw [hsplit, assign, if_neg hp]
        exact .more ht (hedit new hnew)

theorem MembersText.push (h : MembersText N ps t) (hu : MemberText N p u) :
    MembersText N (ps ++ [p]) (t ++ comma :: u) := by
  induction h with
  | last ht => exact .more ht (.last hu)
  | @more q qs t v ht _ ih =>
    have htext : t ++ comma :: v ++ comma :: u = t ++ comma :: (v ++ comma :: u) := by simp
    rw [htext, List.cons_append]
    exact .more ht ih

theorem MembersText.trim (h : MembersText N ps t) :
    ∃ s c g, t = s ++ [c] ++ g ∧ isSpace c = false ∧ g.all isSpace = true ∧
      MembersText N ps (s ++ [c]) := by
  induction h with
  | last ht =>
    cases ht with
    | @mk lead k gap space v trail hlead hk hgap hspace hv htrail =>
      obtain ⟨-, s, c, hlast, hc⟩ := hv.json.ends
      have htext : lead ++ quoted k ++ gap ++ jsonColon :: (space ++ s) ++ [c] =
          lead ++ quoted k ++ gap ++ jsonColon :: (space ++ v ++ []) := by
        simp [hlast]
      refine ⟨lead ++ quoted k ++ gap ++ jsonColon :: (space ++ s), c, trail, ?_, hc,
        blank_space htrail, ?_⟩
      · rw [htext]
        simp
      · rw [htext]
        exact .last (.mk hlead hk hgap hspace hv rfl)
  | @more p ps t u ht _ ih =>
    obtain ⟨s, c, g, rfl, hc, hg, hmembers⟩ := ih
    refine ⟨t ++ comma :: s, c, g, by simp, hc, hg, ?_⟩
    have htext : t ++ comma :: s ++ [c] = t ++ comma :: (s ++ [c]) := by simp
    rw [htext]
    exact .more ht hmembers

end Objects

end PlumosBubble.Frontend
