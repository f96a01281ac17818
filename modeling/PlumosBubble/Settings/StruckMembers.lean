import PlumosBubble.Settings.Solid
import PlumosBubble.Settings.Strikes

/-! `sed` over the values and the members of a JSON text: what comes out has the same form, and the
members keep their names. Numerals apart, nothing changes but blanks. -/

namespace PlumosBubble.Settings.Levels

open Frontend Sequence

section Names

variable {key k s rest : CString}

theorem eq_of_key_quote (hkey : key.all isKeyByte = true) (hs : Escaped s)
    (h : key ++ [jsonQuote] <+: s ++ jsonQuote :: rest) : s = key := by
  induction hs generalizing key with
  | nil =>
    cases key with
    | nil => rfl
    | cons b key =>
      have hb := isKeyByte_ne (List.all_eq_true.mp hkey b List.mem_cons_self)
      exact absurd (List.cons_prefix_cons.mp h).1 hb.1
  | @plain c s hquote _ _ _ ih =>
    cases key with
    | nil => exact absurd (List.cons_prefix_cons.mp h).1.symm hquote
    | cons b key =>
      obtain ⟨rfl, htail⟩ := List.cons_prefix_cons.mp h
      rw [List.all_cons, Bool.and_eq_true] at hkey
      rw [ih hkey.2 htail]
  | pair _ _ _ =>
    cases key with
    | nil => exact absurd (List.cons_prefix_cons.mp h).1 (by decide)
    | cons b key =>
      have hb := isKeyByte_ne (List.all_eq_true.mp hkey b List.mem_cons_self)
      exact absurd (List.cons_prefix_cons.mp h).1 hb.2.1

theorem behind_quote (hs : Escaped s) {u v : CString}
    (h : s ++ [jsonQuote] = u ++ jsonQuote :: v) :
    v = [] ∨ ∃ s', Escaped s' ∧ v = s' ++ [jsonQuote] := by
  induction hs generalizing u with
  | nil =>
    cases u with
    | nil => exact Or.inl (List.cons.inj h).2.symm
    | cons b u => simp at h
  | plain hquote _ _ _ ih =>
    cases u with
    | nil => exact absurd (List.cons.inj h).1 hquote
    | cons b u => exact ih (List.cons.inj h).2
  | @pair c s _ hs ih =>
    cases u with
    | nil => exact absurd (List.cons.inj h).1 (by decide)
    | cons b u =>
      cases u with
      | nil =>
        have hrest := (List.cons.inj (List.cons.inj h).2).2
        exact Or.inr ⟨s, hs, hrest.symm⟩
      | cons d u => exact ih (List.cons.inj (List.cons.inj h).2).2

theorem place_in_quoted (hkey : isKey key = true) (hk : Escaped k)
    (hrest : rest.head?.any isKeyByte = false) {u v : CString} {c : UInt8}
    (hplace : quoted k = u ++ c :: v) (h : keyPattern key <+: c :: v ++ rest) :
    c :: v = quoted key := by
  obtain ⟨hc, htail⟩ := List.cons_prefix_cons.mp h
  have hstart : key ++ [jsonQuote] <+: v ++ rest := htail
  have hall := isKey_all hkey
  subst hc
  cases u with
  | nil =>
    have hv : v = k ++ [jsonQuote] := (List.cons.inj hplace).2.symm
    rw [hv, List.append_assoc, List.singleton_append] at hstart
    rw [← eq_of_key_quote hall hk hstart]
    exact hplace.symm
  | cons b u =>
    have hsplit : k ++ [jsonQuote] = u ++ jsonQuote :: v := (List.cons.inj hplace).2
    rcases behind_quote hk hsplit with rfl | ⟨s, hs, rfl⟩
    · cases key with
      | nil => simp [isKey] at hkey
      | cons d key =>
        rw [List.nil_append] at hstart
        cases rest with
        | nil => exact absurd hstart.length_le (by simp)
        | cons e rest =>
          have hd := List.all_eq_true.mp hall d List.mem_cons_self
          rw [(List.cons_prefix_cons.mp hstart).1] at hd
          exact absurd (hrest.symm.trans hd) Bool.false_ne_true
    · rw [List.append_assoc, List.singleton_append] at hstart
      rw [eq_of_key_quote hall hs hstart]
      rfl

theorem pattern_of_numeralMatch {r : CString} (h : numeralMatch key s = some r) :
    keyPattern key <+: s := by
  obtain ⟨t, ht, -⟩ := Option.bind_eq_some_iff.mp h
  obtain ⟨u, hu, -⟩ := Option.bind_eq_some_iff.mp ht
  unfold afterStart at hu
  split_ifs at hu with hstart
  exact hstart

theorem no_colon_of_ends (h : EndsValue rest) : numeralMatch key (quoted key ++ rest) = none := by
  obtain ⟨g, c, s, rfl, hg, hc⟩ := h
  have hhead : ∀ d ∈ ((g ++ c :: s).dropWhile isGap).head?, d ≠ jsonColon := by
    induction g with
    | nil =>
      have hgap : isGap c = false := by simp [isGap, isSpace_of_endsWord hc]
      intro d hd
      rw [List.nil_append, List.dropWhile_cons, hgap] at hd
      cases hd
      rintro rfl
      exact absurd hc (by decide)
    | cons b g ih =>
      rw [List.all_cons, Bool.and_eq_true] at hg
      intro d hd
      rw [List.cons_append, List.dropWhile_cons] at hd
      split at hd
      · exact ih hg.2 d hd
      · cases hd
        rintro rfl
        exact absurd hg.1 (by decide)
  have hpattern : quoted key ++ (g ++ c :: s) = keyPattern key ++ (g ++ c :: s) := rfl
  have hnone : keyMatch key (quoted key ++ (g ++ c :: s)) = none := by
    rw [hpattern, keyMatch, afterStart_append, Option.bind_some]
    cases hdrop : (g ++ c :: s).dropWhile isGap with
    | nil => rfl
    | cons d t =>
      rw [hdrop] at hhead
      exact if_neg (hhead d rfl)
  rw [numeralMatch, hnone, Option.bind_none]

theorem no_key_of_ends (h : EndsValue rest) : rest.head?.any isKeyByte = false := by
  obtain ⟨g, c, s, rfl, hg, hc⟩ := h
  have hspace : ∀ n < 256, isSpace (UInt8.ofNat n) = true ∨ endsWord (UInt8.ofNat n) = true →
      isKeyByte (UInt8.ofNat n) = false := by
    decide +kernel
  have hbyte : ∀ d, isSpace d = true ∨ endsWord d = true → isKeyByte d = false := by
    intro d hd
    have h := hspace d.toNat d.toNat_lt
    rw [UInt8.ofNat_toNat] at h
    exact h hd
  cases g with
  | nil => exact hbyte c (Or.inr hc)
  | cons d g =>
    rw [List.all_cons, Bool.and_eq_true] at hg
    exact hbyte d (Or.inl hg.1)

theorem Piece.string {value : CString} (hkey : isKey key = true) (hs : Escaped s)
    (struck : Bool) :
    Piece key value EndsValue struck (carried struck (quoted s)) (quoted s) (quoted s) [] := by
  refine .of_none fun rest hrest u c v hplace => Or.inr ?_
  cases hmatch : numeralMatch key (c :: v ++ rest) with
  | none => rfl
  | some r =>
    have hquoted := place_in_quoted hkey hs (no_key_of_ends hrest) hplace
      (pattern_of_numeralMatch hmatch)
    rw [hquoted, no_colon_of_ends hrest] at hmatch
    cases hmatch

end Names

section Members

variable {key value k v rest : CString}

theorem no_digit_of_ends (h : EndsValue rest) : rest.head?.any isDigit = false := by
  have hkey := no_key_of_ends h
  cases rest with
  | nil => rfl
  | cons c rest =>
    have hc : isKeyByte c = false := hkey
    show isDigit c = false
    cases hdigit : isDigit c with
    | false => rfl
    | true =>
      simp only [isKeyByte, isDigit, Bool.and_eq_true, Bool.or_eq_false_iff] at hc hdigit
      exact absurd (hc.2.symm.trans (by simpa using hdigit)) Bool.false_ne_true

theorem number_parts (hv : Json .value v) (hhead : v.head?.any isDigit = true) :
    ∃ digits w, v = digits ++ w ∧ isDigits digits = true ∧ (∀ c ∈ w, isWordByte c = true) ∧
      (∀ rest, EndsValue rest → (w ++ rest).head?.any isDigit = false) ∧
      ∀ value, isWhole value = true → Json .value (value ++ w) := by
  cases hv with
  | number hw =>
    have hword := isWord_of_isNumber hw
    obtain ⟨hsign, hwhole, hfraction, hexponent⟩ := hw
    rename_i sign whole fraction exponent
    have hnone : sign = [] := by
      simp only [List.mem_cons, List.not_mem_nil, or_false] at hsign
      rcases hsign with rfl | rfl
      · rfl
      · have hminus : lit "-" = [0x2d] := rfl
        exact absurd hhead (by simp [hminus, isDigit])
    subst hnone
    refine ⟨whole, fraction ++ exponent, by simp, ?_, ?_, ?_, ?_⟩
    · simp only [isWhole, Bool.and_eq_true] at hwhole
      exact hwhole.1
    · intro c hc
      refine hword.2 c ?_
      rcases List.mem_append.mp hc with hc | hc <;> simp [hc]
    · intro rest hrest
      cases hfraction with
      | some h => rfl
      | none =>
        cases hexponent with
        | none => exact no_digit_of_ends hrest
        | some he _ _ =>
          have hall : ∀ e ∈ lit "eE", isDigit e = false := by decide +kernel
          exact hall _ he
    · intro value hvalue
      have hnumber : IsNumber ([] ++ value ++ fraction ++ exponent) :=
        .mk (by simp) hvalue hfraction hexponent
      rw [← List.append_assoc]
      exact .number (by simpa using hnumber)
  | word hw =>
    have hall : ∀ w ∈ [lit "true", lit "false", lit "null"], w.head?.any isDigit = false := by
      simp only [List.forall_mem_cons, List.not_mem_nil, false_implies, implies_true]
      decide
    exact absurd ((hall v hw).symm.trans hhead) Bool.false_ne_true
  | string _ => exact absurd hhead Bool.false_ne_true
  | noItems _ => exact absurd hhead Bool.false_ne_true
  | array _ => exact absurd hhead Bool.false_ne_true
  | noMembers _ => exact absurd hhead Bool.false_ne_true
  | object _ => exact absurd hhead Bool.false_ne_true

/-- What `sed` makes of a value, or of a part of one. -/
def GoesOver (key value : CString) (kind : JsonKind) (x : CString) : Prop :=
  ∀ struck, ∃ struck' x' places, Piece key value EndsValue struck struck' x x' places ∧
    Json kind x' ∧ Swaps isDigit value (solid false x) (solid false x') (places.map Prod.snd)

theorem swaps_number {digits w : CString} (hdigits : isDigits digits = true)
    (hw : ∀ c ∈ w, isWordByte c = true) (hhead : w.head?.any isDigit = false)
    (hvalue : isDigits value = true) :
    Swaps isDigit value (solid false (digits ++ w)) (solid false (value ++ w)) [digits] := by
  have hsolid : ∀ {digits : CString}, isDigits digits = true →
      solid false (digits ++ w) = digits ++ w := by
    intro digits hdigits
    obtain ⟨-, hall⟩ := isDigits_iff.mp hdigits
    have hself := solid_word (w := digits ++ w) (fun c hc => ?_) []
    · rwa [List.append_nil, solid, List.append_nil] at hself
    · rcases List.mem_append.mp hc with hc | hc
      · exact isWordByte_of_isDigit (hall c hc)
      · exact hw c hc
  obtain ⟨hne, hall⟩ := isDigits_iff.mp hdigits
  rw [hsolid hdigits, hsolid hvalue]
  exact .swap hne (List.all_eq_true.mpr hall) hhead (.refl _ _ w)

theorem no_key_behind_name {gap : CString} (hgap : gap.all isSpace = true) (rest : CString) :
    (gap ++ jsonColon :: rest).head?.any isKeyByte = false := by
  cases gap with
  | nil => rfl
  | cons c gap =>
    rw [List.all_cons, Bool.and_eq_true] at hgap
    have hends : EndsValue (c :: [comma]) := ⟨[c], comma, [], rfl, by simp [hgap.1], by decide⟩
    show isKeyByte c = false
    exact no_key_of_ends hends

theorem Piece.name (hkey : isKey key = true) (hk : Escaped k) {gap : CString}
    (hgap : gap.all isSpace = true) (struck : Bool) (P : CString → Prop)
    (h : ∀ before rest, quoted k = before ++ quoted key → P rest →
      carried struck before = true ∨
        numeralMatch key (quoted key ++ gap ++ jsonColon :: rest) = none) :
    Piece key value P struck (carried struck (quoted k ++ gap ++ [jsonColon]))
      (quoted k ++ gap ++ [jsonColon]) (quoted k ++ gap ++ [jsonColon]) [] := by
  have hplain : ∀ c ∈ gap ++ [jsonColon], c ≠ jsonQuote := by
    intro c hc
    rcases List.mem_append.mp hc with hc | hc
    · exact (blank_plain hgap c hc).1
    · rw [List.mem_singleton.mp hc]
      decide
  refine .of_none fun rest hrest u c w hx => ?_
  cases hmatch : numeralMatch key (c :: w ++ rest) with
  | none => exact Or.inr rfl
  | some r =>
    have hc := head_of_numeralMatch hmatch
    subst hc
    rw [List.append_assoc, List.append_eq_append_iff] at hx
    rcases hx with ⟨v, hu, hv⟩ | ⟨v, hu, hv⟩
    · exact absurd rfl (hplain jsonQuote (by rw [hv]; simp))
    · cases v with
      | nil => exact absurd rfl (hplain jsonQuote (by rw [List.nil_append] at hv; simp [← hv]))
      | cons d v =>
        obtain ⟨rfl, rfl⟩ := List.cons.inj hv
        have htext : jsonQuote :: (v ++ (gap ++ [jsonColon])) ++ rest =
            jsonQuote :: v ++ (gap ++ jsonColon :: rest) := by
          simp
        have hplace : numeralMatch key (jsonQuote :: v ++ (gap ++ jsonColon :: rest)) = some r := by
          rw [← htext]
          exact hmatch
        have hquoted := place_in_quoted hkey hk (no_key_behind_name hgap rest) hu
          (pattern_of_numeralMatch hplace)
        rw [hquoted] at hu hplace
        rcases h u rest hu hrest with hstruck | hnone
        · exact Or.inl hstruck
        · simp only [List.append_assoc] at hplace hnone
          rw [hnone] at hplace
          cases hplace

theorem dropWhile_blank {g s : CString} (hg : g.all isSpace = true) :
    g.all isGap = true ∧ (g ++ s).dropWhile isGap = s.dropWhile isGap ∨
      ∃ t, (g ++ s).dropWhile isGap = newline :: t := by
  induction g with
  | nil => exact Or.inl ⟨rfl, rfl⟩
  | cons c g ih =>
    rw [List.all_cons, Bool.and_eq_true] at hg
    rw [List.cons_append, List.dropWhile_cons]
    by_cases hc : c = newline
    · subst hc
      exact Or.inr ⟨g ++ s, if_neg (by decide)⟩
    · have hgap : isGap c = true := by simp [isGap, hg.1, hc]
      rw [if_pos hgap, List.all_cons, hgap, Bool.true_and]
      exact ih hg.2

theorem line_of_match {gap space r : CString} (hgap : gap.all isSpace = true)
    (hspace : space.all isSpace = true) (hv : Json .value v)
    (h : numeralMatch key (quoted key ++ gap ++ jsonColon :: (space ++ (v ++ rest))) = some r) :
    gap.all isGap = true ∧ space.all isGap = true ∧ v.head?.any isDigit = true := by
  have htext : quoted key ++ gap ++ jsonColon :: (space ++ (v ++ rest)) =
      keyPattern key ++ (gap ++ jsonColon :: (space ++ (v ++ rest))) := by
    simp [quoted, keyPattern]
  obtain ⟨t, ht, hdigit⟩ := Option.bind_eq_some_iff.mp h
  rw [htext, keyMatch, afterStart_append, Option.bind_some] at ht
  rcases dropWhile_blank (s := jsonColon :: (space ++ (v ++ rest))) hgap with
    ⟨hgaps, hdrop⟩ | ⟨u, hdrop⟩
  · have hcolon : isGap jsonColon = false := by decide
    rw [hdrop, List.dropWhile_cons, hcolon] at ht
    cases ht
    dsimp only at hdigit
    rcases dropWhile_blank (s := v ++ rest) hspace with ⟨hspaces, hdrop'⟩ | ⟨u, hdrop'⟩
    · obtain ⟨⟨c, s, rfl, hc⟩, -⟩ := hv.ends
      have hcgap : isGap c = false := by simp [isGap, hc]
      have hstays : ((c :: s) ++ rest).dropWhile isGap = c :: s ++ rest := by
        simp [hcgap]
      rw [hdrop', hstays] at hdigit
      split_ifs at hdigit with hd
      exact ⟨hgaps, hspaces, hd⟩
    · rw [hdrop'] at hdigit
      cases hdigit
  · rw [hdrop] at ht
    cases ht

theorem struck_member (hkey : isKey key = true) (hvalue : isWhole value = true)
    (hk : Escaped k) {gap space : CString} (hgap : gap.all isSpace = true)
    (hspace : space.all isSpace = true) (hv : Json .value v)
    (hover : GoesOver key value .value v) (struck : Bool) :
    ∃ struck' gap' space' v' places,
      Piece key value EndsValue struck struck' (quoted k ++ gap ++ jsonColon :: (space ++ v))
        (quoted k ++ gap' ++ jsonColon :: (space' ++ v')) places ∧
        gap'.all isSpace = true ∧ space'.all isSpace = true ∧ Json .value v' ∧
        Swaps isDigit value (solid false v) (solid false v') (places.map Prod.snd) := by
  by_cases hstrike : ∃ before, quoted k = before ++ quoted key ∧ carried struck before = false ∧
      gap.all isGap = true ∧ space.all isGap = true ∧ v.head?.any isDigit = true
  · obtain ⟨before, hbefore, hfree, hgaps, hspaces, hdigit⟩ := hstrike
    obtain ⟨digits, w, rfl, hdigits, hw, hend, hnumber⟩ := number_parts hv hdigit
    have hplain : Piece key value EndsValue true (carried true w) w w [] :=
      .plain _ _ fun c hc => (isWordByte_ne (hw c hc)).2.2.1
    have hmatch : ∀ rest, EndsValue rest → numeralMatch key
        (quoted key ++ gap ++ jsonColon :: (space ++ (digits ++ (w ++ rest)))) =
          some (w ++ rest) ∧ numeralAt key
        (quoted key ++ gap ++ jsonColon :: (space ++ (digits ++ (w ++ rest)))) = some digits :=
      fun rest hrest => numeral_key hgaps hspaces hdigits (hend rest hrest)
    have hcolon : lit ": " = jsonColon :: [0x20] := rfl
    -- the key is found at the end of the name only
    have hnone : ∀ u c u' rest, before = u ++ c :: u' →
        numeralMatch key (c :: u' ++ (quoted key ++ gap ++ jsonColon :: rest)) = none := by
      intro u c u' rest hu
      cases hplace : numeralMatch key (c :: u' ++ (quoted key ++ gap ++ jsonColon :: rest)) with
      | none => rfl
      | some r =>
        have hquoted : quoted k = u ++ c :: (u' ++ quoted key) := by
          rw [hbefore, hu]
          simp
        have htext : c :: u' ++ (quoted key ++ gap ++ jsonColon :: rest) =
            c :: (u' ++ quoted key) ++ (gap ++ jsonColon :: rest) := by
          simp
        rw [htext] at hplace
        have hlength := congrArg List.length (place_in_quoted hkey hk
          (no_key_behind_name hgap rest) hquoted (pattern_of_numeralMatch hplace))
        simp only [List.length_cons, List.length_append] at hlength
        omega
    have hhead : w.head?.any isDigit = false := by
      have hbrace := hend [closeBrace] (endsValue_cons (by decide) [])
      cases w with
      | nil => rfl
      | cons c w => exact hbrace
    rw [isWhole, Bool.and_eq_true] at hvalue
    refine ⟨carried true w, [], [0x20], value ++ w,
      [(quoted key ++ gap ++ jsonColon :: (space ++ (digits ++ w)), digits)], ⟨?_, ?_⟩, rfl,
      by decide, hnumber value (by rw [isWhole, hvalue.1, hvalue.2]; rfl),
      swaps_number hdigits hw hhead hvalue.1⟩
    · intro rest t hs hrest hstrikes
      have hstruck : Strikes key value false _ _ _ :=
        .strike (hmatch rest hrest).1 (hplain.strikes hrest hstrikes)
      rw [← hfree] at hstruck
      have hpass := Strikes.pass_all (fun u c u' hu => Or.inr (hnone u c u' _ hu)) hstruck
      simpa [hbefore, newMember, hcolon, List.append_assoc] using hpass
    · intro p hp
      rw [List.mem_singleton.mp hp]
      refine ⟨by simp [quoted], fun rest hrest => ?_⟩
      simpa [List.append_assoc] using (hmatch rest hrest).2
  · obtain ⟨struck', v', places, hpiece, hjson, hswaps⟩ := hover
      (carried (carried struck (quoted k ++ gap ++ [jsonColon])) space)
    have hname : Piece key value
        (fun rest => ∃ rest', rest = space ++ (v ++ rest') ∧ EndsValue rest') struck _ _ _ [] :=
      .name hkey hk hgap struck _ ?_
    · have hspaced : Piece key value EndsValue _ _ (space ++ v) (space ++ v') _ :=
        (Piece.blank (fun _ => True) _ hspace).append hpiece fun _ _ => trivial
      have hall := hname.append hspaced fun rest hrest => ⟨rest, by simp, hrest⟩
      exact ⟨struck', gap, space, v', places, by simpa [List.append_assoc] using hall, hgap,
        hspace, hjson, hswaps⟩
    · rintro before _ hbefore ⟨rest, rfl, -⟩
      cases hfree : carried struck before with
      | true => exact Or.inl rfl
      | false =>
        right
        cases hmatch : numeralMatch key
            (quoted key ++ gap ++ jsonColon :: (space ++ (v ++ rest))) with
        | none => rfl
        | some r =>
          exact absurd ⟨before, hbefore, hfree, line_of_match hgap hspace hv hmatch⟩ hstrike

end Members

end PlumosBubble.Settings.Levels
