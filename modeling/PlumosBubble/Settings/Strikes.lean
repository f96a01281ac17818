import PlumosBubble.Frontend.JsonStrict
import PlumosBubble.Sequence.Swaps
import PlumosBubble.Settings.Levels

/-! Where `sed` strikes in a text, and what it makes of a piece of a text whatever stands behind. -/

namespace PlumosBubble.Settings.Levels

open Frontend Sequence

/-- A run of `s/…/…/` over a text: what comes out, and the places of the strikes. The flag says
that the line has had its strike. -/
inductive Strikes (key value : CString) : Bool → CString → CString → List CString → Prop
  | nil {struck : Bool} : Strikes key value struck [] [] []
  | newline {struck : Bool} {s t : CString} {hs : List CString}
      (h : Strikes key value false s t hs) :
      Strikes key value struck (newline :: s) (newline :: t) hs
  | pass {struck : Bool} {c : UInt8} {s t : CString} {hs : List CString} (hc : c ≠ newline)
      (hnone : struck = true ∨ numeralMatch key (c :: s) = none)
      (h : Strikes key value struck s t hs) : Strikes key value struck (c :: s) (c :: t) hs
  | strike {s rest t : CString} {hs : List CString} (hmatch : numeralMatch key s = some rest)
      (h : Strikes key value true rest t hs) :
      Strikes key value false s (newMember key value ++ t) (s :: hs)

section Lexical

variable {key value : CString} {struck : Bool} {s t rest : CString} {hs : List CString}

theorem sedNumeral_skip (struck : Bool) (skip : ℕ) (s : CString) :
    sedNumeral key value struck skip s = sedNumeral key value struck 0 (s.drop skip) := by
  induction s generalizing skip with
  | nil => cases skip <;> simp [sedNumeral]
  | cons c s ih =>
    cases skip with
    | zero => rfl
    | succ skip =>
      rw [sedNumeral, List.drop_succ_cons]
      exact ih skip

theorem hits_skip (struck : Bool) (skip : ℕ) (s : CString) :
    hits key struck skip s = hits key struck 0 (s.drop skip) := by
  induction s generalizing skip with
  | nil => cases skip <;> simp [hits]
  | cons c s ih =>
    cases skip with
    | zero => rfl
    | succ skip =>
      rw [hits, List.drop_succ_cons]
      exact ih skip

theorem head_of_keyMatch {c : UInt8} (h : keyMatch key (c :: s) = some rest) : c = jsonQuote := by
  obtain ⟨t, ht, -⟩ := Option.bind_eq_some_iff.mp h
  unfold afterStart at ht
  split_ifs at ht with hstart
  exact (List.cons_prefix_cons.mp hstart).1.symm

theorem head_of_numeralMatch {c : UInt8} (h : numeralMatch key (c :: s) = some rest) :
    c = jsonQuote := by
  obtain ⟨t, ht, -⟩ := Option.bind_eq_some_iff.mp h
  exact head_of_keyMatch ht

theorem suffix_of_match (h : numeralMatch key s = some rest) : rest <:+ s := by
  cases s with
  | nil => simp [numeralMatch, keyMatch, afterStart, keyPattern] at h
  | cons c s => exact (suffix_of_numeralMatch h).trans (List.suffix_cons c s)

/-- `sed` and its strikes. -/
theorem strikes_sedNumeral (key value : CString) (struck : Bool) (s : CString) :
    Strikes key value struck s (sedNumeral key value struck 0 s) (hits key struck 0 s) := by
  induction hn : s.length using Nat.strong_induction_on generalizing s struck with
  | _ n ih =>
    cases s with
    | nil => exact .nil
    | cons c s =>
      have htail : ∀ struck, Strikes key value struck s (sedNumeral key value struck 0 s)
          (hits key struck 0 s) := by
        intro struck
        refine ih s.length ?_ struck s rfl
        rw [← hn, List.length_cons]
        omega
      rw [sedNumeral, hits]
      by_cases hline : c = newline
      · rw [if_pos hline, if_pos hline, hline]
        exact .newline (htail false)
      · rw [if_neg hline, if_neg hline]
        cases struck with
        | true =>
          rw [if_pos rfl, if_pos rfl]
          exact .pass hline (Or.inl rfl) (htail true)
        | false =>
          simp only [Bool.false_eq_true, if_false]
          cases hmatch : numeralMatch key (c :: s) with
          | none => exact .pass hline (Or.inr hmatch) (htail false)
          | some rest =>
            have hsuffix := suffix_of_numeralMatch hmatch
            dsimp only
            rw [sedNumeral_skip, hits_skip, drop_of_suffix hsuffix]
            refine .strike hmatch (ih rest.length ?_ true rest rfl)
            have hle := hsuffix.length_le
            rw [← hn, List.length_cons]
            omega

theorem Strikes.unique {t' : CString} {hs' : List CString} (h : Strikes key value struck s t hs)
    (h' : Strikes key value struck s t' hs') : t = t' ∧ hs = hs' := by
  induction h generalizing t' hs' with
  | nil =>
    generalize hempty : ([] : CString) = empty at h'
    cases h' with
    | nil => exact ⟨rfl, rfl⟩
    | newline _ => cases hempty
    | pass _ _ _ => cases hempty
    | strike hmatch _ =>
      rw [← hempty] at hmatch
      simp [numeralMatch, keyMatch, afterStart, keyPattern] at hmatch
  | newline _ ih =>
    generalize hline : PlumosBubble.Settings.newline :: _ = line at h'
    cases h' with
    | nil => cases hline
    | newline h' =>
      obtain ⟨-, rfl⟩ := List.cons.inj hline
      obtain ⟨rfl, rfl⟩ := ih h'
      exact ⟨rfl, rfl⟩
    | pass hc _ _ => exact absurd (List.cons.inj hline).1.symm hc
    | strike hmatch _ =>
      rw [← hline] at hmatch
      exact absurd (head_of_numeralMatch hmatch) (by decide)
  | @pass struck c s t hs hc hnone _ ih =>
    generalize hline : c :: s = line at h'
    cases h' with
    | nil => cases hline
    | newline _ => exact absurd (List.cons.inj hline).1 hc
    | pass _ _ h' =>
      obtain ⟨rfl, rfl⟩ := List.cons.inj hline
      obtain ⟨rfl, rfl⟩ := ih h'
      exact ⟨rfl, rfl⟩
    | strike hmatch _ =>
      rw [← hline] at hmatch
      rcases hnone with hstruck | hnone
      · cases hstruck
      · rw [hnone] at hmatch
        cases hmatch
  | strike hmatch _ ih =>
    cases h' with
    | nil => simp [numeralMatch, keyMatch, afterStart, keyPattern] at hmatch
    | newline _ => exact absurd (head_of_numeralMatch hmatch) (by decide)
    | pass _ hnone _ =>
      rcases hnone with hstruck | hnone
      · cases hstruck
      · rw [hnone] at hmatch
        cases hmatch
    | strike hmatch' h' =>
      rw [hmatch] at hmatch'
      cases hmatch'
      obtain ⟨rfl, rfl⟩ := ih h'
      exact ⟨rfl, rfl⟩

theorem dropWhile_digits {digits : CString} (hdigits : digits.all isDigit = true)
    (hrest : rest.head?.any isDigit = false) : (digits ++ rest).dropWhile isDigit = rest := by
  rw [List.dropWhile_append_of_pos (List.all_eq_true.mp hdigits)]
  cases rest with
  | nil => rfl
  | cons c rest =>
    have hc : isDigit c = false := hrest
    simp [hc]

theorem numeral_key {gap space digits : CString} (hgap : gap.all isGap = true)
    (hspace : space.all isGap = true) (hdigits : isDigits digits = true)
    (hrest : rest.head?.any isDigit = false) :
    numeralMatch key (quoted key ++ gap ++ jsonColon :: (space ++ (digits ++ rest))) = some rest ∧
      numeralAt key (quoted key ++ gap ++ jsonColon :: (space ++ (digits ++ rest))) =
        some digits := by
  obtain ⟨hne, hmem⟩ := isDigits_iff.mp hdigits
  have hall : digits.all isDigit = true := List.all_eq_true.mpr hmem
  have htext : quoted key ++ gap ++ jsonColon :: (space ++ (digits ++ rest)) =
      keyPattern key ++ (gap ++ jsonColon :: (space ++ (digits ++ rest))) := by
    simp [quoted, keyPattern]
  have hkey : keyMatch key (quoted key ++ gap ++ jsonColon :: (space ++ (digits ++ rest))) =
      some (space ++ (digits ++ rest)) := by
    rw [htext, keyMatch, afterStart_append, Option.bind_some, dropWhile_gap hgap (by decide)]
    rfl
  have hdrop : (space ++ (digits ++ rest)).dropWhile isGap = digits ++ rest ∧
      (digits ++ rest).head?.any isDigit = true := by
    cases digits with
    | nil => exact absurd rfl hne
    | cons d digits =>
      have hd : isDigit d = true := hmem d List.mem_cons_self
      have hspaced : isGap d = false := by
        simp [isGap, (isWordByte_ne (isWordByte_of_isDigit hd)).1]
      exact ⟨dropWhile_gap hspace hspaced, hd⟩
  constructor
  · rw [numeralMatch, hkey, Option.bind_some]
    dsimp only
    rw [hdrop.1, if_pos hdrop.2, dropWhile_digits hall hrest]
  · rw [numeralAt, hkey, Option.bind_some]
    dsimp only
    rw [hdrop.1, if_pos hdrop.2, Swaps.takeWhile_word hall hrest]

theorem Strikes.suffix (h : Strikes key value struck s t hs) : ∀ place ∈ hs, place <:+ s := by
  induction h with
  | nil => simp
  | newline _ ih => exact fun place hplace => (ih place hplace).trans (List.suffix_cons _ _)
  | pass _ _ _ ih => exact fun place hplace => (ih place hplace).trans (List.suffix_cons _ _)
  | strike hmatch _ ih =>
    intro place hplace
    rcases List.mem_cons.mp hplace with rfl | hplace
    · exact List.suffix_rfl
    · exact (ih place hplace).trans (suffix_of_match hmatch)

end Lexical

section Pieces

variable {key value : CString} {struck struck' : Bool} {s t x x' y y' rest : CString}
  {hs : List CString} {places : List (CString × CString)}

/-- The flag behind a text without strikes. -/
def carried (struck : Bool) (x : CString) : Bool := struck && newline ∉ x

theorem carried_cons {c : UInt8} (hc : c ≠ newline) (x : CString) :
    carried struck (c :: x) = carried struck x := by
  simp [carried, hc.symm]

theorem carried_newline (x : CString) : carried struck (newline :: x) = false := by
  simp [carried]

theorem Strikes.pass_all (h : ∀ u c v, x = u ++ c :: v →
      carried struck u = true ∨ numeralMatch key (c :: v ++ rest) = none)
    (hrest : Strikes key value (carried struck x) rest t hs) :
    Strikes key value struck (x ++ rest) (x ++ t) hs := by
  induction x generalizing struck with
  | nil =>
    have hsame : carried struck [] = struck := by simp [carried]
    rwa [hsame] at hrest
  | cons c x ih =>
    by_cases hc : c = Settings.newline
    · subst hc
      rw [carried_newline] at hrest
      refine .newline (ih (fun u d v hx => ?_) hrest)
      have hd := h (Settings.newline :: u) d v (by rw [hx]; rfl)
      rwa [carried_newline] at hd
    · rw [carried_cons hc] at hrest
      refine .pass hc ?_ (ih (fun u d v hx => ?_) hrest)
      · have hhere := h [] c x rfl
        simpa [carried] using hhere
      · have hd := h (c :: u) d v (by rw [hx]; rfl)
        rwa [carried_cons hc] at hd

/-- What `sed` makes of a piece of a text, whatever stands behind it as `P` says. The places begin
within the piece, and their numerals end there too. -/
structure Piece (key value : CString) (P : CString → Prop) (struck struck' : Bool)
    (x x' : CString) (places : List (CString × CString)) : Prop where
  strikes : ∀ {rest t hs}, P rest → Strikes key value struck' rest t hs →
    Strikes key value struck (x ++ rest) (x' ++ t) (places.map (fun p => p.1 ++ rest) ++ hs)
  inside : ∀ p ∈ places, p.1 ≠ [] ∧ ∀ rest, P rest → numeralAt key (p.1 ++ rest) = some p.2

theorem Piece.append {P Q : CString → Prop} {struck'' : Bool} {more : List (CString × CString)}
    (hx : Piece key value P struck struck' x x' places)
    (hy : Piece key value Q struck' struck'' y y' more)
    (hPQ : ∀ rest, Q rest → P (y ++ rest)) :
    Piece key value Q struck struck'' (x ++ y) (x' ++ y')
      (places.map (fun p => (p.1 ++ y, p.2)) ++ more) where
  strikes := by
    intro rest t hs hrest h
    have hboth := hx.strikes (hPQ rest hrest) (hy.strikes hrest h)
    simpa [List.map_append, Function.comp_def, List.append_assoc] using hboth
  inside := by
    intro p hp
    rcases List.mem_append.mp hp with hp | hp
    · obtain ⟨q, hq, rfl⟩ := List.mem_map.mp hp
      obtain ⟨hne, hnumeral⟩ := hx.inside q hq
      refine ⟨by simp [hne], fun rest hrest => ?_⟩
      rw [List.append_assoc]
      exact hnumeral (y ++ rest) (hPQ rest hrest)
    · exact hy.inside p hp

theorem Piece.of_none {P : CString → Prop} (h : ∀ rest, P rest → ∀ u c v, x = u ++ c :: v →
      carried struck u = true ∨ numeralMatch key (c :: v ++ rest) = none) :
    Piece key value P struck (carried struck x) x x [] where
  strikes := fun hrest hstrikes => .pass_all (h _ hrest) hstrikes
  inside := by simp

theorem Piece.plain (P : CString → Prop) (struck : Bool) (h : ∀ c ∈ x, c ≠ jsonQuote) :
    Piece key value P struck (carried struck x) x x [] := by
  refine .of_none fun rest _ u c v hx => Or.inr ?_
  cases hmatch : numeralMatch key (c :: v ++ rest) with
  | none => rfl
  | some r => exact absurd (head_of_numeralMatch hmatch) (h c (by rw [hx]; simp))

theorem Piece.blank (P : CString → Prop) (struck : Bool) (h : x.all isSpace = true) :
    Piece key value P struck (carried struck x) x x [] :=
  .plain P struck fun c hc => (blank_plain h c hc).1

end Pieces

end PlumosBubble.Settings.Levels
