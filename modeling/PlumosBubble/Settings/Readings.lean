import PlumosBubble.Sequence.Separators
import PlumosBubble.Settings.StruckMembers

/-! What is read back of a text that `sed` has struck: on the first line with a numeral for the key
the last one counts, so it is the new one only if no other follows there. -/

namespace PlumosBubble.Settings.Levels

open Frontend Sequence

/-- The last numeral for the key behind the one at this place, on the same line. -/
def laterNumeral (key place : CString) : Option CString :=
  (numeralMatch key place).bind fun rest => lastNumeral key (rest.takeWhile (· ≠ newline))

section Lines

variable {key value s l r rest : CString}

theorem dropWhile_before {p : UInt8 → Bool} {c : UInt8} (hc : p c = false) (s r : CString) :
    (s ++ c :: r).dropWhile p = s.dropWhile p ++ c :: r := by
  induction s with
  | nil => simp [hc]
  | cons d s ih =>
    rw [List.cons_append, List.dropWhile_cons, List.dropWhile_cons, ih]
    split <;> rfl

theorem takeWhile_before {p : UInt8 → Bool} {c : UInt8} (hc : p c = false) (s r : CString) :
    (s ++ c :: r).takeWhile p = s.takeWhile p := by
  induction s with
  | nil => simp [hc]
  | cons d s ih =>
    rw [List.cons_append, List.takeWhile_cons, List.takeWhile_cons, ih]

theorem newline_notMem_pattern (hkey : isKey key = true) : newline ∉ keyPattern key := by
  have hall := List.all_eq_true.mp (isKey_all hkey)
  have hbyte : isKeyByte newline = false := by decide
  have hquote : newline ≠ jsonQuote := by decide
  intro hmem
  have hin : newline ∈ key := by simpa [keyPattern, hquote] using hmem
  exact absurd (hbyte.symm.trans (hall _ hin)) Bool.false_ne_true

theorem keyMatch_line (hkey : isKey key = true) (s r : CString) :
    keyMatch key (s ++ newline :: r) = (keyMatch key s).map (· ++ newline :: r) := by
  have hgap : isGap newline = false := by decide
  have hcolon : newline ≠ jsonColon := by decide
  unfold keyMatch afterStart
  rw [if_congr (prefix_piece (newline_notMem_pattern hkey)) rfl rfl]
  split_ifs with hstart
  · rw [List.drop_append_of_le_length hstart.length_le, Option.bind_some, Option.bind_some,
      dropWhile_before hgap]
    cases (s.drop (keyPattern key).length).dropWhile isGap with
    | nil => simp [hcolon]
    | cons c u =>
      by_cases hc : c = jsonColon
      · simp [hc]
      · simp [hc]
  · rfl

theorem head_before (s r : CString) :
    (s ++ newline :: r).head?.any isDigit = s.head?.any isDigit := by
  cases s <;> rfl

theorem numeralMatch_line (hkey : isKey key = true) (s r : CString) :
    numeralMatch key (s ++ newline :: r) = (numeralMatch key s).map (· ++ newline :: r) := by
  have hgap : isGap newline = false := by decide
  have hdigit : isDigit newline = false := by decide
  unfold numeralMatch
  rw [keyMatch_line hkey]
  cases keyMatch key s with
  | none => rfl
  | some u =>
    simp only [Option.map_some, Option.bind_some, dropWhile_before hgap, head_before]
    split
    · rw [dropWhile_before hdigit, Option.map_some]
    · rfl

theorem numeralAt_eq_none_iff : numeralAt key s = none ↔ numeralMatch key s = none := by
  unfold numeralAt numeralMatch
  cases keyMatch key s with
  | none => simp
  | some u => simp

theorem laterNumeral_line (hkey : isKey key = true) (s r : CString) :
    laterNumeral key (s ++ newline :: r) = laterNumeral key s := by
  unfold laterNumeral
  rw [numeralMatch_line hkey]
  cases numeralMatch key s with
  | none => rfl
  | some u => rw [Option.map_some, Option.bind_some, Option.bind_some, takeWhile_before (by simp)]

theorem lastNumeral_append {x : CString}
    (h : ∀ u c v, x = u ++ c :: v → numeralMatch key (c :: v ++ rest) = none) :
    lastNumeral key (x ++ rest) = lastNumeral key rest := by
  induction x with
  | nil => rfl
  | cons c x ih =>
    have hhere : numeralAt key (c :: (x ++ rest)) = none :=
      numeralAt_eq_none_iff.mpr (h [] c x rfl)
    rw [List.cons_append, lastNumeral, ih fun u d v hx => h (c :: u) d v (by rw [hx]; rfl), hhere,
      Option.or_none]

theorem lastNumeral_plain {x : CString} (h : ∀ c ∈ x, c ≠ jsonQuote) :
    lastNumeral key (x ++ rest) = lastNumeral key rest := by
  apply lastNumeral_append
  intro u c v hx
  cases hmatch : numeralMatch key (c :: v ++ rest) with
  | none => rfl
  | some r => exact absurd (head_of_numeralMatch hmatch) (h c (by rw [hx]; simp))

theorem escaped_key (hkey : isKey key = true) : Escaped key := by
  have hall := List.all_eq_true.mp (isKey_all hkey)
  clear hkey
  induction key with
  | nil => exact .nil
  | cons c key ih =>
    obtain ⟨hquote, hescape, hnul⟩ := isKeyByte_ne (hall c List.mem_cons_self)
    exact .plain hquote hescape hnul (ih fun d hd => hall d (List.mem_cons_of_mem _ hd))

theorem lastNumeral_newMember (hkey : isKey key = true) (hvalue : isDigits value = true)
    (hrest : rest.head?.any isDigit = false) :
    lastNumeral key (newMember key value ++ rest) =
      some ((lastNumeral key rest).getD value) := by
  have hcolon : lit ": " = jsonColon :: [0x20] := rfl
  obtain ⟨-, hdigits⟩ := isDigits_iff.mp hvalue
  have htext : newMember key value ++ rest =
      jsonQuote :: (key ++ [jsonQuote] ++ (jsonColon :: [0x20] ++ value ++ rest)) := by
    simp [newMember, quoted, hcolon]
  have hhere : numeralAt key (newMember key value ++ rest) = some value := by
    have hplace : newMember key value ++ rest =
        quoted key ++ [] ++ jsonColon :: ([0x20] ++ (value ++ rest)) := by
      simp [newMember, hcolon]
    rw [hplace]
    exact (numeral_key rfl (by decide) hvalue hrest).2
  have hname : lastNumeral key (key ++ [jsonQuote] ++ (jsonColon :: [0x20] ++ value ++ rest)) =
      lastNumeral key (jsonColon :: [0x20] ++ value ++ rest) := by
    apply lastNumeral_append
    intro u c v hx
    cases hmatch : numeralMatch key (c :: v ++ (jsonColon :: [0x20] ++ value ++ rest)) with
    | none => rfl
    | some r =>
      have hquoted : quoted key = (jsonQuote :: u) ++ c :: v := by
        rw [List.cons_append, ← hx]
        rfl
      have hlength := congrArg List.length (place_in_quoted hkey (escaped_key hkey) rfl hquoted
        (pattern_of_numeralMatch hmatch))
      rw [hquoted] at hlength
      simp only [List.length_append, List.length_cons] at hlength
      omega
  have hplain : ∀ c ∈ jsonColon :: [0x20] ++ value, c ≠ jsonQuote := by
    intro c hc
    rcases List.mem_append.mp hc with hc | hc
    · have hall : ∀ c ∈ [jsonColon, 0x20], c ≠ jsonQuote := by simp [jsonColon, jsonQuote]
      exact hall c hc
    · exact (isWordByte_ne (isWordByte_of_isDigit (hdigits c hc))).2.2.1
  rw [htext] at hhere ⊢
  rw [lastNumeral, hname, lastNumeral_plain hplain, hhere]
  cases lastNumeral key rest <;> rfl

end Lines

section Struck

variable {key value s t l rest : CString} {struck : Bool} {hs : List CString}

theorem head_of_match (h : numeralMatch key s = some rest) : rest.head?.any isDigit = false := by
  obtain ⟨t, -, hmatch⟩ := Option.bind_eq_some_iff.mp h
  dsimp only at hmatch
  split_ifs at hmatch
  cases hmatch
  generalize t.dropWhile isGap = u
  induction u with
  | nil => rfl
  | cons c u ih =>
    rw [List.dropWhile_cons]
    by_cases hc : isDigit c = true
    · rw [if_pos hc]
      exact ih
    · rw [if_neg hc]
      simpa using hc

theorem Strikes.stays (h : Strikes key value true l t hs) (hline : Settings.newline ∉ l) :
    t = l ∧ hs = [] := by
  generalize htrue : true = flag at h
  induction h with
  | nil => exact ⟨rfl, rfl⟩
  | newline _ _ => exact absurd List.mem_cons_self hline
  | pass _ _ _ ih =>
    obtain ⟨rfl, rfl⟩ := ih (fun hmem => hline (List.mem_cons_of_mem _ hmem)) htrue
    exact ⟨rfl, rfl⟩
  | strike _ _ _ => cases htrue

theorem Strikes.eq_of_nil (h : Strikes key value struck s t hs) (hnone : hs = []) : t = s := by
  induction h with
  | nil => rfl
  | newline _ ih => rw [ih hnone]
  | pass _ _ _ ih => rw [ih hnone]
  | strike _ _ _ => cases hnone

theorem Strikes.lastNumeral (hkey : isKey key = true) (hvalue : isDigits value = true)
    (h : Strikes key value false l t hs) (hline : Settings.newline ∉ l) :
    Levels.lastNumeral key t = hs.head?.map fun place => (laterNumeral key place).getD value := by
  generalize hfalse : false = flag at h
  induction h with
  | nil => rfl
  | newline _ _ => exact absurd List.mem_cons_self hline
  | @pass struck c s t hs _ hnone h ih =>
    have hlast := ih (fun hmem => hline (List.mem_cons_of_mem _ hmem)) hfalse
    have hfree : numeralMatch key (c :: s) = none := by
      rcases hnone with htrue | hnone
      · rw [← hfalse] at htrue
        cases htrue
      · exact hnone
    rw [Levels.lastNumeral, hlast]
    cases hs with
    | nil => rw [h.eq_of_nil rfl, numeralAt_eq_none_iff.mpr hfree]; rfl
    | cons place hs => rfl
  | @strike s rest t hs hmatch h _ =>
    have hsuffix := suffix_of_match hmatch
    have hrest : Settings.newline ∉ rest := fun hmem => hline (hsuffix.subset hmem)
    obtain ⟨rfl, rfl⟩ := h.stays hrest
    have hall : t.takeWhile (· ≠ Settings.newline) = t := by
      rw [List.takeWhile_eq_self_iff]
      rintro c hc
      exact decide_eq_true fun heq => hrest (heq ▸ hc)
    rw [lastNumeral_newMember hkey hvalue (head_of_match hmatch), List.head?_cons, Option.map_some,
      laterNumeral, hmatch, Option.bind_some, hall]

theorem Strikes.line {r t' : CString} {more : List CString} (hkey : isKey key = true)
    (h : Strikes key value struck l t hs) (hline : Settings.newline ∉ l)
    (hr : Strikes key value false r t' more) :
    Strikes key value struck (l ++ Settings.newline :: r) (t ++ Settings.newline :: t')
      (hs.map (· ++ Settings.newline :: r) ++ more) := by
  induction h with
  | nil => exact .newline hr
  | newline _ _ => exact absurd List.mem_cons_self hline
  | @pass struck c s t hs hc hnone _ ih =>
    refine .pass hc ?_ (ih fun hmem => hline (List.mem_cons_of_mem _ hmem))
    rcases hnone with hstruck | hnone
    · exact Or.inl hstruck
    · right
      have hmatch := numeralMatch_line hkey (c :: s) r
      rw [hnone] at hmatch
      exact hmatch
  | @strike s rest t hs hmatch _ ih =>
    have hmatch' : numeralMatch key (s ++ Settings.newline :: r) =
        some (rest ++ Settings.newline :: r) := by
      rw [numeralMatch_line hkey, hmatch]
      rfl
    have hrest : Settings.newline ∉ rest :=
      fun hmem => hline ((suffix_of_match hmatch).subset hmem)
    rw [List.append_assoc]
    exact .strike hmatch' (ih hrest)

theorem newline_notMem_newMember (hkey : isKey key = true) (hvalue : isDigits value = true) :
    newline ∉ newMember key value := by
  have hcolon : lit ": " = jsonColon :: [0x20] := rfl
  have hdigit : isDigit newline = false := by decide
  obtain ⟨-, hdigits⟩ := isDigits_iff.mp hvalue
  have hpattern : newMember key value = keyPattern key ++ (jsonColon :: [0x20] ++ value) := by
    simp [newMember, quoted, keyPattern, hcolon]
  have hnew : newline ∉ value :=
    fun hmem => absurd (hdigit.symm.trans (hdigits _ hmem)) Bool.false_ne_true
  have hsign : newline ∉ ([jsonColon, 0x20] : CString) := by decide
  rw [hpattern, List.mem_append, List.mem_append, not_or, not_or]
  exact ⟨newline_notMem_pattern hkey, hsign, hnew⟩

theorem Strikes.newline_notMem (hkey : isKey key = true) (hvalue : isDigits value = true)
    (h : Strikes key value struck s t hs) (hline : Settings.newline ∉ s) :
    Settings.newline ∉ t := by
  induction h with
  | nil => exact List.not_mem_nil
  | newline _ _ => exact absurd List.mem_cons_self hline
  | pass hc _ _ ih =>
    rw [List.mem_cons, not_or]
    exact ⟨Ne.symm hc, ih fun hmem => hline (List.mem_cons_of_mem _ hmem)⟩
  | strike hmatch _ ih =>
    rw [List.mem_append, not_or]
    exact ⟨newline_notMem_newMember hkey hvalue,
      ih fun hmem => hline ((suffix_of_match hmatch).subset hmem)⟩

/-- What is read of a text that `sed` has struck. -/
theorem firstReading_sed (hkey : isKey key = true) (hvalue : isDigits value = true)
    (text : CString) :
    firstReading key (sedNumeral key value false 0 text) =
      (hits key false 0 text).head?.map fun place => (laterNumeral key place).getD value := by
  induction text using separated_induction newline with
  | single l hline =>
    have hstrikes := strikes_sedNumeral key value false l
    rw [firstReading, List.splitOn_eq_singleton (hstrikes.newline_notMem hkey hvalue hline),
      List.findSome?_singleton, hstrikes.lastNumeral hkey hvalue hline]
  | cons l r hline ih =>
    have hl := strikes_sedNumeral key value false l
    have hboth := hl.line hkey hline (strikes_sedNumeral key value false r)
    obtain ⟨htext, hplaces⟩ := (strikes_sedNumeral key value false _).unique hboth
    rw [htext, hplaces, firstReading, splitOn_separated (hl.newline_notMem hkey hvalue hline),
      List.findSome?_cons, hl.lastNumeral hkey hvalue hline]
    cases hits key false 0 l with
    | nil => exact ih
    | cons place hs =>
      rw [List.map_cons, List.cons_append, List.head?_cons, List.head?_cons, Option.map_some,
        Option.map_some, laterNumeral_line hkey]

end Struck

end PlumosBubble.Settings.Levels
