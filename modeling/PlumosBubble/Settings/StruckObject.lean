import PlumosBubble.Settings.StruckValues

/-! `sed` over an object, member by member. -/

namespace PlumosBubble.Settings.Levels

open Frontend Sequence

section Members

variable {key value x x' t : CString} {struck struck' : Bool} {places : List (CString × CString)}

theorem Piece.suffix (h : Piece key value EndsValue struck struck' x x' places)
    {p : CString × CString} (hp : p ∈ places) : p.1 <:+ x := by
  have hlast : Strikes key value struck' [closeBrace] [closeBrace] [] := by
    refine .pass (by decide) (Or.inr ?_) .nil
    cases hmatch : numeralMatch key [closeBrace] with
    | none => rfl
    | some r => exact absurd (head_of_numeralMatch hmatch) (by decide)
  have hall := h.strikes (endsValue_cons (by decide) []) hlast
  obtain ⟨u, hu⟩ := hall.suffix (p.1 ++ [closeBrace])
    (List.mem_append_left _ (List.mem_map_of_mem hp))
  rw [← List.append_assoc] at hu
  exact ⟨u, List.append_cancel_right hu⟩

theorem text_core (m : Member) : m.text = m.lead ++ (m.core ++ m.trail) := by
  simp [Member.text, Member.core, Member.afterKey]

theorem core_value (m : Member) :
    m.core = quoted m.key ++ m.gap ++ jsonColon :: (m.space ++ m.value) := by
  simp [Member.core]

/-- What `sed` makes of a member. -/
theorem exists_struck (hkey : isKey key = true) (hvalue : isWhole value = true) (m : Member)
    (struck : Bool) :
    ∃ (struck' : Bool) (m' : Member) (places : List (CString × CString)),
      m'.key = m.key ∧ (∀ p ∈ places, p.1 <:+ m.core) ∧
      Piece key value EndsValue struck struck' m.text m'.text
        (places.map fun p => (p.1 ++ m.trail, p.2)) ∧
      (∀ p ∈ places, p.1 ≠ []) ∧
      (solid false m'.value = solid false m.value ↔ ∀ p ∈ places, p.2 = value) := by
  obtain ⟨struck', gap, space, v, places, hpiece, hgap, hspace, hjson, hswaps⟩ :=
    struck_member hkey hvalue m.key_escaped m.gap_blank m.space_blank m.value_json
      (goesOver_json hkey hvalue m.value_json).1 (carried struck m.lead)
  have hback : Piece key value EndsValue struck' (carried struck' m.trail) m.trail m.trail [] :=
    .blank _ _ m.trail_blank
  have hbehind := hpiece.append hback fun _ hrest => hrest.blank m.trail_blank
  have hall := (Piece.blank (fun _ => True) struck m.lead_blank).append hbehind
    fun _ _ => trivial
  rw [List.map_nil, List.nil_append, List.append_nil] at hall
  rw [← core_value] at hpiece
  refine ⟨carried struck' m.trail, { m with
    gap := gap
    space := space
    value := v
    gap_blank := hgap
    space_blank := hspace
    value_json := hjson }, places, rfl, fun p hp => hpiece.suffix hp, ?_,
    fun p hp => (hpiece.inside p hp).1, ?_⟩
  · rw [text_core, text_core, core_value, core_value]
    exact hall
  · rw [isWhole, isDigits, Bool.and_eq_true, Bool.and_eq_true] at hvalue
    rw [hswaps.eq_iff hvalue.1.2, List.forall_mem_map]

/-- Each numeral that is struck in a member with another name is the one that is put there. -/
def LeavesOthers (key value ending : CString) (ms : List Member) (hs : List CString) : Prop :=
  ∀ before m after p, ms = before ++ m :: after → plainName m.key ≠ key → p ≠ [] →
    p <:+ m.core → p ++ (m.trail ++ (back after ++ closeBrace :: ending)) ∈ hs →
      numeralAt key (p ++ (m.trail ++ (back after ++ closeBrace :: ending))) = some value

theorem suffix_back {m : Member} {p : CString} (hp : p <:+ m.core) (before after : List Member)
    (rest : CString) :
    p ++ (m.trail ++ (back after ++ rest)) <:+ back (before ++ m :: after) ++ rest := by
  obtain ⟨u, hu⟩ := hp
  refine ⟨back before ++ comma :: (m.lead ++ u), ?_⟩
  have hsplit : back (before ++ m :: after) = back before ++ comma :: (m.text ++ back after) := by
    simp [back]
  rw [hsplit, text_core, ← hu]
  simp

theorem others_cons (key : CString) (m : Member) (ms : List Member) :
    others key (m :: ms) = if plainName m.key ≠ key
      then (plainName m.key, solid false m.value) :: others key ms else others key ms := by
  unfold others
  rw [List.map_cons, List.filter_cons]
  simp only [decide_eq_true_eq]

theorem struck_cons (hkey : isKey key = true) (hvalue : isWhole value = true) {ending : CString}
    {ms : List Member}
    (hms : ∀ struck, ∃ ms' hs,
      Strikes key value struck (back ms ++ closeBrace :: ending) (back ms' ++ closeBrace :: ending)
        hs ∧ (others key ms' = others key ms ↔ LeavesOthers key value ending ms hs))
    (m : Member) (struck : Bool) :
    ∃ (m' : Member) (ms' : List Member) (hs : List CString),
      Strikes key value struck (m.text ++ (back ms ++ closeBrace :: ending))
        (m'.text ++ (back ms' ++ closeBrace :: ending)) hs ∧
      (others key (m' :: ms') = others key (m :: ms) ↔
        LeavesOthers key value ending (m :: ms) hs) := by
  obtain ⟨struck', m', places, hname, hsuffix, hpiece, hne, hsame⟩ :=
    exists_struck hkey hvalue m struck
  obtain ⟨ms', hs, hstrikes, hothers⟩ := hms struck'
  have hends : EndsValue (back ms ++ closeBrace :: ending) := by
    obtain ⟨c, s, hback, hc⟩ := back_head ms ending
    rw [hback]
    exact endsValue_cons hc s
  have hall := hpiece.strikes hends hstrikes
  have hinside : ∀ p ∈ places,
      numeralAt key (p.1 ++ (m.trail ++ (back ms ++ closeBrace :: ending))) = some p.2 := by
    intro p hp
    have hnumeral := (hpiece.inside _ (List.mem_map_of_mem hp)).2 _ hends
    rwa [List.append_assoc] at hnumeral
  have hbehind := hstrikes.suffix
  rw [List.map_map, Function.comp_def] at hall
  simp only [List.append_assoc] at hall
  refine ⟨m', ms', _, hall, ?_⟩
  have hsplit : others key (m' :: ms') = others key (m :: ms) ↔
      (plainName m.key ≠ key → ∀ p ∈ places, p.2 = value) ∧ others key ms' = others key ms := by
    rw [others_cons, others_cons, hname, ← hsame]
    by_cases hother : plainName m.key ≠ key
    · rw [if_pos hother, if_pos hother, List.cons.injEq, Prod.mk.injEq]
      simp [hother]
    · rw [if_neg hother, if_neg hother]
      simp [hother]
  rw [hsplit, hothers]
  constructor
  · rintro ⟨hhere, hthere⟩ before n after p hmembers hother hp hcore hplace
    cases before with
    | nil =>
      obtain ⟨rfl, rfl⟩ := List.cons.inj hmembers
      rcases List.mem_append.mp hplace with hmem | hmem
      · obtain ⟨q, hq, heq⟩ := List.mem_map.mp hmem
        have hsame := List.append_cancel_right heq
        rw [← hsame, hinside q hq, hhere hother q hq]
      · have hle := (hbehind _ hmem).length_le
        have hlength := List.length_pos_of_ne_nil hp
        simp only [List.length_append] at hle
        omega
    | cons b before =>
      have htail : ms = before ++ n :: after := (List.cons.inj hmembers).2
      subst htail
      rcases List.mem_append.mp hplace with hmem | hmem
      · obtain ⟨q, hq, heq⟩ := List.mem_map.mp hmem
        have hle := (suffix_back hcore before after (closeBrace :: ending)).length_le
        have hlength := List.length_pos_of_ne_nil (hne q hq)
        rw [← heq] at hle
        simp only [List.length_append] at hle
        omega
      · exact hthere before n after p rfl hother hp hcore hmem
  · intro hleaves
    refine ⟨fun hother p hp => ?_, fun before n after p hmembers hother hp hcore hplace => ?_⟩
    · have hnumeral := hleaves [] m ms p.1 rfl hother (hne p hp) (hsuffix p hp)
        (List.mem_append_left _ (List.mem_map.mpr ⟨p, hp, rfl⟩))
      rw [hinside p hp, Option.some_inj] at hnumeral
      exact hnumeral
    · exact hleaves (m :: before) n after p (by rw [hmembers]; rfl) hother hp hcore
        (List.mem_append_right _ hplace)

theorem strikes_end {ending : CString} (hending : ending.all isSpace = true) (struck : Bool) :
    Strikes key value struck (closeBrace :: ending) (closeBrace :: ending) [] := by
  have hplain : ∀ c ∈ closeBrace :: ending, c ≠ jsonQuote := by
    intro c hc
    rcases List.mem_cons.mp hc with rfl | hc
    · decide
    · exact (blank_plain hending c hc).1
  have hpiece : Piece key value (fun _ => True) struck _ _ _ [] := .plain _ struck hplain
  have hall := hpiece.strikes trivial .nil
  rwa [List.append_nil, List.map_nil, List.nil_append] at hall

theorem exists_struck_back (hkey : isKey key = true) (hvalue : isWhole value = true)
    {ending : CString} (hending : ending.all isSpace = true) (ms : List Member) (struck : Bool) :
    ∃ ms' hs,
      Strikes key value struck (back ms ++ closeBrace :: ending) (back ms' ++ closeBrace :: ending)
        hs ∧ (others key ms' = others key ms ↔ LeavesOthers key value ending ms hs) := by
  induction ms generalizing struck with
  | nil =>
    refine ⟨[], [], strikes_end hending struck, iff_of_true rfl ?_⟩
    intro before m after p h
    simp at h
  | cons m ms ih =>
    obtain ⟨m', ms', hs, hstrikes, hothers⟩ :=
      struck_cons hkey hvalue ih m (carried struck [comma])
    have hcomma : Piece key value (fun _ => True) struck (carried struck [comma]) [comma] [comma]
        [] := .plain _ _ (by simp [comma, jsonQuote])
    have hall := hcomma.strikes trivial hstrikes
    refine ⟨m' :: ms', hs, ?_, hothers⟩
    simpa [back] using hall

end Members

section Objects

variable {key value : CString}

/-- Each numeral that `sed` strikes in a member with another name is the one that it puts
there. -/
def Object.LeavesOthers (d : Object) (key value : CString) : Prop :=
  Levels.LeavesOthers key value d.ending d.members (hits key false 0 d.text)

theorem exists_struck_object (hkey : isKey key = true) (hvalue : isWhole value = true)
    (d : Object) :
    ∃ d' : Object, d'.text = sedNumeral key value false 0 d.text ∧
      (others key d'.members = others key d.members ↔ d.LeavesOthers key value) := by
  suffices h : ∃ (d' : Object) (hs : List CString), Strikes key value false d.text d'.text hs ∧
      (others key d'.members = others key d.members ↔
        Levels.LeavesOthers key value d.ending d.members hs) by
    obtain ⟨d', hs, hstrikes, hothers⟩ := h
    obtain ⟨htext, rfl⟩ := hstrikes.unique (strikes_sedNumeral key value false d.text)
    exact ⟨d', htext, hothers⟩
  have hopen : ∀ c ∈ d.start ++ [openBrace], c ≠ jsonQuote := by
    intro c hc
    rcases List.mem_append.mp hc with hc | hc
    · exact (blank_plain d.start_blank c hc).1
    · rw [List.mem_singleton.mp hc]
      decide
  have hfront : ∀ struck, Piece key value (fun _ => True) struck
      (carried struck (d.start ++ [openBrace])) (d.start ++ [openBrace])
      (d.start ++ [openBrace]) [] :=
    fun struck => .plain _ struck hopen
  cases hmembers : d.members with
  | nil =>
    have hinside : Piece key value (fun _ => True) _ _ d.inside d.inside [] :=
      .blank _ (carried false (d.start ++ [openBrace])) d.inside_blank
    have hall := (hfront false).strikes trivial
      (hinside.strikes trivial (strikes_end d.ending_blank _))
    refine ⟨d, [], ?_, iff_of_true (by rw [hmembers]) ?_⟩
    · simpa [Object.text, hmembers, between] using hall
    · intro before m after p h
      simp at h
  | cons m ms =>
    obtain ⟨m', ms', hs, hstrikes, hothers⟩ := struck_cons hkey hvalue
      (exists_struck_back hkey hvalue d.ending_blank ms) m
      (carried false (d.start ++ [openBrace]))
    have hall := (hfront false).strikes trivial hstrikes
    refine ⟨{ d with members := m' :: ms' }, hs, ?_, hothers⟩
    simpa [Object.text, hmembers, between] using hall

end Objects

end PlumosBubble.Settings.Levels
