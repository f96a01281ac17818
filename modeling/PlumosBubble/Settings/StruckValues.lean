import PlumosBubble.Settings.StruckMembers

/-! `sed` over a whole JSON text. Of an object the names stay, and a value stays, blanks apart,
exactly if each numeral that is struck in it is the one that is put there. -/

namespace PlumosBubble.Settings.Levels

open Frontend Sequence

section Values

variable {key value t u v x : CString}

theorem GoesOver.mono {kind kind' : JsonKind} (h : GoesOver key value kind x)
    (hkind : ∀ x, Json kind x → Json kind' x) : GoesOver key value kind' x := by
  intro struck
  obtain ⟨struck', x', places, hpiece, hjson, hswaps⟩ := h struck
  exact ⟨struck', x', places, hpiece, hkind x' hjson, hswaps⟩

theorem GoesOver.stays {kind : JsonKind} (hjson : Json kind x)
    (h : ∀ struck, Piece key value EndsValue struck (carried struck x) x x []) :
    GoesOver key value kind x :=
  fun struck => ⟨_, x, [], h struck, hjson, .refl _ _ _⟩

theorem GoesOver.plain {kind : JsonKind} (hjson : Json kind x) (h : ∀ c ∈ x, c ≠ jsonQuote) :
    GoesOver key value kind x :=
  .stays hjson fun struck => .plain EndsValue struck h

theorem map_snd_append (places more : List (CString × CString)) (y : CString) :
    (places.map (fun p => (p.1 ++ y, p.2)) ++ more).map Prod.snd =
      places.map Prod.snd ++ more.map Prod.snd := by
  simp [Function.comp_def]

theorem GoesOver.item {g h : CString} (hg : g.all isSpace = true) (hv : Json .value v)
    (hover : GoesOver key value .value v) (hh : h.all isSpace = true) :
    GoesOver key value .item (g ++ v ++ h) := by
  intro struck
  obtain ⟨struck', v', places, hpiece, hjson, hswaps⟩ := hover (carried struck g)
  have hback : Piece key value EndsValue struck' (carried struck' h) h h [] := .blank _ _ hh
  have hbehind := hpiece.append hback fun _ hrest => hrest.blank hh
  have hall := (Piece.blank (fun _ => True) struck hg).append hbehind fun _ _ => trivial
  have hsolid : ∀ {v : CString}, Json .value v → solid false (g ++ v ++ h) = solid false v := by
    intro v hv
    have hself := solid_blank hh []
    rw [List.append_nil, solid] at hself
    rw [List.append_assoc, solid_blank hg, solid_json hv, hself, List.append_nil]
  rw [← List.append_assoc, ← List.append_assoc] at hall
  refine ⟨_, g ++ v' ++ h, _, hall, .item hg hjson hh, ?_⟩
  rw [hsolid hv, hsolid hjson, map_snd_append, map_snd_append]
  simpa using hswaps

theorem GoesOver.container {kind : JsonKind} {opening closing : UInt8}
    (hpair : IsPair opening closing) (ht : Json kind t) (hover : GoesOver key value kind t)
    (hkind : ∀ t, Json kind t → Json .value (opening :: t ++ [closing])) :
    GoesOver key value .value (opening :: t ++ [closing]) := by
  have hbytes : ∀ pair ∈ [(openBrace, closeBrace), (openBracket, closeBracket)],
      (pair.1 ≠ jsonQuote ∧ isSpace pair.1 = false) ∧
        (pair.2 ≠ jsonQuote ∧ isSpace pair.2 = false) ∧ endsWord pair.2 = true ∧
          isDigit pair.2 = false :=
    forall_pairs (by decide) (by decide)
  obtain ⟨hopening, hclosing, hends, hdigit⟩ := hbytes _ hpair.mem
  intro struck
  obtain ⟨struck', t', places, hpiece, hjson, hswaps⟩ := hover (carried struck [opening])
  have hfront : Piece key value (fun _ => True) struck (carried struck [opening]) [opening]
      [opening] [] :=
    .plain _ _ fun c hc => by rw [List.mem_singleton.mp hc]; exact hopening.1
  have hback : Piece key value EndsValue struck' (carried struck' [closing]) [closing]
      [closing] [] :=
    .plain _ _ fun c hc => by rw [List.mem_singleton.mp hc]; exact hclosing.1
  have hbehind := hpiece.append hback fun rest _ => endsValue_cons hends rest
  have hall := hfront.append hbehind fun _ _ => trivial
  have hsolid : ∀ {t : CString}, Json kind t → solid false (opening :: t ++ [closing]) =
      [opening] ++ (solid false t ++ [closing]) := by
    intro t ht
    rw [List.cons_append, solid_cons hopening.2 hopening.1, solid_json ht,
      solid_cons hclosing.2 hclosing.1]
    rfl
  refine ⟨_, opening :: t' ++ [closing], _, hall, hkind t' hjson, ?_⟩
  rw [hsolid ht, hsolid hjson, map_snd_append, map_snd_append]
  exact .keep_all _ (hswaps.append (.refl _ _ _) hdigit)

theorem GoesOver.comma {kind kind' : JsonKind} (ht : Json kind t)
    (hovert : GoesOver key value kind t) (hoveru : GoesOver key value kind' u)
    (hkind : ∀ t u, Json kind t → Json kind' u → Json kind' (t ++ comma :: u)) :
    GoesOver key value kind' (t ++ Frontend.comma :: u) := by
  intro struck
  obtain ⟨struck', t', places, hpiece, hjson, hswaps⟩ := hovert struck
  obtain ⟨struck'', u', more, hpiece', hjson', hswaps'⟩ :=
    hoveru (carried struck' [Frontend.comma])
  have hcomma : Piece key value (fun _ => True) struck' (carried struck' [Frontend.comma])
      [Frontend.comma] [Frontend.comma] [] :=
    .plain _ _ (by simp [Frontend.comma, jsonQuote])
  have hbehind := hcomma.append hpiece' fun _ _ => trivial
  have hall := hpiece.append hbehind fun rest _ => endsValue_cons (by decide) _
  have hsolid : ∀ {t u : CString}, Json kind t → solid false (t ++ Frontend.comma :: u) =
      solid false t ++ Frontend.comma :: solid false u := by
    intro t u ht
    rw [solid_json ht, solid_cons (by decide) (by decide)]
  refine ⟨_, t' ++ Frontend.comma :: u', _, hall, hkind t' u' hjson hjson', ?_⟩
  rw [hsolid ht, hsolid hjson, map_snd_append, map_snd_append]
  exact hswaps.append (.keep hswaps') rfl

/-- What is known of each part of a JSON text: of an item, that it is a value with blanks around
it. -/
def Taken (key value : CString) (kind : JsonKind) (x : CString) : Prop :=
  GoesOver key value kind x ∧ (kind = .item → ∃ g v h, x = g ++ v ++ h ∧ g.all isSpace = true ∧
    h.all isSpace = true ∧ Json .value v ∧ GoesOver key value .value v)

theorem taken_of_ne {kind : JsonKind} (h : GoesOver key value kind x) (hkind : kind ≠ .item) :
    Taken key value kind x :=
  ⟨h, fun heq => absurd heq hkind⟩

theorem GoesOver.member {g k gap : CString} (hkey : isKey key = true)
    (hvalue : isWhole value = true) (hg : g.all isSpace = true) (hk : Escaped k)
    (hgap : gap.all isSpace = true) (ht : Json .item t) (htaken : Taken key value .item t) :
    GoesOver key value .member (g ++ quoted k ++ gap ++ jsonColon :: t) := by
  obtain ⟨space, v, h, rfl, hspace, hh, hv, hover⟩ := htaken.2 rfl
  intro struck
  obtain ⟨struck', gap', space', v', places, hpiece, hgap', hspace', hjson, hswaps⟩ :=
    struck_member hkey hvalue hk hgap hspace hv hover (carried struck g)
  have hback : Piece key value EndsValue struck' (carried struck' h) h h [] := .blank _ _ hh
  have hbehind := hpiece.append hback fun _ hrest => hrest.blank hh
  have hall := (Piece.blank (fun _ => True) struck hg).append hbehind fun _ _ => trivial
  have hitem : Json .item (space' ++ v' ++ h) := .item hspace' hjson hh
  have hsolid : ∀ {gap space v : CString}, gap.all isSpace = true → space.all isSpace = true →
      Json .value v → solid false (g ++ quoted k ++ gap ++ jsonColon :: (space ++ v ++ h)) =
        quoted k ++ (jsonColon :: solid false v) := by
    intro gap space v hgap hspace hv
    have hself := solid_blank hh []
    rw [List.append_nil, solid] at hself
    rw [List.append_assoc, List.append_assoc, solid_blank hg, solid_quoted hk, solid_blank hgap,
      solid_cons (by decide) (by decide), List.append_assoc, solid_blank hspace, solid_json hv,
      hself, List.append_nil]
  have htext : ∀ gap space v : CString, g ++ (quoted k ++ gap ++ jsonColon :: (space ++ v) ++ h) =
      g ++ quoted k ++ gap ++ jsonColon :: (space ++ v ++ h) := by
    simp
  rw [htext, htext] at hall
  refine ⟨_, _, _, hall, .member hg hk hgap' hitem, ?_⟩
  rw [hsolid hgap hspace hv, hsolid hgap' hspace' hjson]
  refine .keep_all _ (.keep ?_)
  simpa [Function.comp_def] using hswaps

theorem goesOver_json (hkey : isKey key = true) (hvalue : isWhole value = true)
    {kind : JsonKind} (h : Json kind x) : Taken key value kind x := by
  have hblank : ∀ {g : CString} {opening closing : UInt8}, g.all isSpace = true →
      opening ≠ jsonQuote → closing ≠ jsonQuote → ∀ c ∈ opening :: g ++ [closing],
        c ≠ jsonQuote := by
    intro g opening closing hg hopening hclosing c hc
    rcases List.mem_append.mp hc with hc | hc
    · rcases List.mem_cons.mp hc with rfl | hc
      · exact hopening
      · exact (blank_plain hg c hc).1
    · rw [List.mem_singleton.mp hc]
      exact hclosing
  have hwordly : ∀ {w : CString}, IsWord w → ∀ c ∈ w, c ≠ jsonQuote :=
    fun hw c hc => (isWordByte_ne (hw.2 c hc)).2.2.1
  induction h with
  | number hw => exact taken_of_ne (.plain (.number hw) (hwordly (isWord_of_isNumber hw))) nofun
  | word hw => exact taken_of_ne (.plain (.word hw) (hwordly (isWord_of_literal hw))) nofun
  | string hs => exact taken_of_ne (.stays (.string hs) fun struck => .string hkey hs struck) nofun
  | noItems hg =>
    exact taken_of_ne (.plain (.noItems hg) (hblank hg (by decide) (by decide))) nofun
  | array ht ih =>
    exact taken_of_ne (.container ⟨by simp⟩ ht ih.1 fun _ ht => .array ht) nofun
  | noMembers hg =>
    exact taken_of_ne (.plain (.noMembers hg) (hblank hg (by decide) (by decide))) nofun
  | object ht ih =>
    exact taken_of_ne (.container ⟨by simp⟩ ht ih.1 fun _ ht => .object ht) nofun
  | item hg hv hh ih =>
    exact ⟨.item hg hv ih.1 hh, fun _ => ⟨_, _, _, rfl, hg, hh, hv, ih.1⟩⟩
  | lastItem _ ih => exact taken_of_ne (ih.1.mono fun _ => .lastItem) nofun
  | items ht _ iht ihu =>
    exact taken_of_ne (.comma ht iht.1 ihu.1 fun _ _ => .items) nofun
  | member hg hk hh ht ih => exact taken_of_ne (.member hkey hvalue hg hk hh ht ih) nofun
  | lastMember _ ih => exact taken_of_ne (ih.1.mono fun _ => .lastMember) nofun
  | members ht _ iht ihu =>
    exact taken_of_ne (.comma ht iht.1 ihu.1 fun _ _ => .members) nofun

end Values

end PlumosBubble.Settings.Levels
