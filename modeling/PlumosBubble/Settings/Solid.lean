import PlumosBubble.Settings.Levels

/-! A JSON text without the blanks outside its strings, part by part. -/

namespace PlumosBubble.Settings.Levels

open Frontend

variable {s x : CString}

theorem solid_cons {c : UInt8} (hspace : isSpace c = false) (hquote : c ≠ jsonQuote)
    (s : CString) : solid false (c :: s) = c :: solid false s := by
  rw [solid, hspace]
  simp [hquote]

theorem solid_blank {g : CString} (hg : g.all isSpace = true) (s : CString) :
    solid false (g ++ s) = solid false s := by
  induction g with
  | nil => rfl
  | cons c g ih =>
    rw [List.all_cons, Bool.and_eq_true] at hg
    rw [List.cons_append, solid, if_pos hg.1, ih hg.2]

theorem solid_word {w : CString} (hw : ∀ c ∈ w, isWordByte c = true) (s : CString) :
    solid false (w ++ s) = w ++ solid false s := by
  induction w with
  | nil => rfl
  | cons c w ih =>
    obtain ⟨hspace, -, hquote, -⟩ := isWordByte_ne (hw c List.mem_cons_self)
    rw [List.cons_append, solid_cons hspace hquote, ih fun d hd => hw d (List.mem_cons_of_mem c hd),
      List.cons_append]

theorem solid_string (hs : Escaped s) (t : CString) :
    solid true (s ++ jsonQuote :: t) = s ++ jsonQuote :: solid false t := by
  induction hs with
  | nil => cases t <;> rfl
  | @plain c s hquote hescape _ hs ih =>
    obtain ⟨d, r, hd⟩ : ∃ d r, s ++ jsonQuote :: t = d :: r := by cases s <;> simp
    rw [List.cons_append, List.cons_append, ← ih, hd, solid, if_neg hescape]
    simp [hquote]
  | pair _ _ ih =>
    rw [List.cons_append, List.cons_append, List.cons_append, List.cons_append, ← ih, solid,
      if_pos rfl]

theorem solid_quoted (hs : Escaped s) (t : CString) :
    solid false (quoted s ++ t) = quoted s ++ solid false t := by
  have hquote : isSpace jsonQuote = false := by decide
  have htext : quoted s ++ t = jsonQuote :: (s ++ jsonQuote :: t) := by simp [quoted]
  rw [htext, solid, hquote]
  simp [solid_string hs, quoted]

theorem solid_json {kind : JsonKind} (h : Json kind x) (t : CString) :
    solid false (x ++ t) = solid false x ++ solid false t := by
  have hword : ∀ {w : CString}, (∀ c ∈ w, isWordByte c = true) → ∀ t,
      solid false (w ++ t) = solid false w ++ solid false t := by
    intro w hw t
    have hself := solid_word hw []
    rw [List.append_nil, solid, List.append_nil] at hself
    rw [solid_word hw, hself]
  have hcons : ∀ {c : UInt8}, c ∈ [comma, jsonColon, openBrace, closeBrace, openBracket,
      closeBracket] → ∀ t, solid false (c :: t) = c :: solid false t := by
    intro c hc t
    have hall : ∀ c ∈ [comma, jsonColon, openBrace, closeBrace, openBracket, closeBracket],
        isSpace c = false ∧ c ≠ jsonQuote := by
      simp only [List.forall_mem_cons, List.not_mem_nil, false_implies, implies_true]
      decide
    exact solid_cons (hall c hc).1 (hall c hc).2 t
  have hcontainer : ∀ {opening closing : UInt8} {t : CString},
      opening ∈ [openBrace, openBracket] → closing ∈ [closeBrace, closeBracket] →
      (∀ r, solid false (t ++ r) = solid false t ++ solid false r) → ∀ r,
      solid false (opening :: t ++ [closing] ++ r) =
        solid false (opening :: t ++ [closing]) ++ solid false r := by
    intro opening closing t hopening hclosing ht r
    have hopen : ∀ r, solid false (opening :: r) = opening :: solid false r := by
      apply hcons
      simp only [List.mem_cons, List.not_mem_nil, or_false] at hopening ⊢
      rcases hopening with rfl | rfl <;> simp
    have hclose : ∀ r, solid false (closing :: r) = closing :: solid false r := by
      apply hcons
      simp only [List.mem_cons, List.not_mem_nil, or_false] at hclosing ⊢
      rcases hclosing with rfl | rfl <;> simp
    simp only [List.cons_append, List.append_assoc, List.nil_append, hopen, hclose, ht]
    simp [solid]
  induction h generalizing t with
  | number hw => exact hword (isWord_of_isNumber hw).2 t
  | word hw => exact hword (isWord_of_literal hw).2 t
  | @string s hs =>
    have hself := solid_quoted hs []
    rw [List.append_nil, solid, List.append_nil] at hself
    rw [solid_quoted hs, hself]
  | noItems hg =>
    refine hcontainer (by simp) (by simp) (fun r => ?_) t
    have hself := solid_blank hg []
    rw [List.append_nil, solid] at hself
    rw [solid_blank hg, hself, List.nil_append]
  | array _ ih => exact hcontainer (by simp) (by simp) ih t
  | noMembers hg =>
    refine hcontainer (by simp) (by simp) (fun r => ?_) t
    have hself := solid_blank hg []
    rw [List.append_nil, solid] at hself
    rw [solid_blank hg, hself, List.nil_append]
  | object _ ih => exact hcontainer (by simp) (by simp) ih t
  | @item g v h hg hv hh ih =>
    have hself := solid_blank hh []
    rw [List.append_nil, solid] at hself
    rw [List.append_assoc, List.append_assoc, List.append_assoc, solid_blank hg, solid_blank hg,
      ih, ih, solid_blank hh, hself, List.append_nil]
  | lastItem _ ih => exact ih t
  | items _ _ iht ihu =>
    rw [List.append_assoc, iht, iht, List.cons_append, hcons (by simp), hcons (by simp), ihu,
      List.append_assoc, List.cons_append]
  | @member g k h t' hg hk hh _ ih =>
    simp only [List.append_assoc, List.cons_append, solid_blank hg, solid_quoted hk,
      solid_blank hh, hcons (c := jsonColon) (by simp), ih]
  | lastMember _ ih => exact ih t
  | members _ _ iht ihu =>
    rw [List.append_assoc, iht, iht, List.cons_append, hcons (by simp), hcons (by simp), ihu,
      List.append_assoc, List.cons_append]

end PlumosBubble.Settings.Levels
