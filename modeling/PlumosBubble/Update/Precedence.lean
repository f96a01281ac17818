import Mathlib.Data.List.Lex
import Mathlib.Data.Prod.Lex
import Mathlib.Data.Sum.Order
import Mathlib.Data.Char
import Mathlib.Order.WithBot
import PlumosBubble.Update.SemVer

/-! Versions as the standard has them, and their precedence as a lexicographic order. The
keys that the updater compares are in this order, and a version is read from its text. -/

namespace PlumosBubble.Update

section Order

/-- `lt` compares as the order of the values of `f` does. -/
def Follows {α β : Type*} [LinearOrder β] (lt : α → α → Option Bool) (f : α → β) (x y : α) : Prop :=
  (x = y ↔ f x = f y) ∧ lt x y = some (decide (f x < f y))

variable {α β γ δ : Type*} [DecidableEq α] [LinearOrder γ] [LinearOrder δ]

theorem follows_pairLt {ltA : α → α → Option Bool} {ltB : β → β → Option Bool} [DecidableEq β]
    {f : α → γ} {g : β → δ} {x y : α × β} (hA : Follows ltA f x.1 y.1) (hB : Follows ltB g x.2 y.2) :
    Follows (pairLt ltA ltB) (fun z => toLex (f z.1, g z.2)) x y := by
  constructor
  · rw [Prod.ext_iff, hA.1, hB.1]
    simp
  · unfold pairLt
    simp only [Prod.Lex.toLex_lt_toLex]
    split_ifs with h
    · simp [hB.2, hA.1.mp h]
    · have hne : f x.1 ≠ f y.1 := fun he => h (hA.1.mpr he)
      simp [hA.2, hne]

theorem follows_tupleLt {lt : α → α → Option Bool} {f : α → γ} {xs ys : List α}
    (h : ∀ x ∈ xs, ∀ y ∈ ys, Follows lt f x y) :
    Follows (tupleLt lt) (fun zs => zs.map f) xs ys := by
  induction xs generalizing ys with
  | nil => cases ys <;> simp [Follows, tupleLt]
  | cons x xs ih =>
    cases ys with
    | nil => simp [Follows, tupleLt]
    | cons y ys =>
      have hhead := h x List.mem_cons_self y List.mem_cons_self
      obtain ⟨heq, hlt⟩ := ih fun x hx y hy =>
        h x (List.mem_cons_of_mem _ hx) y (List.mem_cons_of_mem _ hy)
      constructor
      · rw [List.cons.injEq, heq, hhead.1]
        simp
      · rw [tupleLt]
        split_ifs with hxy
        · simp [hlt, hxy]
        · have hne : f x ≠ f y := fun he => hxy (hhead.1.mpr he)
          simp [hhead.2, List.cons_lt_cons_iff, hne]

theorem follows_intLt (m n : ℕ) : Follows intLt id m n := by simp [Follows, intLt]

end Order

/-- The decimal digits of a number. -/
def digits (n : ℕ) : Text := Nat.toDigits 10 n

/-- `[0-9A-Za-z-]`. -/
def isLetter (c : Char) : Bool := isIdentifierChar c && c ≠ '.'

/-- A prerelease identifier: a number, or a word of which some letter is no digit. -/
inductive Identifier where
  | number (n : ℕ)
  | word (t : Text) (letters : t.all isLetter = true) (noNumber : t.all isDigit = false)

/-- A version of the standard, with the identifiers of its prerelease and of its build. -/
structure Version where
  major : ℕ
  minor : ℕ
  patch : ℕ
  prerelease : List Identifier
  build : List Text
  buildLetters : ∀ t ∈ build, t ≠ [] ∧ t.all isLetter = true

namespace Identifier

def text : Identifier → Text
  | number n => digits n
  | word t _ _ => t

/-- Numbers come before words. -/
def rank : Identifier → ℕ ⊕ₗ Text
  | number n => toLex (.inl n)
  | word t _ _ => toLex (.inr t)

def key : Identifier → ℕ × Atom
  | number n => (0, .int n)
  | word t _ _ => (1, .str t)

end Identifier

namespace Version

/-- `['.'].intercalate` of some identifiers behind a mark, if there are any. -/
def marked (mark : Char) (identifiers : List Text) : Text :=
  if identifiers = [] then [] else mark :: ['.'].intercalate identifiers

def text (v : Version) : Text :=
  digits v.major ++ '.' :: (digits v.minor ++ '.' :: (digits v.patch ++
    (marked '-' (v.prerelease.map Identifier.text) ++ marked '+' v.build)))

/-- The precedence of versions: the numbers from left to right, then a release above its
prereleases, and these by their identifiers. The build has no part in it. -/
def precedence (v : Version) : ℕ ×ₗ ℕ ×ₗ ℕ ×ₗ WithTop (List (ℕ ⊕ₗ Text)) :=
  toLex (v.major, toLex (v.minor, toLex (v.patch,
    if v.prerelease = [] then ⊤ else ↑(v.prerelease.map Identifier.rank))))

/-- The key of such a version. -/
def key (v : Version) : VersionKey :=
  (v.major, v.minor, v.patch,
    if v.prerelease = [] then (1, []) else (0, v.prerelease.map Identifier.key))

/-- `int` takes every number of the version. -/
def Fits (v : Version) : Prop :=
  ∀ n, (n = v.major ∨ n = v.minor ∨ n = v.patch ∨ .number n ∈ v.prerelease) →
    (digits n).length ≤ maxStrDigits

end Version

section Keys

/-- The rank of the identifier that has such a key. -/
def keyRank : ℕ × Atom → ℕ ⊕ₗ Text
  | (_, .int n) => toLex (.inl n)
  | (_, .str t) => toLex (.inr t)

@[simp] theorem keyRank_key (i : Identifier) : keyRank i.key = i.rank := by cases i <;> rfl

def prereleaseRank (key : PrereleaseKey) : WithTop (List (ℕ ⊕ₗ Text)) :=
  if key.1 = 0 then ↑(key.2.map keyRank) else ⊤

theorem follows_identifier (i j : Identifier) :
    Follows (pairLt intLt atomLt) keyRank i.key j.key := by
  cases i <;> cases j <;>
    simp [Follows, Identifier.key, keyRank, pairLt, intLt, atomLt, Sum.Lex.toLex_lt_toLex]

theorem follows_identifiers (is js : List Identifier) :
    Follows (tupleLt (pairLt intLt atomLt)) (fun keys => keys.map keyRank)
      (is.map Identifier.key) (js.map Identifier.key) := by
  refine follows_tupleLt fun x hx y hy => ?_
  obtain ⟨i, -, rfl⟩ := List.mem_map.mp hx
  obtain ⟨j, -, rfl⟩ := List.mem_map.mp hy
  exact follows_identifier i j

theorem follows_prerelease (is js : List Identifier) :
    Follows (pairLt intLt (tupleLt (pairLt intLt atomLt))) prereleaseRank
      (if is = [] then (1, []) else (0, is.map Identifier.key))
      (if js = [] then (1, []) else (0, js.map Identifier.key)) := by
  obtain ⟨heq, hlt⟩ := follows_identifiers is js
  split_ifs with hi hj hj
  · simp [Follows, prereleaseRank, pairLt, tupleLt]
  · simp [Follows, prereleaseRank, pairLt, intLt]
  · simp [Follows, prereleaseRank, pairLt, intLt]
  · exact ⟨by simpa [prereleaseRank] using heq, by simp [prereleaseRank, pairLt, hlt]⟩

/-- The keys of versions are compared as their precedence. -/
theorem keyLt_key (v w : Version) :
    keyLt v.key w.key = some (decide (v.precedence < w.precedence)) := by
  have h := follows_pairLt (follows_intLt v.key.1 w.key.1)
    (follows_pairLt (follows_intLt v.key.2.1 w.key.2.1)
      (follows_pairLt (follows_intLt v.key.2.2.1 w.key.2.2.1)
        (follows_prerelease v.prerelease w.prerelease)))
  have hrank : ∀ u : Version, toLex (u.key.1, toLex (u.key.2.1, toLex (u.key.2.2.1,
      prereleaseRank u.key.2.2.2))) = u.precedence := by
    intro u
    by_cases hp : u.prerelease = [] <;>
      simp [Version.key, Version.precedence, prereleaseRank, hp]
  rw [← hrank v, ← hrank w]
  exact h.2

end Keys

section Reading

theorem decimalValue_digits (n : ℕ) : decimalValue (digits n) = n := by
  have h := Nat.ofDigitChars_ten_toDigits (n := n)
  rwa [Nat.ofDigitChars_eq_foldl] at h

theorem isDigit_of_mem_digits {n : ℕ} {c : Char} (h : c ∈ digits n) : isDigit c = true :=
  Nat.isDigit_of_mem_toDigits (by decide) (by decide) h

/-- No number but `0` begins with a zero. -/
theorem digits_head {n : ℕ} (h : (digits n).head? = some '0') : digits n = ['0'] := by
  induction n using Nat.strongRecOn with
  | ind n ih =>
    unfold digits at h ⊢
    rw [Nat.toDigits_eq_if (by decide)] at h ⊢
    split_ifs at h ⊢ with hn
    · simpa using h
    · rw [List.head?_append_of_ne_nil _ Nat.toDigits_ne_nil] at h
      have hzero := decimalValue_digits (n / 10)
      rw [ih (n / 10) (by omega) h] at hzero
      have : n / 10 = 0 := hzero.symm
      omega

/-- The digits of a number, in front of something else. -/
theorem takeNumber_digits (n : ℕ) {rest : Text} (h : ∀ c ∈ rest.head?, isDigit c = false) :
    takeNumber (digits n ++ rest) = some (digits n, rest) := by
  have hall : ∀ c ∈ digits n, isDigit c = true := fun c => isDigit_of_mem_digits
  have htake : rest.takeWhile isDigit = [] := by
    cases rest with
    | nil => rfl
    | cons c rest => simp [h c rfl]
  have hdrop : rest.dropWhile isDigit = rest := by
    cases rest with
    | nil => rfl
    | cons c rest => simp [h c rfl]
  unfold takeNumber
  rw [List.takeWhile_append_of_pos hall, List.dropWhile_append_of_pos hall, htake, hdrop,
    List.append_nil]
  have hdigits : ¬(digits n = [] ∨ ((digits n).head? = some '0' ∧ digits n ≠ ['0'])) := by
    rintro (hnil | ⟨hzero, hne⟩)
    · exact Nat.toDigits_ne_nil hnil
    · exact hne (digits_head hzero)
  exact if_neg hdigits

theorem Identifier.text_letters (i : Identifier) : i.text ≠ [] ∧ i.text.all isLetter = true := by
  cases i with
  | number n =>
    refine ⟨Nat.toDigits_ne_nil, List.all_eq_true.mpr fun c hc => ?_⟩
    have hdigit := isDigit_of_mem_digits hc
    have hdot : c ≠ '.' := by
      rintro rfl
      exact absurd hdigit (by decide)
    simp [isLetter, isIdentifierChar, hdigit, hdot]
  | word t letters noNumber =>
    refine ⟨?_, letters⟩
    rintro rfl
    cases noNumber

theorem isIdentifierChar_of_isLetter {c : Char} (h : isLetter c = true) :
    isIdentifierChar c = true := (Bool.and_eq_true_iff.mp h).1

/-- Identifiers, joined by dots. -/
theorem joined_chars {identifiers : List Text} (h : ∀ t ∈ identifiers, t.all isLetter = true) :
    ∀ c ∈ ['.'].intercalate identifiers, isIdentifierChar c = true := by
  induction identifiers with
  | nil => simp
  | cons t identifiers ih =>
    have ht := List.all_eq_true.mp (h t List.mem_cons_self)
    by_cases hne : identifiers = []
    · subst hne
      rw [List.intercalate_singleton]
      exact fun c hc => isIdentifierChar_of_isLetter (ht c hc)
    · rw [List.intercalate_cons_of_ne_nil hne]
      intro c hc
      simp only [List.mem_append, List.mem_singleton] at hc
      obtain (hc | rfl) | hc := hc
      · exact isIdentifierChar_of_isLetter (ht c hc)
      · decide
      · exact ih (fun t ht => h t (List.mem_cons_of_mem _ ht)) c hc

theorem joined_splitOn {identifiers : List Text} (hne : identifiers ≠ [])
    (h : ∀ t ∈ identifiers, t.all isLetter = true) :
    (['.'].intercalate identifiers).splitOn '.' = identifiers := by
  refine List.splitOn_intercalate '.' (fun t ht hc => ?_) hne
  exact absurd (List.all_eq_true.mp (h t ht) _ hc) (by decide)

theorem joined_ne_nil {identifiers : List Text} (hne : identifiers ≠ [])
    (h : ∀ t ∈ identifiers, t ≠ [] ∧ t.all isLetter = true) :
    ['.'].intercalate identifiers ≠ [] := by
  intro hnil
  have hsplit := joined_splitOn hne fun t ht => (h t ht).2
  rw [hnil] at hsplit
  exact (h [] (by rw [← hsplit]; simp)).1 rfl

variable (v : Version)

theorem prerelease_letters : ∀ t ∈ v.prerelease.map Identifier.text, t ≠ [] ∧
    t.all isLetter = true := by
  intro t ht
  obtain ⟨i, -, rfl⟩ := List.mem_map.mp ht
  exact i.text_letters

theorem isBuild_marked : isBuild (Version.marked '+' v.build) = true := by
  unfold Version.marked
  split_ifs with hb
  · rfl
  · have hchars := List.all_eq_true.mpr (joined_chars fun t ht => (v.buildLetters t ht).2)
    have hne := joined_ne_nil hb v.buildLetters
    simp [isBuild, hne, hchars]

theorem matchTail_text : matchTail (Version.marked '-' (v.prerelease.map Identifier.text) ++
      Version.marked '+' v.build) =
    some (if v.prerelease = [] then none
      else some (['.'].intercalate (v.prerelease.map Identifier.text))) := by
  have hbuild := isBuild_marked v
  by_cases hp : v.prerelease = []
  · rw [hp, if_pos rfl, List.map_nil, Version.marked, if_pos rfl, List.nil_append]
    unfold Version.marked at hbuild ⊢
    split_ifs at hbuild ⊢
    · rfl
    · exact if_pos hbuild
  · have hne : v.prerelease.map Identifier.text ≠ [] := by simpa using hp
    have hchars := joined_chars fun t ht => (prerelease_letters v t ht).2
    have hpre := joined_ne_nil hne (prerelease_letters v)
    have htake : (Version.marked '+' v.build).takeWhile isIdentifierChar = [] := by
      unfold Version.marked
      split_ifs <;> rfl
    have hdrop : (Version.marked '+' v.build).dropWhile isIdentifierChar =
        Version.marked '+' v.build := by
      unfold Version.marked
      split_ifs <;> rfl
    rw [if_neg hp, Version.marked, if_neg hne, List.cons_append]
    unfold matchTail
    simp only [List.takeWhile_append_of_pos hchars, List.dropWhile_append_of_pos hchars, htake,
      hdrop, List.append_nil]
    exact if_pos ⟨hpre, hbuild⟩

theorem semVerMatch_text : semVerMatch v.text = some ⟨digits v.major, digits v.minor,
    digits v.patch, if v.prerelease = [] then none
      else some (['.'].intercalate (v.prerelease.map Identifier.text))⟩ := by
  have hv : takeChar 'v' v.text = none := by
    cases h : takeChar 'v' v.text with
    | none => rfl
    | some rest =>
      have hhead := congrArg List.head? (takeChar_eq_some.mp h)
      rw [Version.text, digits, List.head?_append_of_ne_nil _ Nat.toDigits_ne_nil] at hhead
      exact absurd (isDigit_of_mem_digits (List.mem_of_mem_head? hhead)) (by decide)
  have htail : ∀ c ∈ (Version.marked '-' (v.prerelease.map Identifier.text) ++
      Version.marked '+' v.build).head?, isDigit c = false := by
    unfold Version.marked
    split_ifs <;> simp <;> decide
  have hdot : ∀ c : Char, ∀ rest : Text, c ∈ ('.' :: rest).head? → isDigit c = false := by
    rintro c rest hc
    cases hc
    decide
  rw [semVerMatch, hv]
  simp only [Option.getD_none, Version.text, takeNumber_digits _ fun c => hdot c _,
    takeNumber_digits _ htail, takeChar, Option.bind_eq_bind, Option.bind_some, if_true,
    matchTail_text]
  rfl

theorem identifierKey_text (version : Text) (i : Identifier)
    (h : ∀ n, i = .number n → (digits n).length ≤ maxStrDigits) :
    identifierKey version i.text = .ok i.key := by
  rw [identifierKey, if_neg i.text_letters.1]
  cases i with
  | number n =>
    have hall : (digits n).all isDigit = true :=
      List.all_eq_true.mpr fun c => isDigit_of_mem_digits
    simp only [Identifier.text, hall, if_true, intOfDigits, if_pos (h n rfl), decimalValue_digits]
    rfl
  | word t letters noNumber => simp [Identifier.text, noNumber, Identifier.key]

theorem identifierKeys_text (version : Text) {is : List Identifier}
    (h : ∀ n, .number n ∈ is → (digits n).length ≤ maxStrDigits) :
    identifierKeys version (is.map Identifier.text) = .ok (is.map Identifier.key) := by
  induction is with
  | nil => rfl
  | cons i is ih =>
    rw [List.map_cons, identifierKeys, identifierKey_text version i
      (fun n hn => h n (hn ▸ List.mem_cons_self)), ih fun n hn => h n (List.mem_cons_of_mem _ hn)]
    rfl

/-- A version whose numbers `int` takes is read from its text. -/
theorem semanticVersionKey_text (h : v.Fits) : semanticVersionKey v.text = .ok v.key := by
  have hint : ∀ n, (digits n).length ≤ maxStrDigits → intOfDigits (digits n) = .ok n := by
    intro n hn
    rw [intOfDigits, if_pos hn, decimalValue_digits]
  have hpre : prereleaseKey v.text (if v.prerelease = [] then none
      else some (['.'].intercalate (v.prerelease.map Identifier.text))) =
      .ok (if v.prerelease = [] then (1, []) else (0, v.prerelease.map Identifier.key)) := by
    split_ifs with hp
    · rfl
    · rw [prereleaseKey, joined_splitOn (by simpa using hp) fun t ht => (prerelease_letters v t ht).2,
        identifierKeys_text _ fun n hn => h n (by simp [hn])]
      rfl
  rw [semanticVersionKey, semVerMatch_text]
  simp only [hpre, hint _ (h v.major (by simp)), hint _ (h v.minor (by simp)),
    hint _ (h v.patch (by simp))]
  rfl

end Reading

/-- Every two versions of the standard are compared by their precedence. -/
theorem versions_compared {v w : Version} (hv : v.Fits) (hw : w.Fits) :
    ∃ key key', semanticVersionKey v.text = .ok key ∧ semanticVersionKey w.text = .ok key' ∧
      keyLt key key' = some (decide (v.precedence < w.precedence)) :=
  ⟨v.key, w.key, semanticVersionKey_text v hv, semanticVersionKey_text w hw, keyLt_key v w⟩

/-- `1.2.0-rc.n+b7`. -/
def sampleCandidate (n : ℕ) : Version :=
  ⟨1, 2, 0, [.word "rc".toList (by decide) (by decide), .number n], ["b7".toList], by simp; decide⟩

theorem sampleCandidate_fits {n : ℕ} (hn : (digits n).length ≤ maxStrDigits) :
    (sampleCandidate n).Fits := by
  have hsmall : ∀ m < 3, (digits m).length ≤ maxStrDigits := by decide
  rintro m (rfl | rfl | rfl | hm)
  · exact hsmall 1 (by decide)
  · exact hsmall 2 (by decide)
  · exact hsmall 0 (by decide)
  · have heq : m = n := by simpa [sampleCandidate] using hm
    exact heq ▸ hn

/-- `1.2.0-rc.9+b7` comes before `1.2.0-rc.10+b7`. -/
theorem versions_compared_sample :
    ∃ key key', semanticVersionKey (sampleCandidate 9).text = .ok key ∧
      semanticVersionKey (sampleCandidate 10).text = .ok key' ∧ keyLt key key' = some true := by
  obtain ⟨key, key', hkey, hkey', hlt⟩ := versions_compared (v := sampleCandidate 9)
    (w := sampleCandidate 10) (sampleCandidate_fits (by decide)) (sampleCandidate_fits (by decide))
  have hprecedes : (sampleCandidate 9).precedence < (sampleCandidate 10).precedence := by
    simp [sampleCandidate, Version.precedence, Identifier.rank, Prod.Lex.toLex_lt_toLex,
      List.cons_lt_cons_iff]
  exact ⟨key, key', hkey, hkey', by rw [hlt, decide_eq_true hprecedes]⟩

end PlumosBubble.Update
