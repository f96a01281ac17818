import PlumosBubble.Update.Text

/-! `semantic_version_key` and the comparison of its keys. A key is a tuple of numbers
and of identifiers that are tagged numbers or strings; Python compares tuples item by
item and raises `TypeError` on a number against a string. -/

namespace PlumosBubble.Update

inductive VersionError where
  /-- `UpdateError("version is not comparable semantic version: …")`. -/
  | notComparable (version : Text)
  /-- `UpdateError("invalid semantic version prerelease: …")`. -/
  | invalidPrerelease (version : Text)
  /-- `ValueError`: `int` refuses texts of more than 4300 digits. -/
  | tooManyDigits
  deriving DecidableEq

/-- `sys.int_info.default_max_str_digits`. -/
def maxStrDigits : ℕ := 4300

/-- `int` of a text of digits. -/
def intOfDigits (t : Text) : Except VersionError ℕ :=
  if t.length ≤ maxStrDigits then .ok (decimalValue t) else .error .tooManyDigits

inductive Atom where
  | int (n : ℕ)
  | str (t : Text)
  deriving DecidableEq

abbrev PrereleaseKey := ℕ × List (ℕ × Atom)

abbrev VersionKey := ℕ × ℕ × ℕ × PrereleaseKey

/-- `(0|[1-9][0-9]*)` at the head of a text, and what follows. -/
def takeNumber (t : Text) : Option (Text × Text) :=
  let digits := t.takeWhile isDigit
  if digits = [] ∨ (digits.head? = some '0' ∧ digits ≠ ['0']) then none
  else some (digits, t.dropWhile isDigit)

/-- The literal `c`, and what follows. -/
def takeChar (c : Char) : Text → Option Text
  | d :: rest => if d = c then some rest else none
  | [] => none

/-- `[0-9A-Za-z.-]`. -/
def isIdentifierChar (c : Char) : Bool :=
  isDigit c || ('A' ≤ c && c ≤ 'Z') || ('a' ≤ c && c ≤ 'z') || c = '.' || c = '-'

/-- `(?:\+[0-9A-Za-z.-]+)?$`. -/
def isBuild : Text → Bool
  | [] => true
  | c :: rest => c = '+' && rest ≠ [] && rest.all isIdentifierChar

structure SemVerMatch where
  major : Text
  minor : Text
  patch : Text
  prerelease : Option Text
  deriving DecidableEq

/-- `(?:-([0-9A-Za-z.-]+))?(?:\+[0-9A-Za-z.-]+)?$`. -/
def matchTail : Text → Option (Option Text)
  | '-' :: rest =>
    let prerelease := rest.takeWhile isIdentifierChar
    if prerelease ≠ [] ∧ isBuild (rest.dropWhile isIdentifierChar) then some (some prerelease)
    else none
  | rest => if isBuild rest then some none else none

/-- `SEMVER_RE.fullmatch`. -/
def semVerMatch (version : Text) : Option SemVerMatch := do
  let text := (takeChar 'v' version).getD version
  let (major, text) ← takeNumber text
  let text ← takeChar '.' text
  let (minor, text) ← takeNumber text
  let text ← takeChar '.' text
  let (patch, text) ← takeNumber text
  let prerelease ← matchTail text
  pure ⟨major, minor, patch, prerelease⟩

/-- The key of one prerelease identifier. -/
def identifierKey (version identifier : Text) : Except VersionError (ℕ × Atom) :=
  if identifier = [] then .error (.invalidPrerelease version)
  else if identifier.all isDigit then (intOfDigits identifier).map fun n => (0, .int n)
  else .ok (1, .str identifier)

def identifierKeys (version : Text) : List Text → Except VersionError (List (ℕ × Atom))
  | [] => .ok []
  | identifier :: rest => do
    let key ← identifierKey version identifier
    let keys ← identifierKeys version rest
    pure (key :: keys)

def prereleaseKey (version : Text) : Option Text → Except VersionError PrereleaseKey
  | none => .ok (1, [])
  | some prerelease => (identifierKeys version (prerelease.splitOn '.')).map fun keys => (0, keys)

def semanticVersionKey (version : Text) : Except VersionError VersionKey :=
  match semVerMatch version with
  | none => .error (.notComparable version)
  | some m => do
    let prerelease ← prereleaseKey version m.prerelease
    let major ← intOfDigits m.major
    let minor ← intOfDigits m.minor
    let patch ← intOfDigits m.patch
    pure (major, minor, patch, prerelease)

/-! ### `<` on keys; `none` is a `TypeError` -/

def intLt (m n : ℕ) : Option Bool := some (m < n)

def atomLt : Atom → Atom → Option Bool
  | .int m, .int n => some (m < n)
  | .str s, .str t => some (s < t)
  | _, _ => none

/-- `<` of two pairs, or of two tuples as a head and the rest. -/
def pairLt {α β : Type*} [DecidableEq α] (ltA : α → α → Option Bool) (ltB : β → β → Option Bool)
    (x y : α × β) : Option Bool :=
  if x.1 = y.1 then ltB x.2 y.2 else ltA x.1 y.1

/-- `<` of two tuples of any length. -/
def tupleLt {α : Type*} [DecidableEq α] (lt : α → α → Option Bool) : List α → List α → Option Bool
  | [], [] => some false
  | [], _ :: _ => some true
  | _ :: _, [] => some false
  | x :: xs, y :: ys => if x = y then tupleLt lt xs ys else lt x y

/-- `a < b` of two keys. -/
def keyLt : VersionKey → VersionKey → Option Bool :=
  pairLt intLt (pairLt intLt (pairLt intLt (pairLt intLt (tupleLt (pairLt intLt atomLt)))))

/-! ### Matched texts -/

theorem takeNumber_eq_some {t digits rest : Text} (h : takeNumber t = some (digits, rest)) :
    t = digits ++ rest ∧ ∀ c ∈ digits, isDigit c = true := by
  simp only [takeNumber, Option.ite_none_left_eq_some, Option.some.injEq, Prod.mk.injEq] at h
  obtain ⟨-, rfl, rfl⟩ := h
  exact ⟨List.takeWhile_append_dropWhile.symm, fun c hc => List.all_eq_true.mp List.all_takeWhile c hc⟩

theorem takeChar_eq_some {c : Char} {t rest : Text} : takeChar c t = some rest ↔ t = c :: rest := by
  cases t with
  | nil => simp [takeChar]
  | cons d t =>
    simp only [takeChar, Option.ite_none_right_eq_some, Option.some.injEq, List.cons.injEq]

theorem isBuild_chars {t : Text} (h : isBuild t = true) :
    ∀ c ∈ t, isIdentifierChar c = true ∨ c = '+' := by
  cases t with
  | nil => simp
  | cons d t =>
    simp only [isBuild, Bool.and_eq_true, decide_eq_true_eq, List.all_eq_true] at h
    intro c hc
    cases List.mem_cons.mp hc with
    | inl hc => exact Or.inr (hc.trans h.1.1)
    | inr hc => exact Or.inl (h.2 c hc)

theorem matchTail_chars {t : Text} {prerelease : Option Text} (h : matchTail t = some prerelease) :
    ∀ c ∈ t, isIdentifierChar c = true ∨ c = '+' := by
  unfold matchTail at h
  split at h
  · rename_i rest
    simp only [Option.ite_none_right_eq_some] at h
    intro c hc
    cases List.mem_cons.mp hc with
    | inl hc => exact Or.inl (by rw [hc]; decide)
    | inr hc =>
      rw [← List.takeWhile_append_dropWhile (p := isIdentifierChar) (l := rest)] at hc
      cases List.mem_append.mp hc with
      | inl hc => exact Or.inl (List.all_eq_true.mp List.all_takeWhile c hc)
      | inr hc => exact isBuild_chars h.1.2 c hc
  · simp only [Option.ite_none_right_eq_some] at h
    exact isBuild_chars h.1

theorem semVerMatch_eq_some {version : Text} {m : SemVerMatch} (h : semVerMatch version = some m) :
    ∃ tail, (version = m.major ++ '.' :: (m.minor ++ '.' :: (m.patch ++ tail)) ∨
        version = 'v' :: (m.major ++ '.' :: (m.minor ++ '.' :: (m.patch ++ tail)))) ∧
      (∀ c ∈ m.major ++ m.minor ++ m.patch, isDigit c = true) ∧
      matchTail tail = some m.prerelease := by
  simp only [semVerMatch, bind, Option.bind_eq_some_iff, Prod.exists, pure, Option.some.injEq] at h
  obtain ⟨major, t1, h1, t2, h2, minor, t3, h3, t4, h4, patch, t5, h5, pre, h6, rfl⟩ := h
  obtain ⟨e1, d1⟩ := takeNumber_eq_some h1
  obtain ⟨e3, d3⟩ := takeNumber_eq_some h3
  obtain ⟨e5, d5⟩ := takeNumber_eq_some h5
  rw [takeChar_eq_some] at h2 h4
  subst h2 h4 e3 e5
  refine ⟨t5, ?_, ?_, h6⟩
  · cases hv : takeChar 'v' version with
    | none => exact Or.inl (by simpa [hv] using e1)
    | some rest =>
      rw [hv, Option.getD_some] at e1
      exact Or.inr (by rw [takeChar_eq_some.mp hv, e1])
  · simp only [List.mem_append]
    rintro c ((hc | hc) | hc)
    · exact d1 c hc
    · exact d3 c hc
    · exact d5 c hc

theorem semVerMatch_slash_free {version : Text} {m : SemVerMatch} (h : semVerMatch version = some m) :
    '/' ∉ version := by
  obtain ⟨tail, hv, hdigit, htail⟩ := semVerMatch_eq_some h
  have hd : ∀ t : Text, (∀ c ∈ t, isDigit c = true) → '/' ∉ t := fun t ht hc =>
    absurd (ht _ hc) (by decide)
  have h1 : '/' ∉ m.major := hd _ fun c hc => hdigit c (by simp [hc])
  have h2 : '/' ∉ m.minor := hd _ fun c hc => hdigit c (by simp [hc])
  have h3 : '/' ∉ m.patch := hd _ fun c hc => hdigit c (by simp [hc])
  have h4 : '/' ∉ tail := by
    intro hc
    cases matchTail_chars htail _ hc with
    | inl h => exact absurd h (by decide)
    | inr h => exact absurd h (by decide)
  cases hv with
  | inl hv => simp [hv, h1, h2, h3, h4]
  | inr hv => simp [hv, h1, h2, h3, h4]

/-- A version that `semantic_version_key` takes. -/
def Comparable (version : Text) : Prop := ∃ key, semanticVersionKey version = .ok key

theorem Comparable.slash_free {version : Text} (h : Comparable version) : '/' ∉ version := by
  obtain ⟨key, hkey⟩ := h
  unfold semanticVersionKey at hkey
  split at hkey
  · cases hkey
  · rename_i m hm
    exact semVerMatch_slash_free hm

end PlumosBubble.Update
