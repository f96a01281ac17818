import Mathlib.Algebra.Ring.Nat
import Mathlib.Data.List.Basic
import Mathlib.Data.List.Infix

/-! Byte strings as the C tools of the frontend use them, and the helpers of
`plumos_path.h` that need no file system. A buffer of `size` bytes holds a string of at
most `size - 1` bytes; what does not fit is refused. -/

namespace PlumosBubble.Frontend

/-- A C string: its bytes up to the terminating NUL. -/
abbrev CString := List UInt8

instance lawfulBEq_cstring : LawfulBEq CString := inferInstance
instance neZero_32 : NeZero 32 := ⟨by decide⟩
instance neZero_64 : NeZero 64 := ⟨by decide⟩
instance neZero_128 : NeZero 128 := ⟨by decide⟩
instance neZero_256 : NeZero 256 := ⟨by decide⟩
instance neZero_1024 : NeZero 1024 := ⟨by decide⟩

/-- A string literal of the source. -/
def lit (s : String) : CString := s.toByteArray.data.toList

def slash : UInt8 := 0x2f
def dot : UInt8 := 0x2e

/-- `PATH_MAX`. -/
def pathMax : ℕ := 4096

/-- `copy_string`: what a buffer of `size` bytes holds afterwards. -/
def copyString (size : ℕ) (s : CString) : Option CString :=
  if s.length + 1 ≤ size then some s else none

/-- The buffer `copy_string` leaves, whether it succeeds or not. -/
def copied (size : ℕ) (s : CString) : CString := (copyString size s).getD []

/-- `append_string` at the end of a buffer. -/
def appendString (size : ℕ) (buffer s : CString) : Option CString :=
  if buffer.length + s.length + 1 ≤ size then some (buffer ++ s) else none

/-- The buffer `append_string` leaves, whether it succeeds or not. -/
def appended (size : ℕ) (buffer s : CString) : CString :=
  (appendString size buffer s).getD buffer

/-- `tolower` of a byte. -/
def toLower (c : UInt8) : UInt8 := if 0x41 ≤ c ∧ c ≤ 0x5a then c + 0x20 else c

/-- `lower_string`. -/
def lowerString (s : CString) : CString := s.map toLower

/-- `ascii_equal_ci`, and `strcasecmp` when it returns 0. -/
def equalCi (a b : CString) : Bool := lowerString a = lowerString b

/-- `strncmp(s, start, strlen(start)) == 0`, with what follows. -/
def afterStart (start s : CString) : Option CString :=
  if start <+: s then some (s.drop start.length) else none

/-- What stands before and after the last `c`, as `strrchr` finds it. -/
def splitLast (c : UInt8) : CString → Option (CString × CString)
  | [] => none
  | x :: s =>
    match splitLast c s with
    | some (before, after) => some (x :: before, after)
    | none => if x = c then some ([], s) else none

theorem splitLast_eq_none {c : UInt8} {s : CString} : splitLast c s = none ↔ c ∉ s := by
  induction s with
  | nil => simp [splitLast]
  | cons x s ih =>
    cases h : splitLast c s with
    | some parts =>
      have hmem : c ∈ s := by
        by_contra hnot
        rw [ih.mpr hnot] at h
        cases h
      obtain ⟨before, after⟩ := parts
      simp [splitLast, h, hmem]
    | none =>
      have hnot : c ∉ s := ih.mp h
      simp [splitLast, h, hnot, eq_comm]

theorem splitLast_eq_some {c : UInt8} {s before after : CString} :
    splitLast c s = some (before, after) ↔ s = before ++ c :: after ∧ c ∉ after := by
  induction s generalizing before after with
  | nil => simp [splitLast]
  | cons x s ih =>
    cases h : splitLast c s with
    | some parts =>
      obtain ⟨before', after'⟩ := parts
      obtain ⟨rfl, hafter⟩ := ih.mp h
      simp only [splitLast, h, Option.some.injEq, Prod.mk.injEq]
      constructor
      · rintro ⟨rfl, rfl⟩
        exact ⟨rfl, hafter⟩
      · rintro ⟨heq, hnot⟩
        cases before with
        | nil =>
          obtain ⟨-, rfl⟩ := List.cons.inj heq
          simp at hnot
        | cons y before =>
          obtain ⟨rfl, hrest⟩ := List.cons.inj heq
          have hsame := ih.mpr ⟨hrest, hnot⟩
          rw [h] at hsame
          cases hsame
          exact ⟨rfl, rfl⟩
    | none =>
      have hnot := splitLast_eq_none.mp h
      simp only [splitLast, h]
      constructor
      · intro hsome
        split_ifs at hsome with hx
        cases hsome
        exact ⟨by rw [hx]; rfl, hnot⟩
      · rintro ⟨heq, -⟩
        cases before with
        | nil =>
          obtain ⟨rfl, rfl⟩ := List.cons.inj heq
          simp
        | cons y before =>
          obtain ⟨rfl, rfl⟩ := List.cons.inj heq
          simp at hnot

/-- `path_basename`. -/
def pathBasename (path : CString) : CString :=
  match splitLast slash path with
  | some (_, name) => name
  | none => path

/-- `path_parent`, in a buffer of `size` bytes. -/
def pathParent (size : ℕ) (path : CString) : Option CString :=
  match splitLast slash path with
  | none => copyString size [dot]
  | some ([], _) => copyString size [slash]
  | some (parent, _) => copyString size parent

/-- `ignored_sidecar_name`. -/
def ignoredSidecarName (name : CString) : Bool :=
  name = [] || lit "._" <+: name ||
    name ∈ [lit ".DS_Store",
      lit "Thumbs.db",
      lit "desktop.ini",
      lit "__MACOSX"]

/-- A name that the walks skip. -/
def isHidden (name : CString) : Bool := name.head? = some dot || ignoredSidecarName name

/-- The `/` that `join_path` puts after `a`. -/
def separator (a : CString) : CString :=
  if a ≠ [] ∧ a.getLast? ≠ some slash then [slash] else []

/-- `join_path`. -/
def joinPath (size : ℕ) (a b : CString) : Option CString :=
  if b.head? = some slash then copyString size b
  else copyString size (a ++ separator a ++ b)

/-- `build_stem_ext_name`. -/
def buildStemExtName (size : ℕ) (stem ext : CString) : Option CString :=
  copyString size (stem ++ dot :: ext)

/-- `file_extension`. -/
def fileExtension (name : CString) : CString :=
  match splitLast dot name with
  | some (_, ext) => if slash ∈ ext then [] else ext
  | none => []

/-- What precedes the last dot. -/
def beforeDot (s : CString) : CString :=
  match splitLast dot s with
  | some (stem, _) => stem
  | none => s

/-- `stem_from_name`, in a buffer of `size` bytes. -/
def stemFromName (size : ℕ) (name : CString) : CString :=
  (beforeDot (pathBasename name)).take (size - 1)

/-- `stem_from_relative_path`, in a buffer of `size` bytes. -/
def stemFromRelativePath (size : ℕ) (path : CString) : CString :=
  (beforeDot path).take (size - 1)

theorem copyString_eq_some {size : ℕ} {s out : CString} :
    copyString size s = some out ↔ out = s ∧ s.length + 1 ≤ size := by
  unfold copyString
  split_ifs with h <;> simp [h, eq_comm]

theorem joinPath_relative {size : ℕ} {a b out : CString} (hb : b.head? ≠ some slash) :
    joinPath size a b = some out ↔
      out = a ++ separator a ++ b ∧ (a ++ separator a ++ b).length + 1 ≤ size := by
  rw [joinPath, if_neg hb, copyString_eq_some]

end PlumosBubble.Frontend
