import Mathlib.Algebra.Ring.Int.Defs
import Mathlib.Algebra.Ring.Nat
import Mathlib.Data.Char
import Mathlib.Data.List.Lex
import Mathlib.Data.List.Sort
import Mathlib.Data.List.DropRight
import PlumosBubble.FileSystem.Resolve

/-! Strings as the updater uses them: `str` as the list of its characters, stripping,
decimal numbers, and the part of `pathlib` the updater relies on. -/

namespace PlumosBubble.Update

open FileSystem

/-- Python's `str`. -/
abbrev Text := List Char

instance lawfulBEq_text : LawfulBEq Text := inferInstance

/-- `c.isspace()`. -/
def isSpace (c : Char) : Bool :=
  let n := c.toNat
  (9 ≤ n && n ≤ 13) || (28 ≤ n && n ≤ 32) || n = 0x85 || n = 0xa0 || n = 0x1680 ||
    (0x2000 ≤ n && n ≤ 0x200a) || n = 0x2028 || n = 0x2029 || n = 0x202f || n = 0x205f ||
    n = 0x3000

def strip (t : Text) : Text := (t.dropWhile isSpace).rdropWhile isSpace

/-- `[0-9]`. -/
def isDigit (c : Char) : Bool := '0' ≤ c && c ≤ '9'

def decimalValue (t : Text) : ℕ := t.foldl (fun n c => 10 * n + (c.toNat - 48)) 0

/-- `int` of a `str`: a sign and decimal digits, single underscores between them. -/
def parseInt (t : Text) : Option ℤ :=
  let magnitude (u : Text) : Option ℤ :=
    if (u.splitOn '_').all (fun part => part ≠ [] && part.all isDigit) then
      some (decimalValue (u.filter (· ≠ '_')))
    else none
  match strip t with
  | '-' :: rest => (magnitude rest).map (- ·)
  | '+' :: rest => magnitude rest
  | rest => magnitude rest

/-- `len(t.encode())`. -/
def byteSize (t : Text) : ℕ := (t.map fun c => c.utf8Size).sum

/-- `PurePosixPath(t).is_absolute()`. -/
def isAbsolute (t : Text) : Bool := t.head? = some '/'

/-- `str(PurePosixPath(t))` of a relative path. -/
def pureStr (t : Text) : Text :=
  if components t = [] then ['.'] else ['/'].intercalate (components t)

/-- `base / t`. -/
def joinPath (base : Path) (t : Text) : Path :=
  if isAbsolute t then components t else base ++ components t

theorem joinPath_relative {base : Path} {t : Text} (h : isAbsolute t = false) :
    joinPath base t = base ++ components t := by
  simp [joinPath, h]

end PlumosBubble.Update
