import Mathlib.Data.List.TakeWhile
import PlumosBubble.Frontend.CString

/-! `plumos_json.h` and its copies in `plumos_text_ui.c` and `plumos_controller_ui.c`: readers
that search the text for a key instead of parsing it. A range of the text is the list of its
bytes, and a result is the range from where the cursor then stands. -/

namespace PlumosBubble.Frontend

/-- A `char` array of `size` bytes, as the string that it holds. -/
structure Buffer (size : ℕ) where
  text : CString
  fits : text.length < size
  noNul : 0 ∉ text
  deriving DecidableEq

namespace Buffer

theorem eq_of_text {size : ℕ} {a b : Buffer size} (h : a.text = b.text) : a = b := by
  cases a
  cases b
  congr

variable {size : ℕ} [NeZero size]

/-- The array after `memset`. -/
def empty : Buffer size := ⟨[], Nat.pos_of_ne_zero (NeZero.ne size), by simp⟩

/-- The array after these bytes were put into it, with a NUL behind them. -/
def cut (s : CString) : Buffer size where
  text := (s.take (size - 1)).takeWhile (· ≠ 0)
  fits := by
    have hpos := Nat.pos_of_ne_zero (NeZero.ne size)
    have htake : (s.take (size - 1)).length ≤ size - 1 := List.length_take_le _ _
    have hwhile := (List.takeWhile_sublist (p := (· ≠ 0)) (l := s.take (size - 1))).length_le
    omega
  noNul := by
    intro hmem
    simpa using List.mem_takeWhile_imp hmem

/-- `copy_string` from another array. -/
def copy {m : ℕ} (b : Buffer m) : Buffer size :=
  if h : b.text.length < size then ⟨b.text, h, b.noNul⟩ else empty

/-- `buffer[0]`, as a condition. -/
def nonempty {m : ℕ} (b : Buffer m) : Bool := b.text ≠ []

end Buffer

/-- The `"` around a string. -/
def jsonQuote : UInt8 := 0x22

/-- The `\` before an escaped byte. -/
def jsonEscape : UInt8 := 0x5c

/-- The `:` behind a key. -/
def jsonColon : UInt8 := 0x3a

/-- `isspace`. -/
def isSpace (c : UInt8) : Bool := c = 0x20 || (0x09 ≤ c && c ≤ 0x0d)

theorem nil_blank : ([] : CString).all isSpace = true := rfl

/-- `skip_ws_range`. -/
def skipWsRange (s : CString) : CString := s.dropWhile isSpace

/-- The switch over an escaped byte. -/
def unescaped (c : UInt8) : UInt8 :=
  if c = 0x62 then 0x08
  else if c = 0x66 then 0x0c
  else if c = 0x6e then 0x0a
  else if c = 0x72 then 0x0d
  else if c = 0x74 then 0x09
  else c

/-- The bytes up to the closing quote, and what follows it; a backslash may stand before the
first of them. -/
def stringBody : Bool → CString → Option (CString × CString)
  | _, [] => none
  | true, c :: s => (stringBody false s).map fun r => (unescaped c :: r.1, r.2)
  | false, c :: s =>
    if c = jsonQuote then some ([], s)
    else if c = jsonEscape then stringBody true s
    else (stringBody false s).map fun r => (c :: r.1, r.2)

/-- What reading a string does to the array that it is read into. -/
inductive StringRead (size : ℕ) where
  | found (b : Buffer size) (rest : CString)
  | cleared
  | untouched

variable {size : ℕ} [NeZero size]

/-- The array afterwards. -/
def StringRead.into (old : Buffer size) : StringRead size → Buffer size
  | .found b _ => b
  | .cleared => .empty
  | .untouched => old

/-- The return value. -/
def StringRead.ok : StringRead size → Bool
  | .found _ _ => true
  | .cleared | .untouched => false

/-- `json_decode_string`. -/
def jsonDecodeString (size : ℕ) [NeZero size] : CString → StringRead size
  | [] => .untouched
  | c :: s =>
    if c = jsonQuote then
      match stringBody false s with
      | some (body, rest) => .found (.cut body) rest
      | none => .cleared
    else .untouched

/-- What follows a colon. -/
def afterColon (s : CString) : Option CString :=
  match skipWsRange s with
  | [] => none
  | c :: s => if c = jsonColon then some (skipWsRange s) else none

/-- The quoted key. -/
def keyPattern (key : CString) : CString := jsonQuote :: key ++ [jsonQuote]

/-- `json_find_key_value`; `strstr` goes no further than a NUL. -/
def jsonFindKeyValue (key : CString) : CString → Option CString
  | [] => none
  | c :: s =>
    if c = 0 then none
    else
      match (afterStart (keyPattern key) (c :: s)).bind afterColon with
      | some value => some value
      | none => jsonFindKeyValue key s

/-- Where `json_match_container` is. -/
inductive JsonPlace where
  | outside
  | string
  | escape

/-- The rest of a container, with the containers that were opened in it: its body, and what
follows it. -/
def containerBody (opening closing : UInt8) :
    JsonPlace → ℕ → CString → Option (CString × CString)
  | _, _, [] => none
  | .escape, depth, c :: s =>
    (containerBody opening closing .string depth s).map fun r => (c :: r.1, r.2)
  | .string, depth, c :: s =>
    let place := if c = jsonEscape then .escape else if c = jsonQuote then .outside else .string
    (containerBody opening closing place depth s).map fun r => (c :: r.1, r.2)
  | .outside, depth, c :: s =>
    if c = jsonQuote then
      (containerBody opening closing .string depth s).map fun r => (c :: r.1, r.2)
    else if c = opening then
      (containerBody opening closing .outside (depth + 1) s).map fun r => (c :: r.1, r.2)
    else if c = closing then
      match depth with
      | 0 => some ([], s)
      | depth + 1 =>
        (containerBody opening closing .outside depth s).map fun r => (c :: r.1, r.2)
    else (containerBody opening closing .outside depth s).map fun r => (c :: r.1, r.2)

/-- `json_match_container`: the body, and what follows the container. -/
def jsonMatchContainer (opening closing : UInt8) : CString → Option (CString × CString)
  | [] => none
  | c :: s => if c = opening then containerBody opening closing .outside 0 s else none

def openBracket : UInt8 := 0x5b
def closeBracket : UInt8 := 0x5d
def openBrace : UInt8 := 0x7b
def closeBrace : UInt8 := 0x7d

/-- `json_find_array`. -/
def jsonFindArray (key s : CString) : Option CString :=
  (jsonFindKeyValue key s).bind fun value =>
    (jsonMatchContainer openBracket closeBracket value).map Prod.fst

/-- `json_find_object`. -/
def jsonFindObject (key s : CString) : Option CString :=
  (jsonFindKeyValue key s).bind fun value =>
    (jsonMatchContainer openBrace closeBrace value).map Prod.fst

/-- `json_next_object`: the object, and what follows it. -/
def jsonNextObject (s : CString) : Option (CString × CString) :=
  (jsonMatchContainer openBrace closeBrace (s.dropWhile (· ≠ openBrace))).map fun r =>
    (openBrace :: r.1 ++ [closeBrace], r.2)

/-- `json_next_string`. -/
def jsonNextString (size : ℕ) [NeZero size] (s : CString) : StringRead size :=
  jsonDecodeString size (s.dropWhile (· ≠ jsonQuote))

/-- `json_get_string` of `plumos_json.h` and `plumos_controller_ui.c`. -/
def jsonGetString (size : ℕ) [NeZero size] (key s : CString) : StringRead size :=
  match jsonFindKeyValue key s with
  | none => .cleared
  | some value => jsonDecodeString size value

/-- `json_get_string` of `plumos_text_ui.c`, for a range that ends with a NUL. -/
def TextUi.jsonGetString (size : ℕ) [NeZero size] (key s : CString) : StringRead size :=
  match jsonFindKeyValue key s with
  | none => .cleared
  | some value => if lit "null" <+: value then .cleared else jsonDecodeString size value

/-- The string of a range, as `range_dup` copies it and `strlen` measures it. -/
def rangeDup (s : CString) : CString := s.takeWhile (· ≠ 0)

/-- The loop over `json_next_object`, for as many rounds as are given. -/
def jsonObjectsWithin : ℕ → CString → List CString
  | 0, _ => []
  | n + 1, s =>
    match jsonNextObject s with
    | none => []
    | some (object, rest) => object :: jsonObjectsWithin n rest

/-- The objects that the loop over `json_next_object` finds. -/
def jsonObjects (s : CString) : List CString := jsonObjectsWithin s.length s

end PlumosBubble.Frontend
