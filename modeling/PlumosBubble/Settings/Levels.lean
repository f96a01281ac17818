import PlumosBubble.Settings.Writers

/-! `write_persisted` of `plumos-volume-control` and `write_saved` of `plumos-display-control`, with
the outcomes of the commands they run, and the functions that read a level back from the
settings. -/

namespace PlumosBubble.Settings.Levels

open Frontend Sequence

section Reading

/-- `\([0-9][0-9]*\)` of a match at this place. -/
def numeralAt (key s : CString) : Option CString :=
  (keyMatch key s).bind fun s =>
    let value := s.dropWhile isGap
    if value.head?.any isDigit then some (value.takeWhile isDigit) else none

/-- What `s/.*"key"…\([0-9][0-9]*\).*/\1/p` prints of a line: the `.*` in front takes all it can. -/
def lastNumeral (key : CString) : CString → Option CString
  | [] => none
  | c :: s => (lastNumeral key s).or (numeralAt key (c :: s))

/-- `sed -n … | head -n 1`. -/
def firstReading (key text : CString) : Option CString :=
  (text.splitOn newline).findSome? (lastNumeral key)

/-- `normalize` of `plumos-volume-control`. -/
def normalizeVolume (arg : CString) : Option CString := normalize (lit "0") arg

/-- `normalize` of `plumos-display-control`: a number that `[` cannot hold is not `-ge 1`. -/
def normalizeBrightness (arg : CString) : Option CString :=
  if isDigits arg && 2 ^ 63 ≤ decimal (arg.dropWhile (· = 0x30)) then some (lit "1")
  else normalize (lit "1") arg

/-- What the two tools differ in when they read. -/
structure Tool where
  key : CString
  normalize : CString → Option CString
  /-- The level where the settings name none. -/
  standard : CString

def Tool.read (tool : Tool) (text : CString) : CString :=
  (tool.normalize ((firstReading tool.key text).getD tool.standard)).getD tool.standard

def volume : Tool where
  key := lit "volume"
  normalize := normalizeVolume
  standard := lit "8"

def display : Tool where
  key := lit "brightness"
  normalize := normalizeBrightness
  standard := lit "10"

/-- `read_persisted`. -/
def readPersisted (text : CString) : CString := volume.read text

/-- `read_saved`. -/
def readSaved (text : CString) : CString := display.read text

end Reading

section Writing

/-- The settings, the copy that is made of them, and the backup. -/
structure Files where
  settings : CString
  temp : Option CString
  backup : Option CString

/-- How a command that writes a file ends: all is written, the file cannot be opened, or only the
first `n` bytes are written. -/
inductive Written where
  | whole
  | refused
  | cut (n : ℕ)
  deriving DecidableEq

/-- What is in the file behind the command. -/
def Written.left (written : Written) (text : CString) (old : Option CString) : Option CString :=
  match written with
  | whole => some text
  | refused => old
  | cut n => some (text.take n)

/-- How the commands end; `copy` is that of the backup. -/
structure Outcomes where
  mkdir : Bool
  copy : Written
  writing : Written
  rename : Bool
  sync : Bool

/-- A command up to the rename fails. The copy for the backup is followed by `|| true`. -/
def Outcomes.Fails (o : Outcomes) : Prop :=
  o.mkdir = false ∨ o.writing ≠ .whole ∨ o.rename = false

/-- What `sed` or `printf` writes. -/
def newText (key value text : CString) : CString :=
  if grepKey key text then sedNumeral key value false 0 text else freshText key value

/-- `[ -e "$backup" ] || cp -p "$SYSTEM_SETTINGS" "$backup"`. -/
def Files.save (files : Files) (copy : Written) : Files :=
  match files.backup with
  | some _ => files
  | none => { files with backup := copy.left files.settings none }

/-- `mv -f "$tmp" "$SYSTEM_SETTINGS"`. -/
def Files.move (files : Files) (works : Bool) : Bool × Files :=
  match files.temp with
  | some text => if works then (true, { files with settings := text, temp := none })
    else (false, files)
  | none => (false, files)

/-- `write_persisted`, for settings that can be read. It returns what `sync` returns. -/
def writePersisted (o : Outcomes) (arg : CString) (files : Files) : Bool × Files :=
  match normalizeVolume arg with
  | none => (false, files)
  | some value =>
    let files := files.save o.copy
    let text := newText (lit "volume") value files.settings
    let files := { files with temp := o.writing.left text files.temp }
    (o.sync, (files.move o.rename).2)

/-- `write_saved`, for settings that can be read. -/
def writeSaved (o : Outcomes) (arg : CString) (files : Files) : Bool × Files :=
  match normalizeBrightness arg with
  | none => (false, files)
  | some value =>
    if o.mkdir then
      let text := newText (lit "brightness") value files.settings
      let files := { files with temp := o.writing.left text files.temp }
      if o.writing = .whole then files.move o.rename else (false, files)
    else (false, files)

end Writing

section Objects

/-- The text of a JSON object. -/
structure Object where
  start : CString
  members : List Member
  inside : CString
  ending : CString
  start_blank : start.all isSpace = true
  inside_blank : inside.all isSpace = true
  ending_blank : ending.all isSpace = true

def Object.text (d : Object) : CString :=
  d.start ++ openBrace :: (between d.inside d.members ++ closeBrace :: d.ending)

/-- The byte of the four hexadecimal digits of an escape, where it is ASCII. -/
def asciiEscape (s : CString) : Option UInt8 :=
  ((List.range 128).map UInt8.ofNat).find? fun c => lowerString (s.take 4) = hexByte c

/-- What the text of a name stands for; the escape of a character that is not ASCII stays. `skip`
bytes belong to an escape that has been read. -/
def plainFrom : ℕ → CString → CString
  | _, [] => []
  | skip + 1, _ :: s => plainFrom skip s
  | 0, c :: s =>
    if c ≠ jsonEscape then c :: plainFrom 0 s
    else
      match s.head? with
      | none => [c]
      | some d =>
        if d ≠ 0x75 then unescaped d :: plainFrom 1 s
        else
          match asciiEscape s.tail with
          | some byte => byte :: plainFrom 5 s
          | none => c :: plainFrom 0 s

def plainName (k : CString) : CString := plainFrom 0 k

example : plainName (lit "vol\\u0075me") = lit "volume" := by decide +kernel

/-- A text without the blanks outside its strings; the flag says that a string is open. -/
def solid : Bool → CString → CString
  | _, [] => []
  | false, c :: s => if isSpace c then solid false s else c :: solid (c = jsonQuote) s
  | true, [c] => [c]
  | true, c :: d :: s =>
    if c = jsonEscape then c :: d :: solid true s else c :: solid (c ≠ jsonQuote) (d :: s)

/-- The members with other names: what each is called, and its value. -/
def others (key : CString) (ms : List Member) : List (CString × CString) :=
  (ms.map fun m => (plainName m.key, solid false m.value)).filter fun p => p.1 ≠ key

/-- The text is an object with these other members. -/
def KeepsOthers (key : CString) (d : Object) (text : CString) : Prop :=
  ∃ d' : Object, d'.text = text ∧ others key d'.members = others key d.members

end Objects

end PlumosBubble.Settings.Levels
