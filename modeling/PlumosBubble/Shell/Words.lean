import Mathlib.Data.List.TakeWhile
import PlumosBubble.Frontend.CString

/-! How a POSIX shell splits a command line into words, for lines that call for nothing
else: a line with an operator, a comment or an expansion is not split. Text between single
quotes is taken as it stands, so a quoted string always is one word of its own. -/

namespace PlumosBubble.Shell

/-- A byte of a word, and whether it was quoted. -/
structure WordByte where
  byte : UInt8
  quoted : Bool
  deriving DecidableEq

/-- A word as it is split off. -/
abbrev Word := List WordByte

/-- What the splitter is inside of. -/
inductive Mode where
  | plain
  | single
  | double
  | escape
  | doubleEscape
  deriving DecidableEq

def apostrophe : UInt8 := 0x27
def quotationMark : UInt8 := 0x22
def backslash : UInt8 := 0x5c
def newline : UInt8 := 0x0a
def numberSign : UInt8 := 0x23

def isBlank (c : UInt8) : Bool := c = 0x20 || c = 0x09

/-- What outside quotes is an operator or may begin an expansion. -/
def isSpecial (c : UInt8) : Bool :=
  c ∈ ([newline, 0x7c, 0x26, 0x3b, 0x3c, 0x3e, 0x28, 0x29, 0x24, 0x60, 0x2a, 0x3f, 0x5b, 0x7e] :
    List UInt8)

/-- What begins an expansion inside double quotes. -/
def isExpansion (c : UInt8) : Bool := c = 0x24 || c = 0x60

/-- A word with one more byte. -/
def extend (current : Option Word) (c : UInt8) (quoted : Bool) : Option Word :=
  some (current.getD [] ++ [⟨c, quoted⟩])

/-- Split the rest of a line, with the word that was begun. -/
def lex : Mode → Option Word → List UInt8 → Option (List Word)
  | .plain, current, [] => some current.toList
  | .plain, current, c :: s =>
    if isBlank c then (lex .plain none s).map (current.toList ++ ·)
    else if c = apostrophe then lex .single (some (current.getD [])) s
    else if c = quotationMark then lex .double (some (current.getD [])) s
    else if c = backslash then lex .escape current s
    else if isSpecial c || (c = numberSign && current = none) then none
    else lex .plain (extend current c false) s
  | .single, current, c :: s =>
    if c = apostrophe then lex .plain current s else lex .single (extend current c true) s
  | .double, current, c :: s =>
    if c = quotationMark then lex .plain current s
    else if c = backslash then lex .doubleEscape current s
    else if isExpansion c then none
    else lex .double (extend current c true) s
  | .escape, current, c :: s =>
    if c = newline then lex .plain current s else lex .plain (extend current c true) s
  | .doubleEscape, current, c :: s =>
    if c = newline then lex .double current s
    else if isExpansion c || c = quotationMark || c = backslash then
      lex .double (extend current c true) s
    else lex .double (extend (extend current backslash true) c true) s
  | _, _, [] => none

/-- The words of a line. -/
def splitWords (s : List UInt8) : Option (List Word) := lex .plain none s

/-- A command: the assignments for its environment, the program and the arguments. -/
structure SimpleCommand where
  assignments : List (List UInt8 × List UInt8)
  words : List (List UInt8)
  deriving DecidableEq

def isNameByte (c : UInt8) : Bool :=
  (0x41 ≤ c && c ≤ 0x5a) || (0x61 ≤ c && c ≤ 0x7a) || (0x30 ≤ c && c ≤ 0x39) || c = 0x5f

/-- A name of a variable. -/
def isName (s : List UInt8) : Bool :=
  s.all isNameByte && s.head?.any fun c => !(0x30 ≤ c && c ≤ 0x39)

/-- The `=` of an assignment. -/
def equalsSign : WordByte := ⟨0x3d, false⟩

/-- The name and the value, where the word is an assignment. -/
def assignment (w : Word) : Option (List UInt8 × List UInt8) :=
  let name := w.takeWhile (· ≠ equalsSign)
  match w.drop name.length with
  | [] => none
  | _ :: value =>
    if (name.all fun b => !b.quoted) && isName (name.map WordByte.byte) then
      some (name.map WordByte.byte, value.map WordByte.byte)
    else none

/-- The words that begin something other than a simple command. -/
def reservedWords : List (List UInt8) :=
  [[0x21], [0x7b], [0x7d], [0x63, 0x61, 0x73, 0x65], [0x64, 0x6f], [0x64, 0x6f, 0x6e, 0x65],
    [0x65, 0x6c, 0x69, 0x66], [0x65, 0x6c, 0x73, 0x65], [0x65, 0x73, 0x61, 0x63], [0x66, 0x69],
    [0x66, 0x6f, 0x72], [0x69, 0x66], [0x69, 0x6e], [0x74, 0x68, 0x65, 0x6e],
    [0x75, 0x6e, 0x74, 0x69, 0x6c], [0x77, 0x68, 0x69, 0x6c, 0x65]]

def isReserved (w : Word) : Bool :=
  (w.all fun b => !b.quoted) && w.map WordByte.byte ∈ reservedWords

/-- Assignments come first. -/
def simpleCommand : List Word → SimpleCommand
  | [] => ⟨[], []⟩
  | w :: ws =>
    match assignment w with
    | some a => { simpleCommand ws with assignments := a :: (simpleCommand ws).assignments }
    | none => ⟨[], (w :: ws).map fun w => w.map WordByte.byte⟩

/-- The simple command that a line is. -/
def parseCommand (s : List UInt8) : Option SimpleCommand :=
  (splitWords s).bind fun ws => if ws.head?.any isReserved then none else some (simpleCommand ws)

/-- A byte between single quotes; an apostrophe stands between two quoted texts. -/
def quoteByte (c : UInt8) : List UInt8 :=
  if c = apostrophe then [apostrophe, backslash, apostrophe, apostrophe] else [c]

/-- A text between single quotes. -/
def quote (s : List UInt8) : List UInt8 := apostrophe :: s.flatMap quoteByte ++ [apostrophe]

/-- A piece of a word: text that stands for itself, or text to be quoted. -/
inductive Piece where
  | raw (s : List UInt8)
  | quoted (s : List UInt8)

def Piece.text : Piece → List UInt8
  | .raw s => s
  | .quoted s => quote s

def Piece.word : Piece → Word
  | .raw s => s.map (⟨·, false⟩)
  | .quoted s => s.map (⟨·, true⟩)

/-- A byte that stands for itself outside quotes. -/
def isPlain (c : UInt8) : Bool :=
  !isBlank c && c ≠ apostrophe && c ≠ quotationMark && c ≠ backslash && !isSpecial c &&
    c ≠ numberSign

/-- Raw text of a word is not empty and stands for itself. -/
def Piece.plain : Piece → Bool
  | .raw s => s ≠ [] && s.all isPlain
  | .quoted _ => true

def wordText (pieces : List Piece) : List UInt8 := pieces.flatMap Piece.text
def wordOf (pieces : List Piece) : Word := pieces.flatMap Piece.word

/-- The words of a line, with a blank between them. -/
def commandText (ws : List (List Piece)) : List UInt8 := [0x20].intercalate (ws.map wordText)

theorem lex_quoteByte (w : Word) (c : UInt8) (rest : List UInt8) :
    lex .single (some w) (quoteByte c ++ rest) = lex .single (some (w ++ [⟨c, true⟩])) rest := by
  unfold quoteByte
  split_ifs with hc
  · rw [hc]
    rfl
  · show lex .single (some w) (c :: rest) = _
    rw [lex, if_neg hc]
    rfl

theorem lex_quoteBytes (s : List UInt8) (w : Word) (rest : List UInt8) :
    lex .single (some w) (s.flatMap quoteByte ++ rest) =
      lex .single (some (w ++ s.map (⟨·, true⟩))) rest := by
  induction s generalizing w with
  | nil => simp
  | cons c s ih =>
    rw [List.flatMap_cons, List.append_assoc, lex_quoteByte, ih, List.map_cons, List.append_assoc,
      List.singleton_append]

theorem lex_quote (current : Option Word) (s rest : List UInt8) :
    lex .plain current (quote s ++ rest) =
      lex .plain (some (current.getD [] ++ s.map (⟨·, true⟩))) rest := by
  have hopen : lex .plain current (quote s ++ rest) =
      lex .single (some (current.getD [])) (s.flatMap quoteByte ++ (apostrophe :: rest)) := by
    rw [quote, List.append_assoc, List.cons_append, lex]
    rfl
  rw [hopen, lex_quoteBytes]
  rfl

theorem lex_raw {s : List UInt8} (hs : s.all isPlain = true) :
    ∀ (current : Option Word) (rest : List UInt8), s ≠ [] →
      lex .plain current (s ++ rest) =
        lex .plain (some (current.getD [] ++ s.map (⟨·, false⟩))) rest := by
  induction s with
  | nil => exact fun _ _ h => absurd rfl h
  | cons c s ih =>
    intro current rest _
    rw [List.all_cons, Bool.and_eq_true] at hs
    obtain ⟨hc, hs⟩ := hs
    have hstep : lex .plain current (c :: (s ++ rest)) =
        lex .plain (extend current c false) (s ++ rest) := by
      simp only [isPlain, Bool.and_eq_true, Bool.not_eq_true', decide_eq_true_eq] at hc
      obtain ⟨⟨⟨⟨⟨hblank, hsingle⟩, hdouble⟩, hescape⟩, hspecial⟩, hnumber⟩ := hc
      rw [lex]
      simp [hblank, hsingle, hdouble, hescape, hspecial, hnumber]
    rw [List.cons_append, hstep]
    by_cases hnil : s = []
    · rw [hnil]
      rfl
    · rw [ih hs _ _ hnil]
      simp [extend]

theorem lex_piece {p : Piece} (hp : p.plain = true) (current : Option Word)
    (rest : List UInt8) :
    lex .plain current (p.text ++ rest) = lex .plain (some (current.getD [] ++ p.word)) rest := by
  cases p with
  | raw s =>
    simp only [Piece.plain, Bool.and_eq_true, decide_eq_true_eq] at hp
    exact lex_raw hp.2 current rest hp.1
  | quoted s => exact lex_quote current s rest

theorem lex_pieces {pieces : List Piece} (hpieces : ∀ p ∈ pieces, p.plain = true)
    (hne : pieces ≠ []) (current : Option Word) (rest : List UInt8) :
    lex .plain current (wordText pieces ++ rest) =
      lex .plain (some (current.getD [] ++ wordOf pieces)) rest := by
  induction pieces generalizing current with
  | nil => exact absurd rfl hne
  | cons p pieces ih =>
    have hrest : ∀ q ∈ pieces, q.plain = true := fun q hq => hpieces q (List.mem_cons_of_mem _ hq)
    rw [wordText, List.flatMap_cons, List.append_assoc, lex_piece (hpieces p List.mem_cons_self)]
    by_cases hnil : pieces = []
    · simp [hnil, wordOf]
    · have happend := ih hrest hnil (some (current.getD [] ++ p.word))
      rw [wordText] at happend
      rw [happend, wordOf, wordOf, List.flatMap_cons, Option.getD_some, List.append_assoc]

theorem splitWords_commandText {ws : List (List Piece)}
    (h : ∀ pieces ∈ ws, pieces ≠ [] ∧ ∀ p ∈ pieces, p.plain = true) :
    splitWords (commandText ws) = some (ws.map wordOf) := by
  unfold splitWords commandText
  induction ws with
  | nil => rfl
  | cons pieces ws ih =>
    obtain ⟨hne, hplain⟩ := h pieces List.mem_cons_self
    have hrest := ih fun pieces' hmem => h pieces' (List.mem_cons_of_mem _ hmem)
    cases ws with
    | nil =>
      have hword := lex_pieces hplain hne none []
      simpa [List.intercalate, lex] using hword
    | cons next ws =>
      have hsplit : [0x20].intercalate ((pieces :: next :: ws).map wordText) =
          wordText pieces ++ 0x20 :: [0x20].intercalate ((next :: ws).map wordText) := by
        simp [List.intercalate]
      have hblank : isBlank 0x20 = true := rfl
      rw [hsplit, lex_pieces hplain hne, lex, if_pos hblank, hrest]
      rfl

/-- The pieces of an assignment. -/
def assignPieces (a : List UInt8 × List UInt8) : List Piece := [.raw (a.1 ++ [0x3d]), .quoted a.2]

/-- The bytes of a word of pieces. -/
def bytesOf (pieces : List Piece) : List UInt8 := (wordOf pieces).map WordByte.byte

@[simp] theorem bytesOf_raw (s : List UInt8) : bytesOf [.raw s] = s := by
  simp [bytesOf, wordOf, Piece.word, Function.comp_def]

@[simp] theorem bytesOf_quoted (s : List UInt8) : bytesOf [.quoted s] = s := by
  simp [bytesOf, wordOf, Piece.word, Function.comp_def]

theorem isNameByte_cases {c : UInt8} (h : isNameByte c = true) :
    c ≠ 0x3d ∧ isPlain c = true := by
  have hall : ∀ n < 256, isNameByte (UInt8.ofNat n) = true →
      UInt8.ofNat n ≠ 0x3d ∧ isPlain (UInt8.ofNat n) = true := by
    decide +kernel
  have hbyte := hall c.toNat c.toNat_lt
  rw [UInt8.ofNat_toNat] at hbyte
  exact hbyte h

theorem assignment_assignPieces {a : List UInt8 × List UInt8} (hname : isName a.1 = true) :
    assignment (wordOf (assignPieces a)) = some a := by
  obtain ⟨name, value⟩ := a
  have hbytes : ∀ c ∈ name, isNameByte c = true := by
    simp only [isName, Bool.and_eq_true, List.all_eq_true] at hname
    exact hname.1
  have hword : wordOf (assignPieces (name, value)) =
      name.map (⟨·, false⟩) ++ equalsSign :: value.map (⟨·, true⟩) := by
    simp [wordOf, assignPieces, Piece.word, equalsSign]
  have htake : (wordOf (assignPieces (name, value))).takeWhile (· ≠ equalsSign) =
      name.map (⟨·, false⟩) := by
    rw [hword, List.takeWhile_append_of_pos, List.takeWhile_cons_of_neg (by simp),
      List.append_nil]
    intro b hb
    obtain ⟨c, hc, rfl⟩ := List.mem_map.mp hb
    simpa [equalsSign] using (isNameByte_cases (hbytes c hc)).1
  unfold assignment
  simp only [htake]
  rw [hword, List.drop_left]
  simp [Function.comp_def, hname]

theorem assignment_quoted (s : List UInt8) : assignment (wordOf [.quoted s]) = none := by
  have htake : (wordOf [.quoted s]).takeWhile (· ≠ equalsSign) = wordOf [.quoted s] := by
    apply List.takeWhile_eq_self_iff.mpr
    intro b hb
    obtain ⟨c, -, rfl⟩ := List.mem_map.mp (by simpa [wordOf, Piece.word] using hb)
    simp [equalsSign]
  unfold assignment
  simp only [htake]
  rw [List.drop_length]

theorem not_isReserved {w : Word} (h : w.map WordByte.byte = [] ∨ 0x3d ∈ w.map WordByte.byte ∨
    ∃ b ∈ w, b.quoted = true) : isReserved w = false := by
  have hwords : ∀ r ∈ reservedWords, r ≠ [] ∧ 0x3d ∉ r := by decide
  unfold isReserved
  rw [Bool.and_eq_false_iff]
  rcases h with hnil | hequals | ⟨b, hb, hquoted⟩
  · exact Or.inr (decide_eq_false fun hmem => (hwords _ hmem).1 hnil)
  · exact Or.inr (decide_eq_false fun hmem => (hwords _ hmem).2 hequals)
  · apply Or.inl
    rw [List.all_eq_false]
    exact ⟨b, hb, by simp [hquoted]⟩

theorem simpleCommand_words (assigns : List (List UInt8 × List UInt8)) (program : List UInt8)
    (args : List (List Piece)) (hnames : ∀ a ∈ assigns, isName a.1 = true) :
    simpleCommand ((assigns.map assignPieces ++ [.quoted program] :: args).map wordOf) =
      ⟨assigns, program :: args.map bytesOf⟩ := by
  induction assigns with
  | nil =>
    simp only [List.map_nil, List.nil_append, List.map_cons, simpleCommand, assignment_quoted,
      List.map_map]
    congr 1
    show bytesOf [.quoted program] :: args.map bytesOf = _
    rw [bytesOf_quoted]
  | cons a assigns ih =>
    have hrest := ih fun a' hmem => hnames a' (List.mem_cons_of_mem _ hmem)
    simp only [List.map_cons, List.cons_append, simpleCommand,
      assignment_assignPieces (hnames a List.mem_cons_self)]
    rw [hrest]

theorem parseCommand_commandText {assigns : List (List UInt8 × List UInt8)}
    {program : List UInt8} {args : List (List Piece)} (hnames : ∀ a ∈ assigns, isName a.1 = true)
    (hargs : ∀ pieces ∈ args, pieces ≠ [] ∧ ∀ p ∈ pieces, p.plain = true) :
    parseCommand (commandText (assigns.map assignPieces ++ [.quoted program] :: args)) =
      some ⟨assigns, program :: args.map bytesOf⟩ := by
  have hplain : ∀ pieces ∈ assigns.map assignPieces ++ [.quoted program] :: args,
      pieces ≠ [] ∧ ∀ p ∈ pieces, p.plain = true := by
    intro pieces hmem
    rcases List.mem_append.mp hmem with hassign | hmem
    · obtain ⟨a, ha, rfl⟩ := List.mem_map.mp hassign
      refine ⟨by simp [assignPieces], ?_⟩
      intro p hp
      rcases List.mem_cons.mp hp with rfl | hp
      · have hname := hnames a ha
        simp only [isName, Bool.and_eq_true, List.all_eq_true] at hname
        simp only [Piece.plain, List.all_append, Bool.and_eq_true, List.all_eq_true]
        exact ⟨by simp, fun c hc => (isNameByte_cases (hname.1 c hc)).2, by decide +kernel⟩
      · rw [List.mem_singleton.mp hp]
        rfl
    · rcases List.mem_cons.mp hmem with rfl | hmem
      · refine ⟨by simp, ?_⟩
        intro p hp
        rw [List.mem_singleton.mp hp]
        rfl
      · exact hargs pieces hmem
  have hhead : ((assigns.map assignPieces ++ [.quoted program] :: args).map wordOf).head?.any
      isReserved = false := by
    cases assigns with
    | nil =>
      apply not_isReserved
      cases program with
      | nil => exact Or.inl rfl
      | cons c program => exact Or.inr (Or.inr ⟨⟨c, true⟩, by simp [wordOf, Piece.word], rfl⟩)
    | cons a assigns =>
      apply not_isReserved
      exact Or.inr (Or.inl (by simp [wordOf, assignPieces, Piece.word]))
  unfold parseCommand
  rw [splitWords_commandText hplain, Option.bind_some, hhead,
    simpleCommand_words assigns program args hnames]
  rfl

/-- Words behind others, each with a blank before it. -/
def tailText (ws : List (List Piece)) : List UInt8 := ws.flatMap fun pieces => 0x20 :: wordText pieces

theorem tailText_append (ws ws' : List (List Piece)) :
    tailText (ws ++ ws') = tailText ws ++ tailText ws' := List.flatMap_append

theorem commandText_cons (pieces : List Piece) (ws : List (List Piece)) :
    commandText (pieces :: ws) = wordText pieces ++ tailText ws := by
  unfold commandText tailText
  induction ws generalizing pieces with
  | nil => simp [List.intercalate]
  | cons next ws ih =>
    have hsplit : [0x20].intercalate ((pieces :: next :: ws).map wordText) =
        wordText pieces ++ 0x20 :: [0x20].intercalate ((next :: ws).map wordText) := by
      simp [List.intercalate]
    rw [hsplit, ih, List.flatMap_cons, List.cons_append]

end PlumosBubble.Shell
