import PlumosBubble.Script.Threads
import PlumosBubble.Settings.Writers

/-! Any number of writers of the system settings. The shell tools write a copy under a name of
their own, the UI writes `settings.json.plumos.tmp`; each of them renames its copy over the file.
Where a run renames a copy of what the file holds, and no two runs of the UI share the temporary
file, every change survives. -/

namespace PlumosBubble.Settings

open Frontend Sequence Scripts Transition

section Model

/-- Where the file that a run of the UI has open is now. -/
inductive Place where
  | closed
  | temp
  | file
  | gone
  deriving DecidableEq

/-- The file, the temporary file of the UI, and by run its own copy and the file that it has open.
`base` is the text that the copy was made of, `busy` says that a run has opened the temporary
file and not renamed it yet, and `log` lists the runs in the order of their renames; nothing
reads these three. -/
structure State where
  file : Option CString
  temp : Option CString
  next : ℕ → CString
  place : ℕ → Place
  base : ℕ → CString
  busy : ℕ → Bool
  log : List ℕ

abbrev Sh := Script State Empty Bool

namespace State

variable (p : ℕ) (s : State)

def look : State := { s with base := Function.update s.base p (s.file.getD []) }

/-- `sed … >"$tmp"`. -/
def sed (key value : CString) : State :=
  { s with
    next := Function.update s.next p (sedNumeral key value false 0 (s.file.getD []))
    base := Function.update s.base p (s.file.getD []) }

/-- `printf … >"$tmp"`. -/
def fresh (key value : CString) : State :=
  { s with next := Function.update s.next p (freshText key value) }

/-- `mv -f "$tmp" "$SYSTEM_SETTINGS"`. -/
def move : State :=
  { s with
    file := some (s.next p)
    place := fun q => if s.place q = .file then .gone else s.place q
    log := s.log ++ [p] }

/-- `fopen(tmp_path, "wb")`. -/
def openTemp : State :=
  { s with
    temp := some []
    place := Function.update s.place p .temp
    busy := Function.update s.busy p true }

/-- A text over the beginning of another one. -/
def overlay (text old : CString) : CString := text ++ old.drop text.length

/-- The text is written to the file that the run has open, and that file is closed. -/
def write (text : CString) : State :=
  { s with
    temp := if s.place p = .temp then s.temp.map (overlay text) else s.temp
    file := if s.place p = .file then s.file.map (overlay text) else s.file
    place := Function.update s.place p .closed }

/-- `rename(tmp_path, path)`. -/
def rename : Bool × State :=
  match s.temp with
  | none => (false, { s with busy := Function.update s.busy p false })
  | some text =>
    (true,
      { s with
        file := some text
        temp := none
        place := fun q =>
          match s.place q with
          | .temp => .file
          | .file => .gone
          | place => place
        busy := Function.update s.busy p false
        log := s.log ++ [p] })

/-- `unlink(tmp_path)`. -/
def unlink : State :=
  { s with
    temp := none
    place := fun q => if s.place q = .temp then .gone else s.place q }

end State

section Programs

variable (p : ℕ)

/-- `grep -q`, where the file is readable. -/
def grep (key : CString) (readable : Bool) : Sh :=
  Script.run fun s => [(readable && grepKey key (s.file.getD []), s.look p)]

/-- The two shell writers: the key that they set, what a value of zeros becomes, and the value
that they are given. -/
def shellWrite (key floor arg : CString) : Sh :=
  match normalize floor arg with
  | none => pure false
  | some value => do
    let readable ← Script.read fun s => s.file.isSome
    let found ← grep p key readable
    Script.run fun s => [((), if found then s.sed p key value else s.fresh p key value)]
    Script.run fun s => [((), s.move p)]
    pure true

/-- `write_persisted` of `plumos-volume-control`. -/
def writePersisted (arg : CString) : Sh := shellWrite p (lit "volume") (lit "0") arg

/-- `write_saved` of `plumos-display-control`. -/
def writeSaved (arg : CString) : Sh := shellWrite p (lit "brightness") (lit "1") arg

/-- The end of `replace_json_key_value_atomic`. -/
def renameTemp : Sh := do
  let ok ← Script.run fun s => [s.rename p]
  if ok then pure true
  else do
    Script.run fun s => [((), s.unlink)]
    pure false

/-- `replace_json_key_value_atomic`; the backup is another file. -/
def replaceAtomic (key literal : CString) : Sh := do
  let json ← Script.run fun s => [(s.file, s.look p)]
  match json.bind (replaceJsonKeyValue key literal) with
  | none => pure false
  | some text => do
    Script.run fun s => [((), s.openTemp p)]
    Script.run fun s => [((), s.write p text)]
    renameTemp p

end Programs

/-- What the UI saves: a key that fits into the pattern, and a number, a word or a string. -/
structure Setting where
  key : CString
  literal : CString
  is_key : isKey key = true
  fits : key.length + 3 ≤ 128
  json : Json .value literal

inductive Writer where
  | volume (arg : CString)
  | brightness (arg : CString)
  | ui (setting : Setting)

namespace Writer

def program (p : ℕ) : Writer → Sh
  | volume arg => writePersisted p arg
  | brightness arg => writeSaved p arg
  | ui setting => replaceAtomic p setting.key setting.literal

/-- The key that a run sets, with its value. -/
def write : Writer → Option (CString × CString)
  | volume arg => (normalize (lit "0") arg).map fun value => (lit "volume", value)
  | brightness arg => (normalize (lit "1") arg).map fun value => (lit "brightness", value)
  | ui setting => some (setting.key, setting.literal)

/-- The run finds its key where it is a member of the document. -/
def Finds (text : CString) : Writer → Prop
  | volume _ => SedFinds (lit "volume") text
  | brightness _ => SedFinds (lit "brightness") text
  | ui setting => UiFinds setting.key text

end Writer

/-- Before anything has run. -/
def State.start (text : CString) : State :=
  ⟨some text, none, fun _ => [], fun _ => .closed, fun _ => [], fun _ => false, []⟩

def programs (writers : List Writer) (p : ℕ) : Sh :=
  match writers[p]? with
  | none => pure false
  | some writer => writer.program p

abbrev Session := Pool ℕ State Empty Bool

def session (d : Document) (writers : List Writer) : Session :=
  ⟨.start d.text, programs writers⟩

/-- What the runs of a log have written. -/
def written (writers : List Writer) (log : List ℕ) : List (CString × CString) :=
  log.filterMap fun p => (writers[p]?).bind Writer.write

/-- A rename puts a copy of what the file holds in its place, made by a run that finds its key
there; and a run of the UI opens the temporary file only while nobody else has it. -/
def Careful (writers : List Writer) (p : ℕ) (s t : State) : Prop :=
  (t.log ≠ s.log → s.file = some (s.base p) ∧
    ∀ writer, writers[p]? = some writer → writer.Finds (s.base p)) ∧
  (s.busy p = false → t.busy p = true → ∀ q, s.busy q = false)

end Model

section Protocol

variable {writers : List Writer} {d₀ : Document} {p q : ℕ} {s t u : State}

/-- The file is the document in which all renames so far have set their keys, and only the run
that has opened the temporary file writes to it. -/
structure Inv (writers : List Writer) (d₀ : Document) (s : State) : Prop where
  doc : ∃ d : Document, s.file = some d.text ∧
    d.pairs = assignAll (written writers s.log) d₀.pairs
  one : ∀ p q, s.busy p = true → s.busy q = true → p = q
  place : ∀ p, s.place p = .closed ∨ (s.place p = .temp ∧ s.busy p = true)
  nodup : s.log.Nodup

/-- What others leave of a run: its copy, its temporary file, and whether it has renamed. -/
structure Same (p : ℕ) (s t : State) : Prop where
  next : t.next p = s.next p
  base : t.base p = s.base p
  place : t.place p = s.place p
  busy : t.busy p = s.busy p
  temp : s.busy p = true → t.temp = s.temp
  log : p ∈ t.log ↔ p ∈ s.log

theorem Same.refl (p : ℕ) (s : State) : Same p s s :=
  ⟨rfl, rfl, rfl, rfl, fun _ => rfl, Iff.rfl⟩

theorem Same.trans (h : Same p s t) (h' : Same p t u) : Same p s u where
  next := h'.next.trans h.next
  base := h'.base.trans h.base
  place := h'.place.trans h.place
  busy := h'.busy.trans h.busy
  temp hbusy := (h'.temp (h.busy.trans hbusy)).trans (h.temp hbusy)
  log := h'.log.trans h.log

/-- Everyone keeps the invariant, and leaves the others what is theirs. -/
def protocol (writers : List Writer) (d₀ : Document) : Protocol ℕ State where
  inv := Inv writers d₀
  rely := Same
  guar p s t := Inv writers d₀ t ∧ ∀ q, q ≠ p → Same q s t
  rely_refl := Same.refl
  rely_trans := Same.trans
  keeps _ h := h.1
  others hne _ h := h.2 _ (Ne.symm hne)

theorem update_ne {α : Type} {f : ℕ → α} {x : α} (h : q ≠ p) : Function.update f p x q = f q :=
  Function.update_of_ne h x f

theorem mem_log (h : q ≠ p) : q ∈ s.log ++ [p] ↔ q ∈ s.log := by
  simp [h]

theorem guar_private (hs : Inv writers d₀ s) {next base : CString} :
    (protocol writers d₀).guar p s
      { s with
        next := Function.update s.next p next
        base := Function.update s.base p base } :=
  ⟨⟨hs.doc, hs.one, hs.place, hs.nodup⟩, fun _ hq =>
    ⟨update_ne hq, update_ne hq, rfl, rfl, fun _ => rfl, Iff.rfl⟩⟩

theorem guar_look (hs : Inv writers d₀ s) : (protocol writers d₀).guar p s (s.look p) := by
  have hsame : s.look p = { s with
      next := Function.update s.next p (s.next p)
      base := Function.update s.base p (s.file.getD []) } := by
    rw [Function.update_eq_self]
    rfl
  rw [hsame]
  exact guar_private hs

theorem guar_fresh (hs : Inv writers d₀ s) {key value : CString} :
    (protocol writers d₀).guar p s (s.fresh p key value) := by
  have hsame : s.fresh p key value = { s with
      next := Function.update s.next p (freshText key value)
      base := Function.update s.base p (s.base p) } := by
    rw [Function.update_eq_self]
    rfl
  rw [hsame]
  exact guar_private hs

theorem guar_open (hs : Inv writers d₀ s) (hfree : ∀ q, s.busy q = false) :
    (protocol writers d₀).guar p s (s.openTemp p) := by
  have hbusy : ∀ q, (s.openTemp p).busy q = true → q = p := by
    intro q hq
    by_contra hne
    have hsame : (s.openTemp p).busy q = s.busy q := update_ne hne
    rw [hsame, hfree q] at hq
    cases hq
  refine ⟨⟨hs.doc, fun q r hq hr => (hbusy q hq).trans (hbusy r hr).symm, fun q => ?_, hs.nodup⟩,
    fun q hq => ⟨rfl, rfl, update_ne hq, update_ne hq, fun h => ?_, Iff.rfl⟩⟩
  · by_cases hq : q = p
    · subst hq
      exact Or.inr ⟨Function.update_self .., Function.update_self ..⟩
    · refine Or.inl ((update_ne hq).trans ?_)
      rcases hs.place q with hclosed | ⟨-, hbusy⟩
      · exact hclosed
      · rw [hfree q] at hbusy
        cases hbusy
  · rw [hfree q] at h
    cases h

theorem guar_write (hs : Inv writers d₀ s) {text : CString} (hplace : s.place p = .temp) :
    (protocol writers d₀).guar p s (s.write p text) := by
  have hfile : (s.write p text).file = s.file := by
    simp [State.write, hplace]
  have hbusy : s.busy p = true := by
    rcases hs.place p with hclosed | ⟨-, hbusy⟩
    · rw [hplace] at hclosed
      cases hclosed
    · exact hbusy
  refine ⟨⟨by rw [hfile]; exact hs.doc, hs.one, fun q => ?_, hs.nodup⟩,
    fun q hq => ⟨rfl, rfl, update_ne hq, rfl, fun h => ?_, Iff.rfl⟩⟩
  · by_cases hq : q = p
    · subst hq
      exact Or.inl (Function.update_self ..)
    · have hsame : (s.write p text).place q = s.place q := update_ne hq
      rw [hsame]
      exact hs.place q
  · exact absurd (hs.one q p h hbusy) hq

theorem Inv.renamed (hs : Inv writers d₀ s) {base new key value : CString}
    (hfile : s.file = some base)
    (hnew : ∃ d d' : Document, d.text = base ∧ new = d'.text ∧
      d'.pairs = assign key value d.pairs)
    (hwrite : (writers[p]?).bind Writer.write = some (key, value)) :
    ∃ d : Document, some new = some d.text ∧
      d.pairs = assignAll (written writers (s.log ++ [p])) d₀.pairs := by
  obtain ⟨d, d', htext, rfl, hpairs⟩ := hnew
  obtain ⟨d₁, hd₁, hlog⟩ := hs.doc
  have hsame : d.pairs = d₁.pairs := by
    apply Document.pairs_eq
    rw [htext]
    exact Option.some_inj.mp (hfile.symm.trans hd₁)
  have hwritten : written writers (s.log ++ [p]) = written writers s.log ++ [(key, value)] := by
    unfold written
    rw [List.filterMap_append, List.filterMap_cons, hwrite, List.filterMap_nil]
  refine ⟨d', rfl, ?_⟩
  rw [hpairs, hwritten, assignAll_append, hsame, hlog]

theorem nodup_log (hs : Inv writers d₀ s) (hlog : p ∉ s.log) : (s.log ++ [p]).Nodup := by
  rw [List.nodup_append]
  refine ⟨hs.nodup, by simp, ?_⟩
  rintro q hq _ hp rfl
  rw [List.mem_singleton.mp hp] at hq
  exact hlog hq

theorem guar_move (hs : Inv writers d₀ s) (hlog : p ∉ s.log)
    (hdoc : ∃ d : Document, some (s.next p) = some d.text ∧
      d.pairs = assignAll (written writers (s.log ++ [p])) d₀.pairs) :
    (protocol writers d₀).guar p s (s.move p) := by
  have hplace : ∀ q, (s.move p).place q = s.place q := by
    intro q
    simp only [State.move]
    rcases hs.place q with h | ⟨h, -⟩
    · simp [h]
    · simp [h]
  exact ⟨⟨hdoc, hs.one, fun q => by rw [hplace]; exact hs.place q, nodup_log hs hlog⟩,
    fun q hq => ⟨rfl, rfl, hplace q, rfl, fun _ => rfl, mem_log hq⟩⟩

theorem rename_some {text : CString} (htemp : s.temp = some text) :
    s.rename p =
      (true,
        { s with
          file := some text
          temp := none
          place := fun q =>
            match s.place q with
            | .temp => .file
            | .file => .gone
            | place => place
          busy := Function.update s.busy p false
          log := s.log ++ [p] }) := by
  simp only [State.rename, htemp]

theorem guar_rename (hs : Inv writers d₀ s) (hlog : p ∉ s.log) (hbusy : s.busy p = true)
    (hclosed : s.place p = .closed) {text : CString} (htemp : s.temp = some text)
    (hdoc : ∃ d : Document, some text = some d.text ∧
      d.pairs = assignAll (written writers (s.log ++ [p])) d₀.pairs) :
    (protocol writers d₀).guar p s (s.rename p).2 := by
  have hplaces : ∀ q, s.place q = .closed := by
    intro q
    rcases hs.place q with h | ⟨-, h⟩
    · exact h
    · rw [hs.one q p h hbusy]
      exact hclosed
  have hfree : ∀ q, Function.update s.busy p false q = false := by
    intro q
    by_cases hq : q = p
    · subst hq
      exact Function.update_self ..
    · rw [update_ne hq]
      cases h : s.busy q with
      | false => rfl
      | true => exact absurd (hs.one q p h hbusy) hq
  rw [rename_some htemp]
  refine ⟨⟨hdoc, fun q r hq _ => ?_, fun q => Or.inl ?_, nodup_log hs hlog⟩, fun q hq =>
    ⟨rfl, rfl, ?_, update_ne hq, fun h => absurd (hs.one q p h hbusy) hq, mem_log hq⟩⟩
  · exact absurd ((hfree q).symm.trans hq) Bool.false_ne_true
  · simp [hplaces q]
  · simp [hplaces q]

end Protocol

section Triples

variable {writers : List Writer} {d₀ : Document} {p : ℕ} {s t : State} {α : Type}

/-- The run has no file open and has not renamed. -/
structure Idle (p : ℕ) (s : State) : Prop where
  busy : s.busy p = false
  place : s.place p = .closed
  log : p ∉ s.log

/-- The copy of a shell writer, made of the base with its key set. -/
structure Copied (p : ℕ) (key value : CString) (s : State) : Prop where
  idle : Idle p s
  next : s.next p = sedNumeral key value false 0 (s.base p)

/-- A shell writer that did not find its key writes a document of its own. -/
structure Missed (p : ℕ) (key : CString) (s : State) : Prop where
  idle : Idle p s
  grep : grepKey key (s.base p) = false

/-- A run of the UI has the temporary file, and knows what it writes there. -/
structure Busy (p : ℕ) (place : Place) (key literal text content : CString) (s : State) :
    Prop where
  busy : s.busy p = true
  place : s.place p = place
  log : p ∉ s.log
  text : replaceJsonKeyValue key literal (s.base p) = some text
  temp : s.temp = some content

/-- At the end the result says whether the run has renamed. -/
def Ended (p : ℕ) (ok : Bool) (s : State) : Prop := ok = true ↔ p ∈ s.log

/-- What the others leave true. -/
def Lasting (p : ℕ) (pre : State → Prop) : Prop := ∀ s t, pre s → Same p s t → pre t

theorem Lasting.stable {pre : State → Prop} (h : Lasting p pre) :
    Stable (protocol writers d₀) p pre :=
  fun s t _ hs hrely _ => h s t hs hrely

theorem lasting_idle : Lasting p (Idle p) :=
  fun _ _ hs h => ⟨h.busy.trans hs.busy, h.place.trans hs.place, h.log.not.mpr hs.log⟩

theorem lasting_copied {key value : CString} : Lasting p (Copied p key value) :=
  fun _ _ hs h => ⟨lasting_idle _ _ hs.idle h, by rw [h.next, h.base, hs.next]⟩

theorem lasting_missed {key : CString} : Lasting p (Missed p key) :=
  fun _ _ hs h => ⟨lasting_idle _ _ hs.idle h, by rw [h.base, hs.grep]⟩

theorem lasting_busy {place : Place} {key literal text content : CString} :
    Lasting p (Busy p place key literal text content) :=
  fun _ _ hs h => ⟨h.busy.trans hs.busy, h.place.trans hs.place, h.log.not.mpr hs.log,
    by rw [h.base, hs.text], by rw [h.temp hs.busy, hs.temp]⟩

theorem lasting_ended {ok : Bool} : Lasting p (Ended p ok) :=
  fun _ _ hs h => hs.trans h.log.symm

abbrev Does (writers : List Writer) (d₀ : Document) (p : ℕ) (pre : State → Prop)
    (m : Script State Empty α) (Q : α → State → Prop) : Prop :=
  Triple (protocol writers d₀) (Careful writers p) p pre m Q fun _ _ => True

theorem does_command {f : State → α × State} {pre : State → Prop} {Q : α → State → Prop}
    (hpre : Lasting p pre) (hQ : ∀ a, Lasting p (Q a))
    (h : ∀ s, Inv writers d₀ s → pre s → Careful writers p s (f s).2 →
      (protocol writers d₀).guar p s (f s).2 ∧ Q (f s).1 (f s).2) :
    Does writers d₀ p pre (Script.run fun s => [f s]) Q := by
  apply Triple.run hpre.stable fun a => (hQ a).stable
  intro s hs hp o ho hC
  rw [List.mem_singleton.mp ho] at hC ⊢
  exact h s hs hp hC

theorem does_pure {pre : State → Prop} {ok : Bool} (hpre : Lasting p pre)
    (h : ∀ s, pre s → Ended p ok s) : Does writers d₀ p pre (pure ok) (Ended p) :=
  Triple.pure ok hpre.stable fun s _ hs => h s hs

theorem ended_false (h : p ∉ s.log) : Ended p false s := by
  simp [Ended, h]

theorem Idle.look (h : Idle p s) : Idle p (s.look p) := ⟨h.busy, h.place, h.log⟩

theorem careful_log (hC : Careful writers p s t) (hlog : t.log = s.log ++ [p]) {writer : Writer}
    (hwriter : writers[p]? = some writer) :
    s.file = some (s.base p) ∧ writer.Finds (s.base p) := by
  obtain ⟨hfile, hfinds⟩ := hC.1 (by simp [hlog])
  exact ⟨hfile, hfinds writer hwriter⟩

theorem grepKey_of_sedFinds {key text : CString} (h : SedFinds key text) :
    grepKey key text = true := by
  obtain ⟨-, -, -, -, hhits⟩ := h
  obtain ⟨before, rest, hsplit, hmatch, -⟩ := @sedNumeral_of_hits key [] _ _ _ hhits
  rw [hsplit]
  exact grepKey_of_match before hmatch

theorem does_shellWrite {writer : Writer} {key floor arg : CString}
    (hwriter : writers[p]? = some writer) (hfloor : isWhole floor = true)
    (hwrite : writer.write = (normalize floor arg).map fun value => (key, value))
    (hfinds : ∀ text, writer.Finds text → SedFinds key text) :
    Does writers d₀ p (Idle p) (shellWrite p key floor arg) (Ended p) := by
  unfold shellWrite
  cases hvalue : normalize floor arg with
  | none => exact does_pure lasting_idle fun s hs => ended_false hs.log
  | some value =>
    rw [hvalue, Option.map_some] at hwrite
    have hjson := json_normalize hfloor hvalue
    have hbind : (writers[p]?).bind Writer.write = some (key, value) := by
      rw [hwriter, Option.bind_some, hwrite]
    have hlasting : ∀ found : Bool,
        Lasting p (if found then Copied p key value else Missed p key) := by
      intro found
      cases found with
      | true => exact lasting_copied
      | false => exact lasting_missed
    dsimp only
    apply Triple.bind (Q := fun readable s => Idle p s ∧ readable = true)
    · apply does_command lasting_idle fun _ s t hs h => ⟨lasting_idle _ _ hs.1 h, hs.2⟩
      intro s hs hidle _
      obtain ⟨d, hd, -⟩ := hs.doc
      exact ⟨⟨hs, fun q _ => Same.refl q s⟩, hidle, by simp [hd]⟩
    intro readable
    apply Triple.bind (Q := fun found s => Idle p s ∧ (found = false → Missed p key s))
    · apply does_command (fun _ _ hs h => ⟨lasting_idle _ _ hs.1 h, hs.2⟩)
        fun _ s t hs h => ⟨lasting_idle _ _ hs.1 h, fun hf => lasting_missed _ _ (hs.2 hf) h⟩
      rintro s hs ⟨hidle, rfl⟩ _
      refine ⟨guar_look hs, hidle.look, fun hfound => ⟨hidle.look, ?_⟩⟩
      simpa [State.look] using hfound
    intro found
    apply Triple.bind (Q := fun _ => if found then Copied p key value else Missed p key)
    · apply does_command (fun _ _ hs h => ⟨lasting_idle _ _ hs.1 h, fun hf =>
        lasting_missed _ _ (hs.2 hf) h⟩) fun _ => hlasting found
      rintro s hs ⟨hidle, hmissed⟩ _
      cases found with
      | true =>
        refine ⟨guar_private hs, ⟨hidle.busy, hidle.place, hidle.log⟩, ?_⟩
        simp [State.sed]
      | false =>
        have hgrep := (hmissed rfl).grep
        exact ⟨guar_fresh hs, ⟨hidle.busy, hidle.place, hidle.log⟩, hgrep⟩
    intro _
    apply Triple.bind (Q := fun _ => Ended p true)
    · apply does_command (hlasting found) fun _ => lasting_ended
      intro s hs hpre hC
      obtain ⟨hfile, hwriterFinds⟩ := careful_log hC rfl hwriter
      have hsed := hfinds _ hwriterFinds
      cases found with
      | false =>
        have hgrep := hpre.grep
        rw [grepKey_of_sedFinds hsed] at hgrep
        cases hgrep
      | true =>
        obtain ⟨d, d', htext, hnew, hpairs⟩ := exists_sedNumeral hsed hjson
        have hdoc := hs.renamed hfile ⟨d, d', htext, hnew, hpairs⟩ hbind
        rw [← hpre.next] at hdoc
        exact ⟨guar_move hs hpre.idle.log hdoc, by simp [Ended, State.move]⟩
    intro _
    exact does_pure lasting_ended fun s hs => hs

theorem does_replaceAtomic {setting : Setting} (hwriter : writers[p]? = some (.ui setting)) :
    Does writers d₀ p (Idle p) (replaceAtomic p setting.key setting.literal) (Ended p) := by
  have hbind : (writers[p]?).bind Writer.write = some (setting.key, setting.literal) := by
    rw [hwriter, Option.bind_some, Writer.write]
  unfold replaceAtomic
  apply Triple.bind (Q := fun json s => Idle p s ∧ json = some (s.base p))
  · apply does_command lasting_idle fun _ s t hs h =>
      ⟨lasting_idle _ _ hs.1 h, by rw [h.base]; exact hs.2⟩
    intro s hs hidle _
    obtain ⟨d, hd, -⟩ := hs.doc
    refine ⟨guar_look hs, hidle.look, ?_⟩
    simp [State.look, hd]
  intro json
  have hlasting : Lasting p fun s => Idle p s ∧ json = some (s.base p) :=
    fun s t hs h => ⟨lasting_idle _ _ hs.1 h, by rw [h.base]; exact hs.2⟩
  cases htext : json.bind (replaceJsonKeyValue setting.key setting.literal) with
  | none => exact does_pure hlasting fun s hs => ended_false hs.1.log
  | some text =>
    dsimp only
    apply Triple.bind (Q := fun _ => Busy p .temp setting.key setting.literal text [])
    · apply does_command hlasting fun _ => lasting_busy
      rintro s hs ⟨hidle, rfl⟩ hC
      have hfree := hC.2 hidle.busy (Function.update_self ..)
      exact ⟨guar_open hs hfree, Function.update_self .., Function.update_self .., hidle.log,
        htext, rfl⟩
    intro _
    apply Triple.bind (Q := fun _ => Busy p .closed setting.key setting.literal text text)
    · apply does_command lasting_busy fun _ => lasting_busy
      intro s hs hbusy _
      refine ⟨guar_write hs hbusy.place, hbusy.busy, Function.update_self .., hbusy.log,
        hbusy.text, ?_⟩
      simp [State.write, State.overlay, hbusy.place, hbusy.temp]
    intro _
    unfold renameTemp
    apply Triple.bind (Q := fun ok s => ok = true ∧ Ended p true s)
    · apply does_command lasting_busy fun _ s t hs h => ⟨hs.1, lasting_ended _ _ hs.2 h⟩
      intro s hs hwritten hC
      have hrename := rename_some (p := p) hwritten.temp
      have hlog : (s.rename p).2.log = s.log ++ [p] := by rw [hrename]
      obtain ⟨hfile, hfinds⟩ := careful_log hC hlog hwriter
      obtain ⟨d, d', hd, hnew, hpairs⟩ :=
        exists_replaceJsonKeyValue hfinds setting.is_key setting.json
      rw [hwritten.text] at hnew
      cases hnew
      have hdoc := hs.renamed hfile ⟨d, d', hd, rfl, hpairs⟩ hbind
      refine ⟨guar_rename hs hwritten.log hwritten.busy hwritten.place hwritten.temp
        hdoc, by rw [hrename], ?_⟩
      rw [Ended, hlog]
      simp
    intro ok
    cases ok with
    | true => exact does_pure (fun s t hs h => ⟨hs.1, lasting_ended _ _ hs.2 h⟩) fun s hs => hs.2
    | false => exact fun s _ hs => absurd hs.1 Bool.false_ne_true

theorem does_program {writer : Writer} (hwriter : writers[p]? = some writer) :
    Does writers d₀ p (Idle p) (writer.program p) (Ended p) := by
  have hzero : isWhole (lit "0") = true ∧ isWhole (lit "1") = true := by decide +kernel
  cases writer with
  | volume arg => exact does_shellWrite hwriter hzero.1 rfl fun _ h => h
  | brightness arg => exact does_shellWrite hwriter hzero.2 rfl fun _ h => h
  | ui setting => exact does_replaceAtomic hwriter

end Triples

section Runs

variable {writers : List Writer} {d₀ : Document} {is : List ℕ} {p : Session}

theorem session_correct (writers : List Writer) (d₀ : Document) :
    Pool.Correct (protocol writers d₀) (Careful writers) Ended (fun _ _ _ => True)
      (session d₀ writers) := by
  have hidle : ∀ i, Idle i (session d₀ writers).shared := fun i => ⟨rfl, rfl, List.not_mem_nil⟩
  have hinv : Inv writers d₀ (session d₀ writers).shared :=
    ⟨⟨d₀, rfl, rfl⟩, fun _ _ h => absurd h Bool.false_ne_true, fun _ => Or.inl rfl, List.nodup_nil⟩
  refine ⟨hinv, fun i => ?_⟩
  dsimp only [session, programs]
  cases hwriter : writers[i]? with
  | none => exact does_pure lasting_idle (fun s hs => ended_false hs.log) _ hinv (hidle i)
  | some writer => exact does_program hwriter _ hinv (hidle i)

/-- The value that a key was given last, in the order of the renames. -/
def lastWritten (writers : List Writer) (log : List ℕ) (key : CString) : Option CString :=
  (written writers log).reverse.lookup key

/-- Where every rename puts in place a copy of what the file holds, and no two runs of the UI
share the temporary file, the file is at every moment a document in which each key has the value
of the last write made to it, or the one that it had at first; and the runs that have ended well
are those that have renamed, once each. -/
theorem settings_survive
    (hrun : Run (Pool.StepIn (Careful writers)) (session d₀ writers) is p) :
    (∃ d : Document, p.shared.file = some d.text ∧ ∀ key,
      d.value key = (lastWritten writers p.shared.log key).or (d₀.value key)) ∧
    p.shared.log.Nodup ∧
    ∀ i, ∀ ok, (p.thread i).result = some ok → (ok = true ↔ i ∈ p.shared.log) := by
  have hp := (session_correct writers d₀).run hrun
  obtain ⟨d, hfile, hpairs⟩ := hp.inv.doc
  refine ⟨⟨d, hfile, fun key => ?_⟩, hp.inv.nodup, fun i ok hresult => ?_⟩
  · rw [Document.value, hpairs, lookup_assignAll]
    rfl
  · revert hresult
    cases hthread : p.thread i with
    | done a =>
      rintro ⟨⟩
      exact hp.returned hthread
    | raise e => exact e.elim
    | cmd outcomes next => exact fun h => by cases h

/-- A level as the defaults have it. -/
def level (key value : CString) (hkey : isKey key = true) (hvalue : isWhole value = true) :
    Member :=
  newLineMember hkey (json_of_isWhole hvalue)

def twoMembers (m m' : Member) (h : m.key ≠ m'.key) : Document where
  start := []
  members := [m, m']
  inside := []
  ending := []
  start_blank := nil_blank
  inside_blank := nil_blank
  ending_blank := nil_blank
  keys_nodup := by simpa using h

theorem volume_key : isKey (lit "volume") = true := by decide +kernel

theorem brightness_key : isKey (lit "brightness") = true := by decide +kernel

def volumeIs (value : CString) (h : isWhole value = true) : Member :=
  level (lit "volume") value volume_key h

def brightnessIs (value : CString) (h : isWhole value = true) : Member :=
  level (lit "brightness") value brightness_key h

/-- Two levels, before any run and when the brightness has been set. -/
def levels (brightness : CString) (h : isWhole brightness = true) : Document :=
  twoMembers (volumeIs (lit "8") (by decide +kernel)) (brightnessIs brightness h)
    (by
      have hne : lit "volume" ≠ lit "brightness" := by decide +kernel
      exact hne)

def levelsAtFirst : Document := levels (lit "10") (by decide +kernel)
def levelsThen : Document := levels (lit "12") (by decide +kernel)

def levelWriters : List Writer := [.volume (lit "9"), .brightness (lit "12")]

/-- Every rename of the sample is of the text that is expected there. -/
def Expected (p : ℕ) (s t : State) : Prop :=
  (t.log ≠ s.log → s.file = some (s.base p) ∧
    s.base p = if p = 0 then levelsThen.text else levelsAtFirst.text) ∧
  t.busy p = false

instance (p : ℕ) (s t : State) : Decidable (Expected p s t) :=
  inferInstanceAs (Decidable ((_ → _ ∧ _) ∧ _))

theorem volume_found : SedFinds (lit "volume") levelsThen.text :=
  @SedFinds.mk _ _ levelsThen [] _ _ rfl rfl rfl
    ⟨by decide +kernel, by decide +kernel, by decide +kernel⟩ (by decide +kernel)

theorem brightness_found : SedFinds (lit "brightness") levelsAtFirst.text :=
  @SedFinds.mk _ _ levelsAtFirst [_] [] _ rfl rfl rfl
    ⟨by decide +kernel, by decide +kernel, by decide +kernel⟩ (by decide +kernel)

theorem Expected.careful {p : ℕ} {s t : State} (h : Expected p s t) :
    Careful levelWriters p s t := by
  refine ⟨fun hlog => ?_, fun _ hbusy => absurd (h.2.symm.trans hbusy) Bool.false_ne_true⟩
  obtain ⟨hfile, hbase⟩ := h.1 hlog
  refine ⟨hfile, fun writer hwriter => ?_⟩
  rw [hbase]
  match p with
  | 0 =>
    cases hwriter
    exact volume_found
  | 1 =>
    cases hwriter
    exact brightness_found
  | p + 2 => cases hwriter

/-- The volume is looked up, then the brightness is set, then the volume. -/
def oneAfterAnother : List (ℕ × ℕ) :=
  [(0, 0), (0, 0), (1, 0), (1, 0), (1, 0), (1, 0), (0, 0), (0, 0)]

theorem settings_survive_sample :
    ∃ d : Document,
      (Pool.playIn Expected oneAfterAnother (session levelsAtFirst levelWriters)).shared.file =
        some d.text ∧ d.value (lit "volume") = some (lit "9") ∧
      d.value (lit "brightness") = some (lit "12") := by
  obtain ⟨is, hrun⟩ := Pool.run_playIn (C := Expected) oneAfterAnother
    (session levelsAtFirst levelWriters)
  have hcareful : Run (Pool.StepIn (Careful levelWriters)) _ (is.map id) _ :=
    hrun.map id fun h => ⟨h.1, h.2.careful⟩
  obtain ⟨⟨d, hfile, hvalue⟩, -⟩ := settings_survive hcareful
  refine ⟨d, hfile, ?_, ?_⟩
  · rw [hvalue]
    decide +kernel
  · rw [hvalue]
    decide +kernel

/-- The UI turns the network off while a run of `plumos-volume-control` has its copy ready. -/
def networkOff : Setting where
  key := lit "wifi_enabled"
  literal := lit "false"
  is_key := by decide +kernel
  fits := by decide +kernel
  json := .word (by decide +kernel)

def networkIsOn : Member :=
  newLineMember networkOff.is_key (.word (w := lit "true") (by decide +kernel))

def volumeAndNetwork : Document :=
  twoMembers (volumeIs (lit "8") (by decide +kernel)) networkIsOn
    (by
      have hne : lit "volume" ≠ lit "wifi_enabled" := by decide +kernel
      exact hne)

def volumeAndNetworkNow : Document :=
  twoMembers (volumeIs (lit "9") (by decide +kernel)) networkIsOn
    (by
      have hne : lit "volume" ≠ lit "wifi_enabled" := by decide +kernel
      exact hne)

def volumeAroundNetwork : List (ℕ × ℕ) :=
  [(0, 0), (0, 0), (0, 0), (1, 0), (1, 0), (1, 0), (1, 0), (0, 0)]

theorem network_change_lost : ∃ is p,
    Run Pool.Step (session volumeAndNetwork [.volume (lit "9"), .ui networkOff]) is p ∧
      (∀ i, (p.thread i).Ended) ∧ p.shared.file = some volumeAndNetworkNow.text ∧
      volumeAndNetworkNow.value (lit "wifi_enabled") = some (lit "true") ∧
      p.shared.log = [1, 0] ∧
      Writer.write (.ui networkOff) = some (lit "wifi_enabled", lit "false") := by
  obtain ⟨is, hrun⟩ := Pool.run_play volumeAroundNetwork
    (session volumeAndNetwork [.volume (lit "9"), .ui networkOff])
  refine ⟨is, _, hrun, ?_, by decide +kernel, by decide +kernel, by decide +kernel,
    by decide +kernel⟩
  intro i
  match i with
  | 0 => exact trivial
  | 1 => exact trivial
  | i + 2 => exact trivial

end Runs

end PlumosBubble.Settings
