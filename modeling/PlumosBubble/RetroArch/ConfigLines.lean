import Mathlib.Data.List.Forall2
import PlumosBubble.Update.Text

/-! The line programs of `plumos-retroarch-config-merge`: a config file as its lines, the key of a
line, the factory's lines that a config lacks, and the three rewritings of old defaults. -/

namespace PlumosBubble.RetroArch

open Update (Text)

/-- A file as text: the lines with an end, and what stands behind the last of them. -/
structure Doc where
  lines : List Text
  rest : Text
  deriving DecidableEq

namespace Doc

/-- A file that is not there reads like an empty one. -/
def empty : Doc := ⟨[], []⟩

/-- What `-s` says. -/
def hasSize (d : Doc) : Bool := d ≠ empty

/-- The lines that `awk`, `sed` and `grep` read. -/
def records (d : Doc) : List Text := d.lines ++ if d.rest = [] then [] else [d.rest]

/-- `printf '\n' >>`. -/
def newline (d : Doc) : Doc := ⟨d.lines ++ [d.rest], []⟩

/-- The output of `awk`, appended. -/
def printed (d : Doc) (lines : List Text) : Doc := if lines = [] then d else
  ⟨d.lines ++ (d.rest ++ lines.headD []) :: lines.tail, []⟩

/-- The output of `sed`, which ends where its input does. -/
def map (d : Doc) (f : Text → Text) : Doc :=
  ⟨d.lines.map f, if d.rest = [] then [] else f d.rest⟩

end Doc

section Keys

/-- `[A-Za-z0-9_.-]`. -/
def isKeyChar (c : Char) : Bool := c.isAlphanum || c = '_' || c = '.' || c = '-'

/-- `[[:space:]]`. -/
def isBlank (c : Char) : Bool :=
  c = ' ' || c = '\t' || c = '\n' || c.toNat = 11 || c.toNat = 12 || c = '\r'

/-- The key of a line that matches `^[A-Za-z0-9_.-]+[[:space:]]*=`. -/
def keyOf (line : Text) : Option Text :=
  let key := line.takeWhile isKeyChar
  let behind := (line.dropWhile isKeyChar).dropWhile isBlank
  if key ≠ [] ∧ behind.head? = some '=' then some key else none

def hasKey (key line : Text) : Bool := keyOf line = some key

/-- The line of a key in an `awk` array that the lines of a file fill in order. -/
def lineOf (lines : List Text) (key : Text) : Option Text := (lines.filter (hasKey key)).getLast?

def present (lines : List Text) (key : Text) : Bool := lines.any (hasKey key)

/-- What `merge_missing_keys` prints. -/
def missing (config factory : List Text) : List Text :=
  factory.filter fun line =>
    match keyOf line with
    | some key => !present config key
    | none => false

end Keys

section Rewritings

/-- What `migrate_pre_v90s_defaults` makes of a line. -/
def replaceDefault (legacy factory : List Text) (line : Text) : Text :=
  match keyOf line with
  | none => line
  | some key =>
    match lineOf legacy key, lineOf factory key with
    | some old, some new => if line = old ∧ line ≠ new then new else line
    | _, _ => line

/-- The lines that the migration to Function1 looks for, and those that it writes. -/
def oldMenu : Text := "input_menu_toggle_btn = \"10\"".toList
def newMenu : Text := "input_menu_toggle_btn = \"17\"".toList
def oldScreenshot : Text := "input_screenshot_btn = \"17\"".toList
def newScreenshot : Text := "input_screenshot_btn = \"10\"".toList

/-- The `sed` of `migrate_function1_menu_defaults`. -/
def replaceMenu (line : Text) : Text :=
  if line = oldMenu then newMenu else if line = oldScreenshot then newScreenshot else line

/-- The line that the migration of the aspect looks for, and the one that it writes. -/
def oldAspect : Text := "video_aspect_ratio_auto = \"false\"".toList
def newAspect : Text := "video_aspect_ratio_auto = \"true\"".toList

/-- The `sed` of `migrate_fixed_aspect_default`. -/
def replaceAspect (line : Text) : Text := if line = oldAspect then newAspect else line

end Rewritings

section DocFacts

variable {d : Doc} {f : Text → Text} {lines : List Text}

theorem Doc.records_eq_nil : d.records = [] ↔ d = Doc.empty := by
  obtain ⟨lines, rest⟩ := d
  simp [Doc.records, Doc.empty]

theorem Doc.records_map (hf : ∀ line, line ≠ [] → f line ≠ []) :
    (d.map f).records = d.records.map f := by
  unfold Doc.map Doc.records
  by_cases hrest : d.rest = []
  · simp [hrest]
  · simp [hrest, hf d.rest hrest]

theorem Doc.records_printed (hrest : d.rest = []) :
    (d.printed lines).records = d.lines ++ lines := by
  unfold Doc.printed
  cases lines with
  | nil => simp [Doc.records, hrest]
  | cons line lines => simp [Doc.records, hrest]

end DocFacts

section KeyFacts

variable {line : Text} {key : Text} {config factory legacy : List Text}

theorem present_eq_true : present config key = true ↔ ∃ line ∈ config, keyOf line = some key := by
  simp [present, hasKey]

theorem mem_missing : line ∈ missing config factory ↔
    line ∈ factory ∧ ∃ key, keyOf line = some key ∧ present config key = false := by
  unfold missing
  rw [List.mem_filter]
  refine and_congr_right fun _ => ?_
  cases keyOf line with
  | none => simp
  | some key => simp

theorem lineOf_mem (h : lineOf config key = some line) :
    line ∈ config ∧ keyOf line = some key := by
  have hmem := List.mem_of_getLast? h
  simpa [hasKey] using hmem

theorem filter_hasKey (hunique : (factory.filterMap keyOf).Nodup) (hline : line ∈ factory)
    (hkey : keyOf line = some key) : factory.filter (hasKey key) = [line] := by
  induction factory with
  | nil => cases hline
  | cons first factory ih =>
    have hrest : (factory.filterMap keyOf).Nodup := by
      rw [List.filterMap_cons] at hunique
      cases hfirst : keyOf first with
      | none => rwa [hfirst] at hunique
      | some other =>
        rw [hfirst] at hunique
        exact hunique.of_cons
    rcases List.mem_cons.mp hline with rfl | hline
    · have hno : factory.filter (hasKey key) = [] := by
        rw [List.filter_eq_nil_iff]
        intro other hother hhas
        rw [List.filterMap_cons, hkey] at hunique
        exact (List.nodup_cons.mp hunique).1
          (List.mem_filterMap.mpr ⟨other, hother, by simpa [hasKey] using hhas⟩)
      rw [List.filter_cons_of_pos (by simp [hasKey, hkey]), hno]
    · have hother : ¬hasKey key first = true := fun hhas => by
        rw [List.filterMap_cons, show keyOf first = some key by simpa [hasKey] using hhas]
          at hunique
        exact (List.nodup_cons.mp hunique).1 (List.mem_filterMap.mpr ⟨line, hline, hkey⟩)
      rw [List.filter_cons_of_neg hother]
      exact ih hrest hline

theorem lineOf_of_mem (hunique : (factory.filterMap keyOf).Nodup) (hline : line ∈ factory)
    (hkey : keyOf line = some key) : lineOf factory key = some line := by
  unfold lineOf
  rw [filter_hasKey hunique hline hkey]
  rfl

theorem present_of_sublist {more : List Text} (hsub : ∀ line ∈ config, line ∈ more)
    (h : present config key = true) : present more key = true := by
  rw [present_eq_true] at h ⊢
  obtain ⟨line, hline, hkey⟩ := h
  exact ⟨line, hsub line hline, hkey⟩

theorem missing_eq_nil : missing config factory = [] ↔
    ∀ line ∈ factory, ∀ key, keyOf line = some key → present config key = true := by
  rw [List.eq_nil_iff_forall_not_mem]
  refine forall_congr' fun line => ?_
  rw [mem_missing]
  constructor
  · intro h hline key hkey
    by_contra hno
    exact h ⟨hline, key, hkey, Bool.eq_false_iff.mpr hno⟩
  · rintro h ⟨hline, key, hkey, hno⟩
    exact Bool.false_ne_true (hno.symm.trans (h hline key hkey))

theorem filter_missing (hunique : (factory.filterMap keyOf).Nodup) (hline : line ∈ factory)
    (hkey : keyOf line = some key) (habsent : present config key = false) :
    (missing config factory).filter (hasKey key) = [line] := by
  have hcomm : (missing config factory).filter (hasKey key) =
      missing config (factory.filter (hasKey key)) := by
    unfold missing
    rw [List.filter_filter, List.filter_filter]
    exact List.filter_congr fun _ _ => Bool.and_comm _ _
  rw [hcomm, filter_hasKey hunique hline hkey]
  simp [missing, hkey, habsent]

theorem filter_missing_present (hpresent : present config key = true) :
    (missing config factory).filter (hasKey key) = [] := by
  rw [List.filter_eq_nil_iff]
  intro line hline hhas
  obtain ⟨-, other, hother, habsent⟩ := mem_missing.mp hline
  have hsame : other = key := by
    rw [show keyOf line = some key by simpa [hasKey] using hhas] at hother
    exact (Option.some.inj hother).symm
  rw [hsame, hpresent] at habsent
  cases habsent

end KeyFacts

section RewritingFacts

variable {line : Text} {key : Text} {legacy factory : List Text}

theorem keyOf_replaceDefault : keyOf (replaceDefault legacy factory line) = keyOf line := by
  unfold replaceDefault
  cases hkey : keyOf line with
  | none => exact hkey
  | some key =>
    dsimp only
    split
    · rename_i old new hold hnew
      split_ifs with hchange
      · exact (lineOf_mem hnew).2
      · exact hkey
    · exact hkey

theorem replaceDefault_or (legacy factory : List Text) (line : Text) :
    replaceDefault legacy factory line = line ∨
    ∃ key new, keyOf line = some key ∧ lineOf legacy key = some line ∧
      lineOf factory key = some new ∧ replaceDefault legacy factory line = new := by
  unfold replaceDefault
  cases hkey : keyOf line with
  | none => exact Or.inl rfl
  | some key =>
    dsimp only
    split
    · rename_i old new hold hnew
      split_ifs with hchange
      · exact Or.inr ⟨key, new, rfl, by rw [hold, hchange.1], hnew, rfl⟩
      · exact Or.inl rfl
    · exact Or.inl rfl

theorem replaceDefault_factory (hkey : keyOf line = some key)
    (hline : lineOf factory key = some line) : replaceDefault legacy factory line = line := by
  unfold replaceDefault
  rw [hkey]
  dsimp only
  rw [hline]
  split
  · rename_i old new hold hnew
    cases hnew
    exact if_neg fun h => h.2 rfl
  · rfl

theorem replaceDefault_idem : replaceDefault legacy factory (replaceDefault legacy factory line) =
    replaceDefault legacy factory line := by
  rcases replaceDefault_or legacy factory line with
    hsame | ⟨key, new, hkey, hold, hnew, heq⟩
  · rw [hsame, hsame]
  · rw [heq]
    exact replaceDefault_factory (lineOf_mem hnew).2 hnew

theorem keyOf_replaceMenu : keyOf (replaceMenu line) = keyOf line := by
  unfold replaceMenu
  split_ifs with hmenu hscreenshot
  · rw [hmenu]
    decide +kernel
  · rw [hscreenshot]
    decide +kernel
  · rfl

theorem replaceMenu_ne_oldMenu : replaceMenu line ≠ oldMenu := by
  unfold replaceMenu
  split_ifs with hmenu hscreenshot
  · decide +kernel
  · decide +kernel
  · exact hmenu

theorem keyOf_replaceAspect : keyOf (replaceAspect line) = keyOf line := by
  unfold replaceAspect
  split_ifs with haspect
  · rw [haspect]
    decide +kernel
  · rfl

theorem replaceAspect_ne_oldAspect : replaceAspect line ≠ oldAspect := by
  unfold replaceAspect
  split_ifs with haspect
  · decide +kernel
  · exact haspect

end RewritingFacts

end PlumosBubble.RetroArch
