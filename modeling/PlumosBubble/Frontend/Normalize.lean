import PlumosBubble.Frontend.CString
import PlumosBubble.Sequence.Climb
import PlumosBubble.Sequence.Separators

/-! How `plumos-frontend` normalizes the paths of a stock configuration, `normalize_path` and
`resolve_path` of `plumos_frontend.c`, and what the paths mean read segment by segment. The array
of segments has 256 places, and what finds none is dropped. -/

namespace PlumosBubble.Frontend

open Sequence (Climbing Place)

def dotdot : CString := [dot, dot]

/-- `tmp[0] == '/'`. -/
def isAbsolute (path : CString) : Bool := path.head? = some slash

/-- The segments that `normalize_path` stops at. -/
def segmentsOf (path : CString) : List CString :=
  (path.splitOn slash).filter fun start => start ≠ []

/-- `sizeof(segments) / sizeof(segments[0])`. -/
def maxSegments : ℕ := 256

/-- What a segment does to the stack, the last one pushed first. -/
def pushSegment (absolute : Bool) (stack : List CString) (start : CString) : List CString :=
  if start = [dot] then stack
  else if start = dotdot then
    match stack with
    | top :: rest =>
      if top ≠ dotdot then rest
      else if !absolute && stack.length < maxSegments then start :: stack
      else stack
    | [] => if !absolute && stack.length < maxSegments then start :: stack else stack
  else if stack.length < maxSegments then start :: stack
  else stack

/-- The loop that writes the segments. -/
def appendSegments (outSize : ℕ) (out : CString) : List CString → Option CString
  | [] => some out
  | start :: rest =>
    (appendString outSize out start).bind fun out =>
      rest.foldlM (fun out start =>
        (appendString outSize out [slash]).bind fun out => appendString outSize out start) out

/-- `normalize_path`, where it returns 1. -/
def normalizePath (outSize : ℕ) (path : CString) : Option CString :=
  if path = [] then none
  else
    (copyString pathMax path).bind fun tmp =>
      let absolute := isAbsolute tmp
      let stack := (segmentsOf tmp).foldl (pushSegment absolute) []
      (if absolute then appendString outSize [] [slash] else some []).bind fun out =>
        if stack ≠ [] then appendSegments outSize out stack.reverse
        else if !absolute then copyString outSize [dot]
        else some out

/-- The path that `resolve_path` normalizes. -/
def meantPath (baseDir path : CString) : CString :=
  if isAbsolute path then path else baseDir ++ slash :: path

/-- `resolve_path`, where it returns 1. -/
def resolvePath (outSize : ℕ) (baseDir path : CString) : Option CString :=
  if path = [] then none
  else if isAbsolute path then normalizePath outSize path
  else (copyString pathMax (baseDir ++ slash :: path)).bind fun joined =>
    normalizePath outSize joined

/-- How the segments of a path are read. -/
def reading (absolute : Bool) : Climbing CString where
  up := dotdot
  idle start := start = [] || start = [dot]
  rooted := absolute
  idle_up := by decide

/-- The path of some segments. -/
def pathText (absolute : Bool) (segments : List CString) : CString :=
  if absolute then slash :: [slash].intercalate segments
  else if segments = [] then [dot]
  else [slash].intercalate segments

/-- What is left of a path without `.`, empty segments and `x/..`, and without `..` at the
root. -/
def IsLexicalForm (path out : CString) : Prop :=
  ∃ segments, (reading (isAbsolute path)).IsNormalForm (path.splitOn slash) segments ∧
    out = pathText (isAbsolute path) segments

/-- The path is normalized to its lexical form, which stays as it is. -/
def NormalizesRight (path : CString) : Prop :=
  ∃ out, normalizePath pathMax path = some out ∧ IsLexicalForm path out ∧
    normalizePath pathMax out = some out

/-- Since a path was last at the root, or at 256 times `..` if it is relative, it has been more
than 256 segments deep. -/
def TooDeep (path : CString) : Prop :=
  (reading (isAbsolute path)).Deep maxSegments (path.splitOn slash)

section Stack

variable {absolute : Bool} {p : Place CString}

theorem reading_up : (reading absolute).up = dotdot := rfl

theorem reading_idle (start : CString) :
    (reading absolute).idle start = true ↔ start = [] ∨ start = [dot] := by
  simp [reading]

theorem pushSegment_stack (hp : (reading absolute).Proper p) {start : CString}
    (hne : start ≠ []) :
    pushSegment absolute (p.stack dotdot) start =
      ((reading absolute).step (fun depth => depth < maxSegments) p start).stack dotdot := by
  unfold pushSegment
  have hlength := p.length_stack dotdot
  by_cases hdot : start = [dot]
  · rw [if_pos hdot, Climbing.step_idle ((reading_idle start).mpr (Or.inr hdot))]
  have hidle : (reading absolute).idle start = false := by
    rw [← Bool.not_eq_true, reading_idle]
    exact fun h => h.elim hne hdot
  rw [if_neg hdot]
  obtain ⟨ups, names⟩ := p
  by_cases hup : start = dotdot
  · rw [if_pos hup, hup]
    cases names with
    | cons name names =>
      have hname : name ≠ dotdot := (hp.1 name List.mem_cons_self).2
      have hstep := Climbing.step_up_cons (c := reading absolute)
        (fun depth => depth < maxSegments) ups name names
      rw [reading_up] at hstep
      rw [hstep]
      simp only [Place.stack, List.cons_append, ne_eq, hname, not_false_eq_true, if_true]
    | nil =>
      have hstep := Climbing.step_up_nil (c := reading absolute)
        (fun depth => depth < maxSegments) ups
      rw [reading_up] at hstep
      have hrooted : (reading absolute).rooted = absolute := rfl
      have hstack : (Place.mk ups ([] : List CString)).stack dotdot =
          List.replicate ups dotdot := rfl
      have hroom : (List.replicate ups dotdot).length = ups := List.length_replicate
      rw [hstep, hrooted, hstack]
      have hpush : (if !absolute && decide ((List.replicate ups dotdot).length < maxSegments) then
          dotdot :: List.replicate ups dotdot else List.replicate ups dotdot) =
            Place.stack dotdot (if !absolute && decide (ups < maxSegments) then ⟨ups + 1, []⟩
              else ⟨ups, []⟩) := by
        rw [hroom]
        split
        · rfl
        · rfl
      rw [← hpush]
      cases ups with
      | zero => rfl
      | succ ups =>
        simp only [List.replicate_succ, ne_eq, not_true, if_false]
  · rw [if_neg hup, Climbing.step_name hidle hup, hlength]
    unfold Place.depth
    by_cases hfull : ups + names.length < maxSegments
    · rw [if_pos hfull, if_pos (by simpa using hfull)]
      rfl
    · rw [if_neg hfull, if_neg (by simpa using hfull)]

theorem foldl_pushSegment (path : CString) :
    (segmentsOf path).foldl (pushSegment absolute) [] =
      ((reading absolute).placeWithin maxSegments (path.splitOn slash)).stack dotdot := by
  have hall : ∀ pieces : List CString,
      (pieces.filter fun start => start ≠ []).foldl (pushSegment absolute) [] =
        ((reading absolute).placeWithin maxSegments pieces).stack dotdot := by
    intro pieces
    induction pieces using List.reverseRecOn with
    | nil => rfl
    | append_singleton pieces start ih =>
      have hstep : (reading absolute).placeWithin maxSegments (pieces ++ [start]) =
          (reading absolute).step (fun depth => depth < maxSegments)
            ((reading absolute).placeWithin maxSegments pieces) start :=
        Climbing.placeIn_append pieces start
      rw [List.filter_append, List.foldl_append, ih, hstep]
      by_cases hne : start = []
      · rw [Climbing.step_idle ((reading_idle start).mpr (Or.inl hne)), hne]
        rfl
      · have hproper : (reading absolute).Proper
            ((reading absolute).placeWithin maxSegments pieces) := Climbing.proper_placeIn pieces
        rw [← pushSegment_stack hproper hne]
        simp [hne]
  exact hall _

end Stack

section Text

variable {size : ℕ} {absolute : Bool}

theorem intercalate_slash (first : CString) (rest : List CString) :
    [slash].intercalate (first :: rest) = first ++ rest.flatMap fun s => slash :: s := by
  induction rest generalizing first with
  | nil => simp [List.intercalate_singleton]
  | cons second rest ih =>
    rw [List.intercalate_cons_cons, ih second]
    simp

/-- The room that a segment takes with its `/`. -/
def roomFor (s : CString) : ℕ := s.length + 1

theorem length_intercalate_slash {segments : List CString} (hne : segments ≠ []) :
    ([slash].intercalate segments).length + 1 =
      (segments.map roomFor).sum := by
  obtain ⟨first, rest, rfl⟩ := List.exists_cons_of_ne_nil hne
  rw [intercalate_slash, List.length_append, List.length_flatMap, List.map_cons, List.sum_cons]
  exact Nat.add_right_comm _ _ _

theorem foldlM_appendSegment {out : CString} {rest : List CString}
    (h : (out ++ rest.flatMap fun s => slash :: s).length + 1 ≤ size) :
    (rest.foldlM (fun out start =>
      (appendString size out [slash]).bind fun out => appendString size out start) out) =
        some (out ++ rest.flatMap fun s => slash :: s) := by
  induction rest generalizing out with
  | nil => simp
  | cons start rest ih =>
    rw [List.flatMap_cons] at h ⊢
    have hroom : (out ++ [slash] ++ start ++ rest.flatMap fun s => slash :: s).length + 1 ≤
        size := by
      simpa using h
    have hfirst : appendString size out [slash] = some (out ++ [slash]) := by
      unfold appendString
      rw [if_pos]
      simp only [List.length_append, List.length_singleton] at hroom ⊢
      omega
    have hsecond : appendString size (out ++ [slash]) start = some (out ++ [slash] ++ start) := by
      unfold appendString
      rw [if_pos]
      simp only [List.length_append, List.length_singleton] at hroom ⊢
      omega
    rw [List.foldlM_cons, hfirst, Option.bind_some, hsecond]
    show List.foldlM _ _ rest = _
    rw [ih hroom]
    simp

theorem appendSegments_eq {out : CString} {segments : List CString}
    (h : (out ++ [slash].intercalate segments).length + 1 ≤ size) :
    appendSegments size out segments = some (out ++ [slash].intercalate segments) := by
  cases segments with
  | nil => simp [appendSegments]
  | cons first rest =>
    rw [intercalate_slash, ← List.append_assoc] at h ⊢
    have hfirst : appendString size out first = some (out ++ first) := by
      unfold appendString
      rw [if_pos]
      simp only [List.length_append] at h ⊢
      omega
    show (appendString size out first).bind _ = _
    rw [hfirst, Option.bind_some, foldlM_appendSegment h]

/-- Segments without a `/` in them, none of them empty. -/
def Segments (segments : List CString) : Prop := ∀ s ∈ segments, s ≠ [] ∧ slash ∉ s

theorem splitOn_intercalate {segments : List CString} (h : Segments segments)
    (hne : segments ≠ []) : ([slash].intercalate segments).splitOn slash = segments :=
  List.splitOn_intercalate slash (fun s hs => (h s hs).2) hne

/-- A path that starts with a `/` is an empty piece and the pieces of the rest. -/
theorem splitOn_absolute (s : CString) : (slash :: s).splitOn slash = [] :: s.splitOn slash :=
  Sequence.splitOn_separated List.not_mem_nil s

theorem placeIn_pathText (room : ℕ → Bool) {segments : List CString} (h : Segments segments) :
    (reading absolute).placeIn room ((pathText absolute segments).splitOn slash) =
      (reading absolute).placeIn room segments := by
  have hempty : ∀ p, (reading absolute).step room p [] = p :=
    fun p => Climbing.step_idle ((reading_idle []).mpr (Or.inl rfl))
  have hdot : ∀ p, (reading absolute).step room p [dot] = p :=
    fun p => Climbing.step_idle ((reading_idle [dot]).mpr (Or.inr rfl))
  unfold pathText
  by_cases hne : segments = []
  · subst hne
    cases absolute with
    | true =>
      rw [if_pos rfl, splitOn_absolute]
      simp [Climbing.placeIn, hempty]
    | false =>
      rw [if_neg Bool.false_ne_true, if_pos rfl, List.splitOn_eq_singleton (by decide)]
      simp [Climbing.placeIn, hdot]
  · rw [if_neg hne]
    split
    · rw [splitOn_absolute, splitOn_intercalate h hne]
      unfold Climbing.placeIn
      rw [List.foldl_cons, hempty]
    · rw [splitOn_intercalate h hne]

theorem isAbsolute_pathText {segments : List CString} (h : Segments segments) :
    isAbsolute (pathText absolute segments) = absolute := by
  unfold pathText isAbsolute
  cases absolute with
  | true => simp
  | false =>
    rw [if_neg Bool.false_ne_true]
    cases segments with
    | nil => decide
    | cons first rest =>
      obtain ⟨hne, hslash⟩ := h first List.mem_cons_self
      obtain ⟨c, first, rfl⟩ := List.exists_cons_of_ne_nil hne
      rw [if_neg (List.cons_ne_nil _ _), intercalate_slash]
      have hc : c ≠ slash := by
        rintro rfl
        exact hslash List.mem_cons_self
      simp [hc]

theorem pathText_ne_nil {segments : List CString} (h : Segments segments) :
    pathText absolute segments ≠ [] := by
  unfold pathText
  split
  · exact List.cons_ne_nil _ _
  · split
    · exact List.cons_ne_nil _ _
    · rename_i hne
      obtain ⟨first, rest, rfl⟩ := List.exists_cons_of_ne_nil hne
      rw [intercalate_slash]
      exact List.append_ne_nil_of_left_ne_nil (h first List.mem_cons_self).1 _

end Text

section Normal

variable {path : CString}

theorem segments_way (room : ℕ → Bool) (absolute : Bool) (path : CString) :
    Segments ((reading absolute).way ((reading absolute).placeIn room (path.splitOn slash))) := by
  intro s hs
  have hproper := @Climbing.proper_placeIn _ (reading absolute) _ room (path.splitOn slash)
  rw [Climbing.way_eq] at hs
  rcases List.mem_append.mp hs with hs | hs
  · rw [List.eq_of_mem_replicate hs, reading_up]
    exact ⟨by decide, by decide⟩
  · have hname := List.mem_reverse.mp hs
    refine ⟨?_, Sequence.not_mem_of_mem_splitOn (Climbing.mem_names_placeIn hname)⟩
    rintro rfl
    have hidle := (hproper.1 [] hname).1
    rw [(reading_idle []).mpr (Or.inl rfl)] at hidle
    cases hidle

theorem length_pathText_le (hne : path ≠ []) (room : ℕ → Bool) :
    (pathText (isAbsolute path) ((reading (isAbsolute path)).way
      ((reading (isAbsolute path)).placeIn room (path.splitOn slash)))).length ≤ path.length := by
  have hpieces : path.length + 1 = ((path.splitOn slash).map roomFor).sum := by
    rw [← length_intercalate_slash (List.splitOn_ne_nil _ _), List.intercalate_splitOn]
  have hweigh : ∀ (absolute : Bool) (pieces : List CString),
      (((reading absolute).way ((reading absolute).placeIn room pieces)).map
        roomFor).sum ≤ (pieces.map roomFor).sum := by
    intro absolute pieces
    have hweight := @Climbing.weight_placeIn _ (reading absolute) _ room roomFor pieces
    unfold Climbing.way
    rwa [List.map_reverse, List.sum_reverse]
  unfold pathText
  cases habs : isAbsolute path with
  | true =>
    obtain ⟨c, rest, rfl⟩ := List.exists_cons_of_ne_nil hne
    obtain rfl : c = slash := by simpa [isAbsolute] using habs
    have hempty : ∀ p, (reading true).step room p [] = p :=
      fun p => Climbing.step_idle ((reading_idle []).mpr (Or.inl rfl))
    have hskip : (reading true).placeIn room ((slash :: rest).splitOn slash) =
        (reading true).placeIn room (rest.splitOn slash) := by
      rw [splitOn_absolute]
      unfold Climbing.placeIn
      rw [List.foldl_cons, hempty]
    rw [splitOn_absolute, List.map_cons, List.sum_cons] at hpieces
    rw [if_pos rfl, hskip]
    have hsum := hweigh true (rest.splitOn slash)
    generalize (reading true).way ((reading true).placeIn room (rest.splitOn slash)) = kept
      at hsum ⊢
    by_cases hkept : kept = []
    · rw [hkept]
      exact Nat.succ_le_succ (Nat.zero_le _)
    · have hlength := length_intercalate_slash hkept
      have hroom : roomFor [] = 1 := rfl
      simp only [List.length_cons] at hpieces ⊢
      omega
  | false =>
    have hsum := hweigh false (path.splitOn slash)
    rw [if_neg Bool.false_ne_true]
    generalize (reading false).way ((reading false).placeIn room (path.splitOn slash)) = kept
      at hsum ⊢
    split
    · exact List.length_pos_iff.mpr hne
    · rename_i hkept
      have hlength := length_intercalate_slash hkept
      omega

theorem normalizePath_eq (hne : path ≠ []) (hfits : path.length < pathMax) :
    normalizePath pathMax path = some (pathText (isAbsolute path)
      ((reading (isAbsolute path)).way
        ((reading (isAbsolute path)).placeWithin maxSegments (path.splitOn slash)))) := by
  have hcopy : copyString pathMax path = some path := copyString_eq_some.mpr ⟨rfl, hfits⟩
  have hlength := length_pathText_le hne fun depth => depth < maxSegments
  unfold normalizePath
  rw [if_neg hne, hcopy, Option.bind_some]
  simp only [foldl_pushSegment]
  change (pathText (isAbsolute path) ((reading (isAbsolute path)).way
    ((reading (isAbsolute path)).placeWithin maxSegments (path.splitOn slash)))).length ≤ _
    at hlength
  generalize hplace : (reading (isAbsolute path)).placeWithin maxSegments (path.splitOn slash) =
    p at hlength ⊢
  have hreverse : (p.stack dotdot).reverse = (reading (isAbsolute path)).way p := rfl
  have hempty : p.stack dotdot = [] ↔ (reading (isAbsolute path)).way p = [] := by
    rw [← hreverse, List.reverse_eq_nil_iff]
  rw [hreverse]
  simp only [ne_eq, hempty]
  generalize (reading (isAbsolute path)).way p = kept at hlength ⊢
  unfold pathText at hlength ⊢
  cases habs : isAbsolute path with
  | true =>
    rw [habs, if_pos rfl] at hlength
    have hroot : appendString pathMax [] [slash] = some [slash] := by decide
    rw [if_pos rfl, hroot, Option.bind_some, if_pos rfl]
    by_cases hkept : kept = []
    · simp [hkept]
    · rw [if_pos hkept, appendSegments_eq]
      · rfl
      · simp only [List.length_cons, List.singleton_append] at hlength ⊢
        omega
  | false =>
    rw [habs, if_neg Bool.false_ne_true] at hlength
    rw [if_neg Bool.false_ne_true, Option.bind_some, if_neg Bool.false_ne_true]
    by_cases hkept : kept = []
    · rw [if_neg (not_not_intro hkept), if_pos hkept]
      have hdot : copyString pathMax [dot] = some [dot] := by decide
      exact hdot
    · rw [if_neg hkept] at hlength
      rw [if_pos hkept, if_neg hkept, appendSegments_eq]
      · rfl
      · rw [List.nil_append]
        omega

theorem isLexicalForm_iff {out : CString} : IsLexicalForm path out ↔
    out = pathText (isAbsolute path) ((reading (isAbsolute path)).way
      ((reading (isAbsolute path)).place (path.splitOn slash))) := by
  unfold IsLexicalForm
  constructor
  · rintro ⟨segments, hnormal, rfl⟩
    rw [Climbing.isNormalForm_iff.mp hnormal]
  · rintro rfl
    exact ⟨_, Climbing.isNormalForm_place _, rfl⟩

theorem way_eq_of_pathText {absolute : Bool} {segments segments' : List CString}
    (h : Segments segments) (h' : Segments segments')
    (hsettled : (reading absolute).Settled segments)
    (hsettled' : (reading absolute).Settled segments')
    (htext : pathText absolute segments = pathText absolute segments') :
    segments = segments' := by
  have hplace := @placeIn_pathText absolute (fun _ => true) segments h
  rw [htext, placeIn_pathText _ h'] at hplace
  have hway := congrArg (reading absolute).way hplace
  have hleft := Climbing.way_place hsettled
  have hright := Climbing.way_place hsettled'
  unfold Climbing.place at hleft hright
  rw [hleft, hright] at hway
  exact hway.symm

theorem normalizePath_lexical_iff (hne : path ≠ []) (hfits : path.length < pathMax) :
    (∀ out, normalizePath pathMax path = some out → IsLexicalForm path out) ↔
      ¬TooDeep path := by
  have hwithin := normalizePath_eq hne hfits
  unfold TooDeep
  rw [← Climbing.placeWithin_eq_iff]
  constructor
  · intro h
    have hlexical := isLexicalForm_iff.mp (h _ hwithin)
    have hway := way_eq_of_pathText (segments_way _ _ path) (segments_way _ _ path)
      (Climbing.settled_way (Climbing.proper_placeIn _))
      (Climbing.settled_way (Climbing.proper_placeIn _)) hlexical
    have hplace := congrArg (reading (isAbsolute path)).place hway
    rwa [Climbing.place_way (Climbing.proper_placeIn _),
      Climbing.place_way (Climbing.proper_placeIn _)] at hplace
  · intro hplace out hout
    rw [hwithin, Option.some.injEq] at hout
    rw [isLexicalForm_iff, ← hout, hplace]

theorem normalizesRight_iff (hne : path ≠ []) (hfits : path.length < pathMax) :
    NormalizesRight path ↔ ¬TooDeep path := by
  have hwithin := normalizePath_eq hne hfits
  unfold NormalizesRight TooDeep
  constructor
  · rintro ⟨out, hout, hlexical, -⟩
    refine (normalizePath_lexical_iff hne hfits).mp fun out' hout' => ?_
    rw [hout, Option.some.injEq] at hout'
    rwa [← hout']
  · intro hdeep
    have hcases := @Climbing.placeWithin_cases _ (reading (isAbsolute path)) _ maxSegments
      (path.splitOn slash)
    obtain ⟨-, hplace, hdepth⟩ := hcases.resolve_right fun h => hdeep h.1
    have hsegments := segments_way (fun _ => true) (isAbsolute path) path
    have hproper := @Climbing.proper_placeIn _ (reading (isAbsolute path)) _ (fun _ => true)
      (path.splitOn slash)
    have hlength := length_pathText_le hne fun _ => true
    rw [hplace] at hwithin
    refine ⟨_, hwithin, isLexicalForm_iff.mpr rfl, ?_⟩
    change Segments ((reading (isAbsolute path)).way ((reading (isAbsolute path)).place
      (path.splitOn slash))) at hsegments
    change (reading (isAbsolute path)).Proper ((reading (isAbsolute path)).place
      (path.splitOn slash)) at hproper
    change (pathText _ ((reading (isAbsolute path)).way ((reading (isAbsolute path)).place
      (path.splitOn slash)))).length ≤ _ at hlength
    generalize (reading (isAbsolute path)).place (path.splitOn slash) = p
      at hsegments hproper hdepth hlength ⊢
    generalize isAbsolute path = absolute at hsegments hproper hlength ⊢
    have habs := @isAbsolute_pathText absolute _ hsegments
    rw [normalizePath_eq (pathText_ne_nil hsegments) (by omega), habs]
    have hsame := @placeIn_pathText absolute (fun depth => depth < maxSegments) _ hsegments
    unfold Climbing.placeWithin
    rw [hsame]
    have hstack : ((reading absolute).way p).length ≤ maxSegments := by
      unfold Climbing.way
      rw [List.length_reverse, Place.length_stack]
      exact hdepth
    have hkept : (reading absolute).placeWithin maxSegments ((reading absolute).way p) =
        (reading absolute).place ((reading absolute).way p) :=
      (Climbing.placeWithin_eq_iff _ _).mpr (Climbing.not_deep_of_length hstack)
    unfold Climbing.placeWithin at hkept
    rw [hkept, Climbing.place_way hproper]

end Normal

theorem resolvePath_eq {baseDir path : CString} (hne : path ≠ []) :
    resolvePath pathMax baseDir path =
      if (meantPath baseDir path).length < pathMax then
        normalizePath pathMax (meantPath baseDir path) else none := by
  unfold resolvePath meantPath
  rw [if_neg hne]
  split
  · split
    · rfl
    · rename_i hlong
      unfold normalizePath copyString
      rw [if_neg hne, if_neg (by omega)]
      rfl
  · unfold copyString
    simp only [Nat.succ_le_iff]
    split
    · rfl
    · rfl

/-- A path that is resolved is resolved to what it means. -/
def ResolvesRight (baseDir path : CString) : Prop :=
  ∀ out, resolvePath pathMax baseDir path = some out → IsLexicalForm (meantPath baseDir path) out

theorem resolvesRight_iff (baseDir path : CString) :
    ResolvesRight baseDir path ↔
      (path ≠ [] → (meantPath baseDir path).length < pathMax →
        ¬TooDeep (meantPath baseDir path)) := by
  unfold ResolvesRight
  by_cases hne : path = []
  · simp [hne, resolvePath]
  rw [resolvePath_eq hne]
  by_cases hfits : (meantPath baseDir path).length < pathMax
  · have hmeant : meantPath baseDir path ≠ [] := by
      unfold meantPath
      split
      · exact hne
      · simp
    rw [if_pos hfits, normalizePath_lexical_iff hmeant hfits]
    exact ⟨fun h _ _ => h, fun h => h hne hfits⟩
  · simp [hfits]

/-- A path is normalized to its lexical form, and resolved to what it means, if and only if it
has not been too deep. -/
theorem lexical_meaning_iff (baseDir path : CString) :
    (path ≠ [] → path.length < pathMax → (NormalizesRight path ↔ ¬TooDeep path)) ∧
      (ResolvesRight baseDir path ↔
        (path ≠ [] → (meantPath baseDir path).length < pathMax →
          ¬TooDeep (meantPath baseDir path))) :=
  ⟨fun hne hfits => normalizesRight_iff hne hfits, resolvesRight_iff baseDir path⟩

/-- `/a/a/…/a/b` with 256 times `a`. -/
def deepPath : CString := (List.replicate maxSegments [slash, 0x61]).flatten ++ [slash, 0x62]

/-- The last segment is lost. -/
theorem deep_segment_lost :
    deepPath.length < pathMax ∧ ¬NormalizesRight deepPath := by
  have hfits : deepPath.length < pathMax := by decide +kernel
  have hne : deepPath ≠ [] := by decide +kernel
  have hdepth : ((reading (isAbsolute deepPath)).place (deepPath.splitOn slash)).depth = 257 := by
    decide +kernel
  refine ⟨hfits, fun h => (normalizesRight_iff hne hfits).mp h ?_⟩
  refine ⟨deepPath.splitOn slash, [], (List.append_nil _).symm, by rw [hdepth]; decide, ?_⟩
  intro mid rest hrest hbottom
  obtain ⟨rfl, -⟩ := List.append_eq_nil_iff.mp hrest.symm
  rw [List.append_nil] at hbottom
  rw [hbottom] at hdepth
  revert hdepth
  decide +kernel

theorem lexical_meaning_iff_sample :
    (NormalizesRight (lit "a/../b") ↔ ¬TooDeep (lit "a/../b")) ∧
      (ResolvesRight (lit "/sd/Emu/GG") (lit "../../Roms/./GG") ↔
        (lit "../../Roms/./GG" ≠ [] → (meantPath (lit "/sd/Emu/GG")
          (lit "../../Roms/./GG")).length < pathMax →
            ¬TooDeep (meantPath (lit "/sd/Emu/GG") (lit "../../Roms/./GG")))) :=
  ⟨(lexical_meaning_iff [] _).1 (by decide +kernel) (by decide +kernel),
    (lexical_meaning_iff _ _).2⟩

end PlumosBubble.Frontend
