import Mathlib.Data.Fintype.Card
import PlumosBubble.Ggfe.Library
import PlumosBubble.Ggfe.Scroll

/-! The labels of the cartridges: `ggfe_label_tex` keeps the last twelve in slots, and builds a
new one in place over the slot that was used longest ago. A texture is a slot; what it shows is
what the slot holds when it is sampled. -/

namespace PlumosBubble.Ggfe

open Frontend Function

/-- `GGFE_LABEL_CACHE`. -/
abbrev labelCache : ℕ := 12

/-- The values of an `unsigned long`. -/
def ulongSize : ℕ := 2 ^ 64

/-- `struct ggfe_label_slot`; `rgb` is `none` before its memory is there. -/
structure LabelSlot (Pixels : Type*) where
  entry : ℤ
  valid : Bool
  used : ℕ
  rgb : Option Pixels

/-- The fields of `struct ggfe_app` that the labels are kept in. -/
structure LabelApp (Pixels : Type*) where
  labels : Fin labelCache → LabelSlot Pixels
  labelTick : ℕ

/-- What labels are made of: the entries of the scan, the images in the files, and the functions
that tell the kind of an image and that draw. -/
structure LabelArt (Image Memory Pixels : Type*) where
  entries : ℤ → GgfeEntry
  image : CString → Image
  classifySize : Image → ArtKind
  labelBuild : Memory → Option Image → ArtKind → Pixels
  drawTitle : CString → Pixels → Pixels

/-- What a request is answered: whether there is memory for the slot, whether the image loads,
and the memory that the drawing has. -/
structure LabelAnswer (Memory : Type*) where
  allocates : Bool
  loads : Bool
  memory : Memory

/-- What the loop of `ggfe_label_tex` leaves. -/
inductive SlotFound where
  | hit (slot : Fin labelCache)
  | victim (slot : Fin labelCache)
  deriving DecidableEq

section Labels

variable {Image Memory Pixels : Type*} (art : LabelArt Image Memory Pixels)

/-- The label that is built for an entry. -/
def LabelArt.label (entry : ℤ) (a : LabelAnswer Memory) : Pixels :=
  let e := art.entries entry
  if e.art ≠ [] ∧ a.loads then
    let image := art.image e.art
    art.labelBuild a.memory (some image)
      (if e.kind = .unknown then art.classifySize image else e.kind)
  else art.drawTitle e.title (art.labelBuild a.memory none .boxart)

/-- The loop of `ggfe_label_tex` over the slots that are left. -/
def findSlot (labels : Fin labelCache → LabelSlot Pixels) (entry : ℤ) :
    List (Fin labelCache) → Fin labelCache → ℕ → SlotFound
  | [], victim, _ => .victim victim
  | i :: rest, victim, oldest =>
    if (labels i).valid ∧ (labels i).entry = entry then .hit i
    else if (labels i).valid = false then findSlot labels entry rest i 0
    else if (labels i).used < oldest then findSlot labels entry rest i (labels i).used
    else findSlot labels entry rest victim oldest

/-- `ggfe_label_tex`. -/
def labelTex (app : LabelApp Pixels) (entry : ℤ) (a : LabelAnswer Memory) :
    LabelApp Pixels × Option (Fin labelCache) :=
  let tick := (app.labelTick + 1) % ulongSize
  match findSlot app.labels entry (List.finRange labelCache) 0 (ulongSize - 1) with
  | .hit i => (⟨update app.labels i { app.labels i with used := tick }, tick⟩, some i)
  | .victim i =>
    if (app.labels i).rgb.isNone ∧ a.allocates = false then (app, none)
    else (⟨update app.labels i ⟨entry, true, tick, some (art.label entry a)⟩, tick⟩, some i)

/-- Requests one after another, with the textures that they return. -/
def labelTexs : LabelApp Pixels → List (ℤ × LabelAnswer Memory) →
    LabelApp Pixels × List (ℤ × Option (Fin labelCache))
  | app, [] => (app, [])
  | app, (entry, a) :: rest =>
    let (app, texture) := labelTex art app entry a
    let (app, textures) := labelTexs app rest
    (app, (entry, texture) :: textures)

/-- A picture of the label of an entry: its artwork, or its title if that did not load. -/
def LabelArt.Shows (entry : ℤ) (pixels : Pixels) : Prop := ∃ a, pixels = art.label entry a

/-- What is sampled from a slot is the label of the entry. -/
structure LabelApp.Samples (app : LabelApp Pixels) (entry : ℤ) (i : Fin labelCache) : Prop where
  valid : (app.labels i).valid = true
  same : (app.labels i).entry = entry
  shown : ∃ pixels, (app.labels i).rgb = some pixels ∧ art.Shows entry pixels

/-- At most one valid slot for each entry. -/
def LabelApp.OneSlot (app : LabelApp Pixels) : Prop :=
  ∀ i j, (app.labels i).valid = true → (app.labels j).valid = true →
    (app.labels i).entry = (app.labels j).entry → i = j

/-- What holds between any two requests. -/
structure LabelApp.Kept (app : LabelApp Pixels) : Prop where
  oneSlot : app.OneSlot
  samples : ∀ i, (app.labels i).valid = true → app.Samples art (app.labels i).entry i
  used : ∀ i, (app.labels i).used ≤ app.labelTick

variable {art}

theorem findSlot_hit {labels : Fin labelCache → LabelSlot Pixels} {entry : ℤ} {i : Fin labelCache} :
    ∀ {rest : List (Fin labelCache)} {victim : Fin labelCache} {oldest : ℕ},
      findSlot labels entry rest victim oldest = .hit i →
        (labels i).valid = true ∧ (labels i).entry = entry := by
  intro rest
  induction rest with
  | nil =>
    intro victim oldest h
    cases h
  | cons j rest ih =>
    intro victim oldest h
    rw [findSlot] at h
    split_ifs at h with hhit
    · cases h
      exact hhit
    all_goals exact ih h

/-- What the loop of `ggfe_label_tex` knows of the slots behind it. -/
def Oldest (labels : Fin labelCache → LabelSlot Pixels) (seen : Fin labelCache → Prop)
    (victim : Fin labelCache) (oldest : ℕ) : Prop :=
  (labels victim).valid = false ∧ oldest = 0 ∨
    (∀ i, seen i → (labels i).valid = true ∧ oldest ≤ (labels i).used) ∧
      ((labels victim).used ≤ oldest)

theorem findSlot_victim {labels : Fin labelCache → LabelSlot Pixels} {entry : ℤ}
    {i : Fin labelCache} :
    ∀ {rest : List (Fin labelCache)} {seen : Fin labelCache → Prop} {victim : Fin labelCache}
      {oldest : ℕ}, Oldest labels seen victim oldest →
      findSlot labels entry rest victim oldest = .victim i →
        (∀ j ∈ rest, (labels j).valid = true → (labels j).entry ≠ entry) ∧
          ∃ oldest', Oldest labels (fun j => seen j ∨ j ∈ rest) i oldest' := by
  intro rest
  induction rest with
  | nil =>
    intro seen victim oldest hseen h
    cases h
    refine ⟨by simp, oldest, ?_⟩
    simpa [Oldest] using hseen
  | cons j rest ih =>
    intro seen victim oldest hseen h
    rw [findSlot] at h
    have hmem : ∀ {seen' : Fin labelCache → Prop} {victim' : Fin labelCache} {oldest' : ℕ},
        (∀ k, seen' k ↔ seen k ∨ k = j) → Oldest labels seen' victim' oldest' →
        findSlot labels entry rest victim' oldest' = .victim i →
          (∀ k ∈ j :: rest, (labels k).valid = true → (labels k).entry ≠ entry) ∧
            ∃ oldest', Oldest labels (fun k => seen k ∨ k ∈ j :: rest) i oldest' := by
      intro seen' victim' oldest' hseen' hold hfound
      obtain ⟨hrest, oldest'', hold'⟩ := ih hold hfound
      refine ⟨?_, oldest'', ?_⟩
      · intro k hk hvalid
        rcases List.mem_cons.mp hk with rfl | hk
        · intro hentry
          rw [if_pos ⟨hvalid, hentry⟩] at h
          cases h
        · exact hrest k hk hvalid
      · have hsame : (fun k => seen' k ∨ k ∈ rest) = fun k => seen k ∨ k ∈ j :: rest := by
          funext k
          rw [hseen' k, List.mem_cons, or_assoc]
        rwa [hsame] at hold'
    split_ifs at h with hhit hvalid hless
    · exact hmem (fun k => Iff.rfl) (Or.inl ⟨hvalid, rfl⟩) h
    · rcases hseen with ⟨-, rfl⟩ | ⟨hseen, -⟩
      · omega
      · refine hmem (fun k => Iff.rfl) (Or.inr ⟨?_, le_rfl⟩) h
        rintro k (hk | rfl)
        · exact ⟨(hseen k hk).1, hless.le.trans (hseen k hk).2⟩
        · exact ⟨by simpa using hvalid, le_rfl⟩
    · refine hmem (fun k => Iff.rfl) ?_ h
      rcases hseen with hinvalid | ⟨hseen, hvictim⟩
      · exact Or.inl hinvalid
      · refine Or.inr ⟨?_, hvictim⟩
        rintro k (hk | rfl)
        · exact hseen k hk
        · exact ⟨by simpa using hvalid, by omega⟩

/-- What a request does: nothing where memory is missing, and else a slot is used for the entry,
its own one, or one that was free, or of all of them the one used longest ago. -/
structure Uses (art : LabelArt Image Memory Pixels) (app app' : LabelApp Pixels) (entry : ℤ)
    (i : Fin labelCache) : Prop where
  samples : app'.Samples art entry i
  used : (app'.labels i).used = app'.labelTick
  tick : app'.labelTick = app.labelTick + 1
  others : ∀ j, j ≠ i → app'.labels j = app.labels j
  choice : (app.labels i).valid = true ∧ (app.labels i).entry = entry ∨
    (∀ j, (app.labels j).valid = true → (app.labels j).entry ≠ entry) ∧
      ((app.labels i).valid = false ∨
        ∀ j, (app.labels j).valid = true ∧ (app.labels i).used ≤ (app.labels j).used)

theorem labelTex_cases {app : LabelApp Pixels} (hkept : app.Kept art)
    (htick : app.labelTick + 1 < ulongSize) (entry : ℤ) (a : LabelAnswer Memory) :
    (labelTex art app entry a = (app, none) ∧ a.allocates = false) ∨
      ∃ i, (labelTex art app entry a).2 = some i ∧
        Uses art app (labelTex art app entry a).1 entry i := by
  have hnext : (app.labelTick + 1) % ulongSize = app.labelTick + 1 := Nat.mod_eq_of_lt htick
  unfold labelTex
  rw [hnext]
  cases hfound : findSlot app.labels entry (List.finRange labelCache) 0 (ulongSize - 1) with
  | hit i =>
    obtain ⟨hvalid, hentry⟩ := findSlot_hit hfound
    obtain ⟨-, -, pixels, hrgb, hshows⟩ := hkept.samples i hvalid
    refine Or.inr ⟨i, rfl, ⟨?_, ?_, pixels, ?_, hentry ▸ hshows⟩, ?_, rfl, ?_,
      Or.inl ⟨hvalid, hentry⟩⟩
    · simp only [update_self, hvalid]
    · simp only [update_self, hentry]
    · simp only [update_self, hrgb]
    · simp only [update_self]
    · intro j hj
      exact update_of_ne hj _ _
  | victim i =>
    have hstart : Oldest app.labels (fun _ => False) 0 (ulongSize - 1) := by
      refine Or.inr ⟨fun j hj => hj.elim, ?_⟩
      have hused := hkept.used 0
      omega
    obtain ⟨hnone, oldest, hold⟩ := findSlot_victim hstart hfound
    dsimp only
    by_cases hmemory : (app.labels i).rgb.isNone ∧ a.allocates = false
    · rw [if_pos hmemory]
      exact Or.inl ⟨rfl, hmemory.2⟩
    · rw [if_neg hmemory]
      refine Or.inr ⟨i, rfl, ⟨?_, ?_, art.label entry a, ?_, a, rfl⟩, ?_, rfl, ?_, Or.inr ⟨?_, ?_⟩⟩
      · simp only [update_self]
      · simp only [update_self]
      · simp only [update_self]
      · simp only [update_self]
      · intro j hj
        exact update_of_ne hj _ _
      · exact fun j => hnone j (List.mem_finRange j)
      · rcases hold with ⟨hinvalid, -⟩ | ⟨hall, hused⟩
        · exact Or.inl hinvalid
        · refine Or.inr fun j => ?_
          obtain ⟨hvalid, hle⟩ := hall j (Or.inr (List.mem_finRange j))
          exact ⟨hvalid, hused.trans hle⟩

theorem Uses.kept {app app' : LabelApp Pixels} {entry : ℤ} {i : Fin labelCache}
    (h : Uses art app app' entry i) (hkept : app.Kept art) : app'.Kept art := by
  have hfresh : ∀ j, j ≠ i → (app'.labels j).valid = true → (app'.labels j).entry ≠ entry := by
    intro j hj hvalid hentry
    rw [h.others j hj] at hvalid hentry
    rcases h.choice with ⟨hvalid', hentry'⟩ | ⟨hnone, -⟩
    · exact hj (hkept.oneSlot j i hvalid hvalid' (hentry.trans hentry'.symm))
    · exact hnone j hvalid hentry
  constructor
  · intro j k hj hk hsame
    by_cases hji : j = i
    · by_contra hne
      subst hji
      exact hfresh k (Ne.symm hne) hk (hsame.symm.trans h.samples.same)
    · by_cases hki : k = i
      · subst hki
        exact absurd (hsame.trans h.samples.same) (hfresh j hji hj)
      · rw [h.others j hji, h.others k hki] at hsame
        rw [h.others j hji] at hj
        rw [h.others k hki] at hk
        exact hkept.oneSlot j k hj hk hsame
  · intro j hj
    by_cases hji : j = i
    · subst hji
      rw [h.samples.same]
      exact h.samples
    · rw [h.others j hji] at hj ⊢
      obtain ⟨-, -, hshown⟩ := hkept.samples j hj
      refine ⟨?_, ?_, ?_⟩ <;> rw [h.others j hji]
      · exact hj
      · exact hshown
  · intro j
    by_cases hji : j = i
    · subst hji
      exact h.used.le
    · rw [h.others j hji, h.tick]
      exact (hkept.used j).trans (Nat.le_succ _)

theorem LabelApp.Kept.labelTex {app : LabelApp Pixels} (hkept : app.Kept art)
    (htick : app.labelTick + 1 < ulongSize) (entry : ℤ) (a : LabelAnswer Memory) :
    (labelTex art app entry a).1.Kept art ∧
      (labelTex art app entry a).1.labelTick ≤ app.labelTick + 1 := by
  rcases labelTex_cases hkept htick entry a with ⟨hsame, -⟩ | ⟨i, -, huses⟩
  · rw [hsame]
    exact ⟨hkept, Nat.le_succ _⟩
  · exact ⟨huses.kept hkept, huses.tick.le⟩

theorem LabelApp.Kept.labelTexs {reqs : List (ℤ × LabelAnswer Memory)} :
    ∀ {app : LabelApp Pixels}, app.Kept art → app.labelTick + reqs.length < ulongSize →
      (labelTexs art app reqs).1.Kept art ∧
        (labelTexs art app reqs).1.labelTick ≤ app.labelTick + reqs.length := by
  induction reqs with
  | nil => exact fun hkept _ => ⟨hkept, le_rfl⟩
  | cons req rest ih =>
    intro app hkept hticks
    obtain ⟨entry, a⟩ := req
    rw [List.length_cons] at hticks
    obtain ⟨hnext, htick⟩ := hkept.labelTex (by omega) entry a
    obtain ⟨hlast, hticks'⟩ := ih hnext (by omega)
    refine ⟨hlast, hticks'.trans ?_⟩
    rw [List.length_cons]
    omega

theorem labelTexs_append (app : LabelApp Pixels) (before after : List (ℤ × LabelAnswer Memory)) :
    labelTexs art app (before ++ after) =
      ((labelTexs art (labelTexs art app before).1 after).1,
        (labelTexs art app before).2 ++ (labelTexs art (labelTexs art app before).1 after).2) := by
  induction before generalizing app with
  | nil => rfl
  | cons req rest ih =>
    obtain ⟨entry, a⟩ := req
    rw [List.cons_append, labelTexs]
    dsimp only
    rw [ih]
    rfl

/-- The slots that were used since the tick was `base` belong to entries of `all`. -/
def LabelApp.Recent (app : LabelApp Pixels) (base : ℕ) (all : Finset ℤ) : Prop :=
  ∀ i, (app.labels i).valid = true → base < (app.labels i).used → (app.labels i).entry ∈ all

theorem Uses.spares {app app' : LabelApp Pixels} {entry : ℤ} {i : Fin labelCache} {base : ℕ}
    {all : Finset ℤ} (h : Uses art app app' entry i) (hkept : app.Kept art)
    (hcard : all.card ≤ labelCache) (hrecent : app.Recent base all) (hentry : entry ∈ all)
    (hvalid : (app.labels i).valid = true) (hused : base < (app.labels i).used) :
    (app.labels i).entry = entry := by
  rcases h.choice with ⟨-, hsame⟩ | ⟨hnone, hinvalid | hall⟩
  · exact hsame
  · rw [hvalid] at hinvalid
    cases hinvalid
  · have hmaps : ∀ j ∈ Finset.univ, (app.labels j).entry ∈ all.erase entry := by
      intro j _
      obtain ⟨hj, hle⟩ := hall j
      exact Finset.mem_erase.mpr ⟨hnone j hj, hrecent j hj (hused.trans_le hle)⟩
    have hinj : Set.InjOn (fun j => (app.labels j).entry) (Finset.univ : Finset (Fin labelCache)) :=
      fun j _ k _ hsame => hkept.oneSlot j k (hall j).1 (hall k).1 hsame
    have hle := Finset.card_le_card_of_injOn _ hmaps hinj
    rw [Finset.card_fin, Finset.card_erase_of_mem hentry] at hle
    have hpos := Finset.card_pos.mpr ⟨entry, hentry⟩
    omega

/-- Over requests for no more entries than there are slots, each texture stays that of its
entry, those that were returned before and those that are returned meanwhile. -/
theorem labelTexs_stay {base : ℕ} {all : Finset ℤ} (hcard : all.card ≤ labelCache)
    {reqs : List (ℤ × LabelAnswer Memory)} :
    ∀ {app : LabelApp Pixels}, app.Kept art → app.labelTick + reqs.length < ulongSize →
      base ≤ app.labelTick → app.Recent base all → (∀ req ∈ reqs, req.1 ∈ all) →
      (∀ entry i, app.Samples art entry i → base < (app.labels i).used →
        (labelTexs art app reqs).1.Samples art entry i) ∧
      ∀ r ∈ (labelTexs art app reqs).2, ∀ i, r.2 = some i →
        (labelTexs art app reqs).1.Samples art r.1 i := by
  induction reqs with
  | nil => exact fun _ _ _ _ _ => ⟨fun _ _ h _ => h, fun r hr => by cases hr⟩
  | cons req rest ih =>
    intro app hkept hticks hbase hrecent hall
    obtain ⟨entry, a⟩ := req
    rw [List.length_cons] at hticks
    have hentry : entry ∈ all := hall (entry, a) List.mem_cons_self
    have hrest : ∀ req ∈ rest, req.1 ∈ all := fun req hreq => hall req (List.mem_cons_of_mem _ hreq)
    have hnext := (hkept.labelTex (by omega) entry a).1
    rw [labelTexs]
    rcases labelTex_cases hkept (by omega) entry a with ⟨hsame, -⟩ | ⟨i, hreturned, huses⟩
    · rw [hsame]
      obtain ⟨hstay, hmade⟩ := ih hkept (by omega) hbase hrecent hrest
      refine ⟨hstay, ?_⟩
      intro r hr i hi
      rcases List.mem_cons.mp hr with rfl | hr
      · cases hi
      · exact hmade r hr i hi
    · have hrecent' : (labelTex art app entry a).1.Recent base all := by
        intro j hj hused
        by_cases hji : j = i
        · rw [hji, huses.samples.same]
          exact hentry
        · rw [huses.others j hji] at hj hused ⊢
          exact hrecent j hj hused
      have htick := huses.tick
      obtain ⟨hstay, hmade⟩ := ih hnext (by omega) (by omega) hrecent' hrest
      have hown : base < ((labelTex art app entry a).1.labels i).used := by
        rw [huses.used]
        omega
      refine ⟨?_, ?_⟩
      · intro e j hsamples hused
        by_cases hji : j = i
        · subst hji
          have hspared := huses.spares hkept hcard hrecent hentry hsamples.valid hused
          have he : e = entry := hsamples.same.symm.trans hspared
          subst he
          exact hstay e j huses.samples hown
        · have hsame := huses.others j hji
          have hsamples' : (labelTex art app entry a).1.Samples art e j := by
            obtain ⟨hvalid, hentry', hshown⟩ := hsamples
            refine ⟨?_, ?_, ?_⟩ <;> rw [hsame]
            · exact hvalid
            · exact hentry'
            · exact hshown
          exact hstay e j hsamples' (by rw [hsame]; exact hused)
      · intro r hr j hj
        rcases List.mem_cons.mp hr with rfl | hr
        · rw [hreturned] at hj
          cases hj
          exact hstay entry i huses.samples hown
        · exact hmade r hr j hj

end Labels

end PlumosBubble.Ggfe
