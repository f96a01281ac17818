import PlumosBubble.Storage.Card
import PlumosBubble.Transition.Run

/-! What provisioning may do to a card over any sequence of boots that stop anywhere. Every
run of a tool is on record with the card before it; the record says what was formatted and
what became of the partitions. -/

namespace PlumosBubble.Storage

open Scripts Transition
open Update (Text)

variable {Bytes : Type} {tools : Tools Bytes} {m t : Machine Bytes}

section Rules

variable {I : Machine Bytes → Prop} {Q : Unit → Machine Bytes → Prop}
  {E : Failure → Machine Bytes → Prop} {P : Machine Bytes → Prop} {stage detail : String}

theorem wp_require {condition : Card Bytes → Bool} {value : Card Bytes → Text} (hI : I m)
    (hE : ∀ shown, E ⟨stage, detail, shown⟩ m) (hQ : condition m.card = true → Q () m) :
    wp I Q E (require condition stage detail value) m := by
  unfold require
  rw [wp_bind, wp_read]
  refine ⟨hI, ?_⟩
  cases hc : condition m.card with
  | true => exact hQ hc
  | false =>
    rw [if_neg (by simp), wp_bind, wp_read]
    exact ⟨hI, hE _⟩

theorem wp_require_pass {condition : Card Bytes → Bool} {value : Card Bytes → Text} (hI : I m)
    (hpass : condition m.card = true) (hQ : Q () m) :
    wp I Q E (require condition stage detail value) m := by
  unfold require
  rw [wp_bind, wp_read, hpass, if_pos rfl]
  exact ⟨hI, hQ⟩

theorem wp_attempt {f : Machine Bytes → Machine Bytes} (hf : I (f m)) (hQ : Q () (f m))
    (hfail : tools.mayFail = true → I m ∧ E ⟨stage, detail, []⟩ m) :
    wp I Q E (attempt tools f stage detail) m := by
  unfold attempt
  rw [wp_bind, wp_run]
  refine ⟨by simp, fun o ho => ?_⟩
  rcases List.mem_cons.mp ho with rfl | ho
  · exact ⟨hf, hQ⟩
  · split at ho
    · rename_i hmay
      rw [List.mem_singleton.mp ho]
      exact hfail hmay
    · cases ho

theorem wp_use {tool : Tool} (hran : I (m.apply tools tool)) (hQ : Q () (m.apply tools tool))
    (hfail : tools.mayFail = true → E ⟨stage, detail, []⟩ (m.apply tools tool) ∧
      I (m.record tool) ∧ E ⟨stage, detail, []⟩ (m.record tool)) :
    wp I Q E (use tools tool stage detail) m := by
  unfold use
  rw [wp_bind, wp_run]
  refine ⟨by simp, fun o ho => ?_⟩
  rcases List.mem_cons.mp ho with rfl | ho
  · exact ⟨hran, hQ⟩
  · split at ho
    · rename_i hmay
      rcases List.mem_cons.mp ho with rfl | ho
      · exact ⟨hran, (hfail hmay).1⟩
      · rw [List.mem_singleton.mp ho]
        exact (hfail hmay).2
    · cases ho

theorem wp_write {f : Files → Files} (hedit : I (m.edit f) ∧ Q () (m.edit f))
    (hback : I ((m.edit f).writeBack f) ∧ Q () ((m.edit f).writeBack f)) :
    wp I Q E (write f) m := by
  unfold write
  rw [wp_run]
  refine ⟨by simp, fun o ho => ?_⟩
  rcases List.mem_cons.mp ho with rfl | ho
  · exact hedit
  · rw [List.mem_singleton.mp ho]
    exact hback

theorem wp_sync (h : I m.sync ∧ Q () m.sync) : wp I Q E sync m := by
  unfold sync
  rw [wp_run]
  refine ⟨by simp, fun o ho => ?_⟩
  rw [List.mem_singleton.mp ho]
  exact h

/-- A part of a boot that keeps `P`, where it does not matter how it fails. -/
theorem wp_then {α : Type} {n : Sh Bytes α} {f : α → Sh Bytes Unit} (hn : Keeps P n) (hm : P m)
    (hf : ∀ a u, P u → wp P Q (fun _ _ => True) (f a) u) :
    wp P Q (fun _ _ => True) (n >>= f) m := by
  rw [wp_bind]
  exact wp_mono (hn.stays m hm) (fun _ h => h) hf fun _ _ _ => trivial

theorem keeps_require (condition : Card Bytes → Bool) (value : Card Bytes → Text) :
    Keeps P (require condition stage detail value) :=
  ⟨fun _ hs => wp_require hs (fun _ => hs) fun _ => hs⟩

theorem keeps_attempt {f : Machine Bytes → Machine Bytes} (h : ∀ s, P s → P (f s)) :
    Keeps P (attempt tools f stage detail) :=
  ⟨fun s hs => wp_attempt (h s hs) (h s hs) fun _ => ⟨hs, hs⟩⟩

theorem keeps_use {tool : Tool} (hran : ∀ s, P s → P (s.apply tools tool))
    (hrecord : ∀ s, P s → P (s.record tool)) : Keeps P (use tools tool stage detail) :=
  ⟨fun s hs => wp_use (hran s hs) (hran s hs) fun _ =>
    ⟨hran s hs, hrecord s hs, hrecord s hs⟩⟩

end Rules

section Invariant

/-- No partition is moved, shrunk or taken away. -/
structure Kept (c c' : Card Bytes) : Prop where
  p1 : c'.p1 = c.p1
  p2 : c'.p2 = c.p2
  p3_start : c'.p3.start = c.p3.start
  p3_size : c.p3.size ≤ c'.p3.size
  p4 : ∀ p, c.p4 = some p → c'.p4 = some p

theorem Kept.refl (c : Card Bytes) : Kept c c := ⟨rfl, rfl, rfl, le_rfl, fun _ h => h⟩

theorem Kept.trans {c c' c'' : Card Bytes} (h : Kept c c') (h' : Kept c' c'') : Kept c c'' :=
  ⟨h'.p1.trans h.p1, h'.p2.trans h.p2, h'.p3_start.trans h.p3_start, h.p3_size.trans h'.p3_size,
    fun p hp => h'.p4 p (h.p4 p hp)⟩

/-- Where `mkfs.fat` was run, nothing was found on p4, and p4 was created after the intent
marker was on p3, or both of them were on the first card. -/
def Allowed (tools : Tools Bytes) (first c : Card Bytes) : Prop :=
  blkidType tools c = [] ∧
    (c.p4AfterIntent = true ∨ first.p4 ≠ none ∧ first.files.hasIntent = true)

/-- What the record of a tool has to say, with `first` for the card before the first boot. -/
def Fine (tools : Tools Bytes) (first : Card Bytes) (e : Tool × Card Bytes) : Prop :=
  (e.1 = .mkfsFat → Allowed tools first e.2) ∧ Kept e.2 (e.1.effect tools e.2)

/-- The invariant of all boots. -/
structure Safe (tools : Tools Bytes) (first : Card Bytes) (m : Machine Bytes) : Prop where
  history : ∀ e ∈ m.history, Fine tools first e
  table : Kept first m.card
  created : first.p4 = none → m.card.p4 ≠ none → m.card.p4AfterIntent = true
  durable : first.p4 ≠ none → m.card.files.hasIntent = first.files.hasIntent
  pending : first.p4 ≠ none → ∀ files, m.mounted = some files →
    files.hasIntent = first.files.hasIntent

variable {first : Card Bytes}

theorem safe_start (tools : Tools Bytes) (first : Card Bytes) :
    Safe tools first first.inserted where
  history e he := by cases he
  table := Kept.refl first
  created hnone hp4 := absurd hnone hp4
  durable _ := rfl
  pending _ files hfiles := by cases hfiles

namespace Safe

theorem mount (h : Safe tools first m) : Safe tools first (mountFiles m) where
  history := h.history
  table := h.table
  created := h.created
  durable := h.durable
  pending hp4 files hfiles := by
    cases hfiles
    exact h.durable hp4

theorem sync (h : Safe tools first m) : Safe tools first m.sync where
  history := h.history
  table := ⟨h.table.p1, h.table.p2, h.table.p3_start, h.table.p3_size, h.table.p4⟩
  created := h.created
  durable hp4 := by
    unfold Machine.sync
    cases hm : m.mounted with
    | none => exact h.durable hp4
    | some files => exact h.pending hp4 files hm
  pending := h.pending

theorem unmount (h : Safe tools first m) : Safe tools first (unmountFiles m) where
  history := h.history
  table := h.sync.table
  created := h.created
  durable := h.sync.durable
  pending _ files hfiles := by cases hfiles

theorem powerOff (h : Safe tools first m) : Safe tools first m.powerOff where
  history := h.history
  table := h.table
  created := h.created
  durable := h.durable
  pending _ files hfiles := by cases hfiles

variable {f : Files → Files}

theorem edit (h : Safe tools first m)
    (hf : first.p4 ≠ none → ∀ files, (f files).hasIntent = files.hasIntent) :
    Safe tools first (m.edit f) where
  history := h.history
  table := h.table
  created := h.created
  durable := h.durable
  pending hp4 files hfiles := by
    obtain ⟨old, hold, rfl⟩ := Option.map_eq_some_iff.mp hfiles
    rw [hf hp4]
    exact h.pending hp4 old hold

theorem writeBack (h : Safe tools first m)
    (hf : first.p4 ≠ none → ∀ files, (f files).hasIntent = files.hasIntent) :
    Safe tools first (m.writeBack f) where
  history := h.history
  table := ⟨h.table.p1, h.table.p2, h.table.p3_start, h.table.p3_size, h.table.p4⟩
  created := h.created
  durable hp4 := (hf hp4 _).trans (h.durable hp4)
  pending := h.pending

variable {tool : Tool}

theorem record (h : Safe tools first m) (hfine : Fine tools first (tool, m.card)) :
    Safe tools first (m.record tool) where
  history e he := by
    rcases List.mem_append.mp he with he | he
    · exact h.history e he
    · rw [List.mem_singleton.mp he]
      exact hfine
  table := h.table
  created := h.created
  durable := h.durable
  pending := h.pending

theorem apply (h : Safe tools first m) (hfine : Fine tools first (tool, m.card))
    (hintent : tool = .mkPart4 → m.card.files.hasIntent = true) :
    Safe tools first (m.apply tools tool) where
  history := (h.record hfine).history
  table := h.table.trans hfine.2
  created hnone hp4 := by
    cases tool with
    | mkPart4 =>
      simp only [Machine.apply, Tool.effect] at hp4 ⊢
      cases hold : m.card.p4 with
      | none => exact hintent rfl
      | some p => exact h.created hnone (by simp [hold])
    | _ => exact h.created hnone hp4
  durable hp4 := by
    have hfiles : (tool.effect tools m.card).files = m.card.files := by
      cases tool with
      | mkPart4 =>
        simp only [Tool.effect]
        split <;> rfl
      | _ => rfl
    exact (congrArg Files.hasIntent hfiles).trans (h.durable hp4)
  pending := h.pending

end Safe

end Invariant

section Boot

variable {first : Card Bytes}

theorem fine_of_kept {tool : Tool} {c : Card Bytes} (hne : tool ≠ .mkfsFat)
    (hkept : Kept c (tool.effect tools c)) : Fine tools first (tool, c) :=
  ⟨fun heq => absurd heq hne, hkept⟩

theorem fine_check {tool : Tool} {c : Card Bytes} (h : tool = .e2fsck ∨ tool = .resize2fs ∨
    tool = .fsckFat) : Fine tools first (tool, c) := by
  rcases h with rfl | rfl | rfl
  all_goals exact fine_of_kept (by simp) ⟨rfl, rfl, rfl, le_rfl, fun _ hp => hp⟩

theorem fine_resizePart3 {c : Card Bytes} (hstart : c.p3.start = runtimeStart)
    (hsize : c.p3.size = runtimeSeedSectors) : Fine tools first (.resizePart3, c) := by
  refine fine_of_kept (by simp) ⟨rfl, rfl, rfl, ?_, fun _ hp => hp⟩
  change c.p3.size ≤ runtimeTargetEnd + 1 - c.p3.start
  rw [hstart, hsize]
  decide

theorem fine_mkPart4 {c : Card Bytes} : Fine tools first (.mkPart4, c) := by
  apply fine_of_kept (by simp)
  cases hp4 : c.p4 with
  | none =>
    simp only [Tool.effect, hp4]
    refine ⟨rfl, rfl, rfl, le_rfl, fun p hp => ?_⟩
    rw [hp4] at hp
    cases hp
  | some q =>
    simp only [Tool.effect, hp4]
    exact Kept.refl c

theorem fine_mkfsFat {c : Card Bytes} (h : Allowed tools first c) :
    Fine tools first (.mkfsFat, c) :=
  ⟨fun _ => h, rfl, rfl, rfl, le_rfl, fun _ hp => hp⟩

theorem keeps_check {tool : Tool} {stage detail : String} (h : tool = .e2fsck ∨
    tool = .resize2fs ∨ tool = .fsckFat) :
    Keeps (Safe tools first) (use tools tool stage detail) := by
  have hmk : tool ≠ .mkPart4 := by
    rintro rfl
    simp at h
  exact keeps_use (fun s hs => hs.apply (fine_check h) fun heq => absurd heq hmk)
    fun s hs => hs.record (fine_check h)

theorem keeps_checkP4Type {P : Machine Bytes → Prop} : Keeps P (checkP4Type tools) :=
  Keeps.bind (keeps_require _ _) fun _ => keeps_require _ _

theorem keeps_checkP4Place {P : Machine Bytes → Prop} : Keeps P (@checkP4Place Bytes) :=
  Keeps.bind (keeps_require _ _) fun _ => keeps_require _ _

theorem keeps_completedBoot {P : Machine Bytes → Prop} : Keeps P (completedBoot tools) :=
  Keeps.bind (keeps_require _ _) fun _ => Keeps.bind (keeps_require _ _) fun _ =>
    Keeps.bind keeps_checkP4Place fun _ => keeps_checkP4Type

theorem keeps_checkGeometry {P : Machine Bytes → Prop} : Keeps P (@checkGeometry Bytes) :=
  Keeps.bind (keeps_require _ _) fun _ => Keeps.bind (keeps_require _ _) fun _ =>
    Keeps.bind (keeps_require _ _) fun _ => Keeps.bind (keeps_require _ _) fun _ =>
      Keeps.bind (keeps_require _ _) fun _ => keeps_require _ _

theorem keeps_checkAuthorization {P : Machine Bytes → Prop} :
    Keeps P (@checkAuthorization Bytes) :=
  Keeps.bind (keeps_require _ _) fun _ => Keeps.bind (keeps_require _ _) fun _ =>
    keeps_require _ _

theorem wp_authorizeLayout {I : Machine Bytes → Prop} {E : Failure → Machine Bytes → Prop}
    (hI : I m) (hE : ∀ failure, E failure m) :
    wp I (fun _ t => t = m ∧ m.card.p3.start = runtimeStart) E authorizeLayout m := by
  unfold authorizeLayout
  rw [wp_bind]
  refine wp_require hI (fun _ => hE _) fun _ => ?_
  rw [wp_bind]
  refine wp_require hI (fun _ => hE _) fun _ => ?_
  rw [wp_bind]
  refine wp_require hI (fun _ => hE _) fun _ => ?_
  rw [wp_bind]
  refine wp_require hI (fun _ => hE _) fun hstart => ?_
  rw [wp_bind]
  refine wp_require hI (fun _ => hE _) fun _ => ?_
  rw [wp_bind]
  refine wp_require hI (fun _ => hE _) fun _ => ?_
  refine wp_require hI (fun _ => hE _) fun _ => ?_
  exact ⟨rfl, by simpa using hstart⟩

theorem wp_checkP4Place {I : Machine Bytes → Prop} {E : Failure → Machine Bytes → Prop}
    (hI : I m) (hE : ∀ failure, E failure m) :
    wp I (fun _ t => t = m ∧ m.card.p4 ≠ none) E checkP4Place m := by
  unfold checkP4Place
  rw [wp_bind]
  refine wp_require hI (fun _ => hE _) fun hstart => ?_
  refine wp_require hI (fun _ => hE _) fun _ => ⟨rfl, ?_⟩
  intro hnone
  simp [hnone] at hstart

theorem wp_writeP4Intent (hs : Safe tools first m) (hnone : first.p4 = none) :
    wp (Safe tools first) (fun _ t => Safe tools first t ∧ t.card.files.hasIntent = true)
      (fun _ => Safe tools first) (writeP4Intent tools) m := by
  have hf : first.p4 ≠ none → ∀ files : Files,
      ({ files with intent := some [intentLine] } : Files).hasIntent = files.hasIntent :=
    fun hp4 => absurd hnone hp4
  -- once p3 is mounted with the marker, every `sync` has it on the card
  have hrest : ∀ u : Machine Bytes, Safe tools first u →
      (∃ files, u.mounted = some files ∧ files.hasIntent = true) →
      wp (Safe tools first) (fun _ t => Safe tools first t ∧ t.card.files.hasIntent = true)
        (fun _ => Safe tools first) (do
          sync
          unmountState tools) u := by
    rintro u hu ⟨files, hmounted, hintent⟩
    rw [wp_bind]
    apply wp_sync
    refine ⟨hu.sync, ?_⟩
    unfold unmountState
    rw [wp_bind]
    apply wp_sync
    refine ⟨hu.sync.sync, ?_⟩
    have hend : (unmountFiles u.sync.sync).card.files.hasIntent = true := by
      simp [unmountFiles, Machine.sync, hmounted, hintent]
    exact wp_attempt hu.sync.sync.unmount ⟨hu.sync.sync.unmount, hend⟩ fun _ =>
      ⟨hu.sync.sync, hu.sync.sync⟩
  have hmarked : ∀ files : Files,
      ({ files with intent := some [intentLine] } : Files).hasIntent = true := by
    intro files
    simp [Files.hasIntent]
  unfold writeP4Intent mountState
  rw [wp_bind]
  apply wp_attempt hs.mount _ fun _ => ⟨hs, hs⟩
  rw [wp_bind]
  apply wp_write
  · exact ⟨hs.mount.edit hf, hrest _ (hs.mount.edit hf) ⟨_, rfl, hmarked _⟩⟩
  · have hback := (hs.mount.edit hf).writeBack hf
    exact ⟨hback, hrest _ hback ⟨_, rfl, hmarked _⟩⟩

theorem wp_expandP3 (hs : Safe tools first m) (hstart : m.card.p3.start = runtimeStart) :
    wp (Safe tools first) (fun _ => Safe tools first) (fun _ => Safe tools first)
      (expandP3 tools m.card.p3.size) m := by
  unfold expandP3
  split
  · rename_i hsize
    rw [wp_bind]
    have hfine : Fine tools first (.resizePart3, m.card) := fine_resizePart3 hstart hsize
    have hran := hs.apply hfine (by simp)
    have hrecord := hs.record hfine
    apply wp_use hran _ fun _ => ⟨hran, hrecord, hrecord⟩
    exact wp_require hran (fun _ => hran) fun _ => hran
  · exact hs

theorem wp_createP4 (hs : Safe tools first m) :
    wp (Safe tools first) (fun b t => Safe tools first t ∧ (b = true → first.p4 = none))
      (fun _ => Safe tools first) (createP4 tools) m := by
  unfold createP4
  rw [wp_bind, wp_read]
  refine ⟨hs, ?_⟩
  cases hp4 : m.card.p4 with
  | some p => exact ⟨hs, by simp⟩
  | none =>
    have hnone : first.p4 = none := by
      cases hfirst : first.p4 with
      | none => rfl
      | some p =>
        rw [hs.table.p4 p hfirst] at hp4
        cases hp4
    rw [Option.isSome_none, if_neg (by simp), wp_bind]
    apply wp_mono (wp_writeP4Intent hs hnone) (fun _ h => h) _ (fun _ _ h => h)
    rintro _ u ⟨hu, hintent⟩
    rw [wp_bind]
    have hran := hu.apply (@fine_mkPart4 _ tools first _) fun _ => hintent
    have hrecord := hu.record (@fine_mkPart4 _ tools first u.card)
    apply wp_use hran _ fun _ => ⟨hran, hrecord, hrecord⟩
    rw [wp_bind]
    exact wp_require hran (fun _ => hran) fun _ => ⟨hran, fun _ => hnone⟩

/-- A p4 on which nothing was found. -/
def Blank (tools : Tools Bytes) (first : Card Bytes) (m : Machine Bytes) : Prop :=
  Safe tools first m ∧ m.card.p4 ≠ none ∧ blkidType tools m.card = []

theorem wp_hasP4Intent (hm : Blank tools first m) :
    wp (Safe tools first) (fun b t => Blank tools first t ∧
      (b = true → first.p4 ≠ none → first.files.hasIntent = true))
      (fun _ => Safe tools first) (hasP4Intent tools) m := by
  obtain ⟨hs, hp4, hblank⟩ := hm
  unfold hasP4Intent mountState unmountState
  rw [wp_bind]
  apply wp_attempt hs.mount _ fun _ => ⟨hs, hs⟩
  rw [wp_bind, wp_read]
  refine ⟨hs.mount, ?_⟩
  rw [wp_bind, wp_bind]
  apply wp_sync
  refine ⟨hs.mount.sync, ?_⟩
  have hend := hs.mount.sync.unmount
  apply wp_attempt hend _ fun _ => ⟨hs.mount.sync, hs.mount.sync⟩
  refine ⟨⟨hend, hp4, hblank⟩, fun hintent hfirst => ?_⟩
  rw [← hs.durable hfirst]
  exact hintent

theorem wp_authorizeFormat (hm : Blank tools first m) {formatP4 : Bool}
    (hformat : formatP4 = true → first.p4 = none) :
    wp (Safe tools first) (fun _ t => Safe tools first t ∧ Allowed tools first t.card)
      (fun _ => Safe tools first) (authorizeFormat tools formatP4) m := by
  have hallowed : ∀ t, Blank tools first t →
      (first.p4 ≠ none → first.files.hasIntent = true) → Allowed tools first t.card := by
    rintro t ⟨ht, hp4, hblank⟩ hintent
    refine ⟨hblank, ?_⟩
    by_cases hfirst : first.p4 = none
    · exact Or.inl (ht.created hfirst hp4)
    · exact Or.inr ⟨hfirst, hintent hfirst⟩
  unfold authorizeFormat
  cases formatP4 with
  | true => exact ⟨hm.1, hallowed m hm fun hfirst => absurd (hformat rfl) hfirst⟩
  | false =>
    rw [if_neg (by simp), wp_bind]
    apply wp_mono (wp_hasP4Intent hm) (fun _ h => h) _ (fun _ _ h => h)
    rintro b t ⟨ht, hintent⟩
    cases b with
    | true => exact ⟨ht.1, hallowed t ht (hintent rfl)⟩
    | false => exact ht.1

theorem wp_formatBlankP4 (hs : Safe tools first m) (hp4 : m.card.p4 ≠ none) {formatP4 : Bool}
    (hformat : formatP4 = true → first.p4 = none) :
    wp (Safe tools first) (fun _ => Safe tools first) (fun _ => Safe tools first)
      (formatBlankP4 tools formatP4) m := by
  unfold formatBlankP4
  rw [wp_bind, wp_read]
  refine ⟨hs, ?_⟩
  split
  · rename_i hblank
    rw [wp_bind]
    apply wp_mono (wp_authorizeFormat ⟨hs, hp4, hblank⟩ hformat) (fun _ h => h) _
      (fun _ _ h => h)
    rintro _ t ⟨ht, hallowed⟩
    have hran := ht.apply (fine_mkfsFat hallowed) (by simp)
    have hrecord := ht.record (fine_mkfsFat hallowed)
    exact wp_use hran hran fun _ => ⟨hran, hrecord, hrecord⟩
  · exact hs

theorem wp_provisionSteps (hs : Safe tools first m) (hstart : m.card.p3.start = runtimeStart) :
    wp (Safe tools first) (fun _ => Safe tools first) (fun _ => Safe tools first)
      (provisionSteps tools) m := by
  unfold provisionSteps
  rw [wp_bind, wp_read]
  refine ⟨hs, ?_⟩
  rw [wp_bind]
  apply wp_mono (wp_expandP3 hs hstart) (fun _ h => h) _ (fun _ _ h => h)
  intro _ t ht
  -- the filesystem of p3
  rw [wp_bind]
  apply wp_mono ((keeps_check (by simp)).stays t ht) (fun _ h => h) _ (fun _ _ h => h)
  intro _ u hu
  rw [wp_bind]
  apply wp_mono ((keeps_check (by simp)).stays u hu) (fun _ h => h) _ (fun _ _ h => h)
  intro _ v hv
  rw [wp_bind]
  apply wp_mono ((keeps_check (by simp)).stays v hv) (fun _ h => h) _ (fun _ _ h => h)
  intro _ w hw
  -- p4
  rw [wp_bind]
  apply wp_mono (wp_createP4 hw) (fun _ h => h) _ (fun _ _ h => h)
  rintro formatP4 x ⟨hx, hformat⟩
  rw [wp_bind]
  apply wp_mono (wp_checkP4Place hx fun _ => hx) (fun _ h => h) _ (fun _ _ h => h)
  rintro _ y ⟨rfl, hp4⟩
  rw [wp_bind]
  apply wp_mono (wp_formatBlankP4 hx hp4 hformat) (fun _ h => h) _ (fun _ _ h => h)
  intro _ z hz
  have hlast : Keeps (Safe tools first) (do
      checkP4Type tools
      fsckFat tools) :=
    Keeps.bind keeps_checkP4Type fun _ => keeps_check (by simp)
  exact hlast.stays z hz

theorem keeps_provisionStorage_safe (complete : Bool) :
    Keeps (Safe tools first) (provisionStorage tools complete) := by
  constructor
  intro s hs
  unfold provisionStorage
  rw [wp_bind]
  apply wp_mono (wp_authorizeLayout hs fun _ => hs) (fun _ h => h) _ (fun _ _ h => h)
  rintro _ t ⟨rfl, hstart⟩
  cases complete with
  | true => exact keeps_completedBoot.stays t hs
  | false => exact wp_provisionSteps hs hstart

theorem keeps_init {P : Machine Bytes → Prop} (hmount : ∀ s, P s → P (mountFiles s))
    (hsync : ∀ s, P s → P s.sync)
    (hcomplete : ∀ s, P s → P (s.edit fun files => { files with complete := true }) ∧
      P ((s.edit fun files => { files with complete := true }).writeBack
        fun files => { files with complete := true }))
    (hprovision : ∀ s, P s → Keeps P (provisionStorage tools s.card.files.complete)) :
    Keeps P (init tools) := by
  have hid : ∀ stage detail, Keeps P (attempt tools id stage detail) :=
    fun _ _ => keeps_attempt fun _ hs => hs
  have hfinish : Keeps P (finishBoot tools) :=
    Keeps.bind (hid _ _) fun _ => Keeps.bind (keeps_attempt hmount) fun _ =>
      Keeps.bind (hid _ _) fun _ => Keeps.bind ⟨fun s hs => wp_sync ⟨hsync s hs, hsync s hs⟩⟩
        fun _ => Keeps.bind ⟨fun s hs => wp_write ⟨(hcomplete s hs).1, (hcomplete s hs).1⟩
          ⟨(hcomplete s hs).2, (hcomplete s hs).2⟩⟩
          fun _ => ⟨fun s hs => wp_sync ⟨hsync s hs, hsync s hs⟩⟩
  unfold init
  apply Keeps.bind keeps_checkGeometry
  intro _
  apply Keeps.bind (hid _ _)
  intro _
  apply Keeps.bind (hid _ _)
  intro _
  apply Keeps.bind keeps_checkAuthorization
  intro _
  constructor
  intro s hs
  rw [wp_bind, wp_read]
  refine ⟨hs, ?_⟩
  have hrest := Keeps.bind (hid "E25" "P3_PREAUTH_UNMOUNT_FAILED") fun _ =>
    Keeps.bind (hid "E25" "P1_PREAUTH_UNMOUNT_FAILED") fun _ =>
      Keeps.bind (Keeps.handle (hprovision s hs) fun _ =>
        (Keeps.raise _ : Keeps P (fail "E25" "STORAGE_PROVISION_FAILED" []))) fun _ => hfinish
  exact hrest.stays s hs

theorem hasIntent_complete (files : Files) :
    ({ files with complete := true } : Files).hasIntent = files.hasIntent := rfl

theorem keeps_init_safe : Keeps (Safe tools first) (init tools) := by
  apply keeps_init (fun _ hs => hs.mount) (fun _ hs => hs.sync)
  · intro s hs
    have hedit := hs.edit fun _ => hasIntent_complete
    exact ⟨hedit, hedit.writeBack fun _ => hasIntent_complete⟩
  · exact fun s _ => keeps_provisionStorage_safe _

/-- The `complete` marker is on the card, and no tool was run since `history`. -/
structure Completed (history : List (Tool × Card Bytes)) (m : Machine Bytes) : Prop where
  durable : m.card.files.complete = true
  pending : ∀ files, m.mounted = some files → files.complete = true
  idle : m.history = history

variable {history : List (Tool × Card Bytes)}

theorem Completed.mount (h : Completed history m) : Completed history (mountFiles m) where
  durable := h.durable
  pending files hfiles := by
    cases hfiles
    exact h.durable
  idle := h.idle

theorem Completed.sync (h : Completed history m) : Completed history m.sync where
  durable := by
    unfold Machine.sync
    cases hm : m.mounted with
    | none => exact h.durable
    | some files => exact h.pending files hm
  pending := h.pending
  idle := h.idle

theorem Completed.powerOff (h : Completed history m) : Completed history m.powerOff :=
  ⟨h.durable, fun _ hfiles => (by cases hfiles), h.idle⟩

theorem keeps_init_completed : Keeps (Completed history) (init tools) := by
  apply keeps_init (fun _ hs => hs.mount) (fun _ hs => hs.sync)
  · intro s hs
    have hpending : ∀ files, (s.mounted.map fun files : Files =>
        { files with complete := true }) = some files → files.complete = true := by
      intro files hfiles
      obtain ⟨old, -, rfl⟩ := Option.map_eq_some_iff.mp hfiles
      rfl
    exact ⟨⟨hs.durable, hpending, hs.idle⟩, ⟨rfl, hpending, hs.idle⟩⟩
  · intro s hs
    rw [hs.durable]
    constructor
    intro t ht
    unfold provisionStorage
    rw [wp_bind]
    apply wp_mono (wp_authorizeLayout ht fun _ => ht) (fun _ h => h) _ (fun _ _ h => h)
    rintro _ u ⟨rfl, -⟩
    exact keeps_completedBoot.stays u ht

end Boot

section Boots

variable {first : Card Bytes} {s t : Machine Bytes}

theorem InterruptedBoot.safe {e : Unit} (h : InterruptedBoot tools s e t)
    (hs : Safe tools first s) : Safe tools first t := by
  obtain ⟨u, hleave, rfl⟩ := h
  exact (leaves_of_wp (keeps_init_safe.stays s hs) hs hleave).powerOff

theorem InterruptedBoot.completed {e : Unit} {history : List (Tool × Card Bytes)}
    (h : InterruptedBoot tools s e t) (hs : Completed history s) : Completed history t := by
  obtain ⟨u, hleave, rfl⟩ := h
  exact (leaves_of_wp (keeps_init_completed.stays s hs) hs hleave).powerOff

/-- Over any boots: `mkfs.fat` is run only where nothing is found on p4 and the intent marker
came first, or both were on the first card; no partition is moved or shrunk; and once a card
is complete no tool is run on it again. -/
theorem boots_format_no_data {es fs : List Unit}
    (hrun : Run (InterruptedBoot tools) first.inserted es s)
    (hlater : Run (InterruptedBoot tools) s fs t) :
    (∀ e ∈ t.history, Fine tools first e) ∧ Kept first t.card ∧
      (s.card.files.complete = true → t.history = s.history) := by
  have hsafe : Safe tools first t :=
    (hrun.append hlater).keeps (safe_start tools first) fun hs hstep => hstep.safe hs
  refine ⟨hsafe.history, hsafe.table, fun hcomplete => ?_⟩
  have hunmounted : s.mounted = none := by
    apply hrun.keeps (I := fun u => u.mounted = none) rfl
    rintro _ _ _ - ⟨u, -, rfl⟩
    rfl
  have hstart : Completed s.history s :=
    ⟨hcomplete, fun files hfiles => (by rw [hunmounted] at hfiles; cases hfiles), rfl⟩
  exact (hlater.keeps hstart fun hs hstep => hstep.completed hs).idle

section Samples

/-- Only the type and the label of what is on p4. -/
def sampleTools : Tools (Text × Text) where
  blkidType := Prod.fst
  blkidLabel := Prod.snd
  mkfsFat _ := (vfat, plumos)
  fsckFat := id
  grain := 2048
  mayFail := false

/-- A card whose blank p4 was there before the marker. -/
def sampleCard : Card (Text × Text) where
  sectors := minimumDiskSectors
  p1 := ⟨bootStart, bootSectors⟩
  p2 := ⟨matchingStart, matchingSectors⟩
  p3 := ⟨runtimeStart, runtimeTargetSectors⟩
  p4 := some ⟨userdataStart, sampleTools.p4Size minimumDiskSectors⟩
  p1Label := plumboot
  p1Authorized := true
  p3Label := plumosSys
  p3FilesystemSectors := runtimeTargetSectors
  files := ⟨some [authorizedYes], some [intentLine], false⟩
  area := ([], [])
  p4AfterIntent := false

/-- A boot of a card with every first outcome, as far as `n` commands. -/
def sampleBoot (n : ℕ) (c : Card (Text × Text)) : Machine (Text × Text) :=
  (Script.play (List.replicate n 0) (init sampleTools) c.inserted).2.powerOff

theorem sampleBoot_run (n : ℕ) (c : Card (Text × Text)) :
    Run (InterruptedBoot sampleTools) c.inserted [()] (sampleBoot n c) :=
  Run.single ⟨_, Script.leaves_play _ _ _, rfl⟩

end Samples

theorem boots_format_no_data_sample :
    (∀ e ∈ (sampleBoot 80 sampleCard).history, Fine sampleTools sampleCard e) ∧
      Kept sampleCard (sampleBoot 80 sampleCard).card ∧
        (sampleCard.inserted.card.files.complete = true →
          (sampleBoot 80 sampleCard).history = sampleCard.inserted.history) :=
  boots_format_no_data Run.nil (sampleBoot_run 80 sampleCard)

/-- The marker gives leave to format a p4 that was there before it. -/
theorem boots_format_older_p4 :
    ¬ ∀ (Bytes : Type) (tools : Tools Bytes) (first : Card Bytes) (es : List Unit)
      (t : Machine Bytes), Run (InterruptedBoot tools) first.inserted es t →
      ∀ e ∈ t.history, e.1 = .mkfsFat →
        blkidType tools e.2 = [] ∧ e.2.p4AfterIntent = true := by
  intro hclaim
  have hall := hclaim _ _ _ _ _ (sampleBoot_run 80 sampleCard)
  have hformat : (sampleBoot 80 sampleCard).history.any
      (fun e => e.1 = .mkfsFat && !e.2.p4AfterIntent) = true := by decide +kernel
  obtain ⟨e, he, hboth⟩ := List.any_eq_true.mp hformat
  have htool : e.1 = .mkfsFat := by
    simpa using And.left (by simpa using hboth)
  have holder : e.2.p4AfterIntent = false := by
    simpa using And.right (by simpa using hboth)
  rw [(hall e he htool).2] at holder
  cases holder

end Boots

end PlumosBubble.Storage
