import PlumosBubble.Launch.Requests
import PlumosBubble.Sequence.RecentUse

/-! The list of recent games over any number of launches. Each launch reads the file, puts its
game first and writes the file; what the reader gets back at the end is the games in the order
of their last launch. -/

namespace PlumosBubble.Frontend.TextUi

open Sequence

/-- The game of an entry. -/
def RecentEntry.key (entry : RecentEntry) : GameKey :=
  ⟨entry.systemId.text, entry.relativePath.text⟩

/-- What a launch puts into the list. -/
structure RecentGame where
  systemId : CString
  rom : RomEntry
  launchProfile : CString
  playedAt : CString

def RecentGame.entry (game : RecentGame) : RecentEntry :=
  recentEntryFromRom game.systemId game.rom game.launchProfile game.playedAt

/-- `load_recent`, `add_recent_entry` and `save_recent`. -/
def recordGame (file : Option CString) (game : RecentGame) : Option CString :=
  (loadRecent file).map fun state => saveRecent (addRecentEntry state game.entry)

/-- The file after launches; none if it could not be read. -/
def recordGames (file : Option CString) (games : List RecentGame) : Option (Option CString) :=
  games.foldlM (fun file game => (recordGame file game).map some) file

/-- The games by their last launch, and behind them the ones that were there before. -/
def lastLaunched (initial : List RecentEntry) (games : List RecentGame) : List RecentEntry :=
  (keepNew (sameKey RecentEntry.key) [] ((games.map RecentGame.entry).reverse ++ initial)).take
    maxRecents

/-- The launches succeed, and the list that is then read is the games by their last launch. -/
def InOrder (file : Option CString) (initial : List RecentEntry) (games : List RecentGame) : Prop :=
  ∃ after, recordGames file games = some after ∧
    loadRecent after = some (lastLaunched initial games)

/-- What every list in memory is. -/
structure RecentList (state : List RecentEntry) : Prop where
  distinct : state.Pairwise fun x y => sameKey RecentEntry.key x y = false
  count : state.length ≤ maxRecents
  accepted : ∀ entry ∈ state, entry.accepted = true

section Memory

theorem key_withTitle (entry : RecentEntry) : entry.withTitle.key = entry.key := by
  unfold RecentEntry.withTitle
  split <;> rfl

theorem accepted_withTitle (entry : RecentEntry) : entry.withTitle.accepted = entry.accepted := by
  unfold RecentEntry.withTitle
  split <;> rfl

theorem sameKey_iff {a b : RecentEntry} : sameKey RecentEntry.key a b = true ↔
    b.systemId.text = a.systemId.text ∧ b.relativePath.text = a.relativePath.text := by
  simp only [sameKey, RecentEntry.key, decide_eq_true_eq, GameKey.mk.injEq]
  constructor
  · rintro ⟨hs, hr⟩
    exact ⟨hs.symm, hr.symm⟩
  · rintro ⟨hs, hr⟩
    exact ⟨hs.symm, hr.symm⟩

theorem findRecent_eq (state : List RecentEntry) (entry : RecentEntry) :
    findRecent state entry.systemId.text entry.relativePath.text =
      state.findIdx? (sameKey RecentEntry.key entry) := by
  unfold findRecent
  congr 1
  funext e
  rw [Bool.eq_iff_iff, sameKey_iff]
  simp

theorem eraseIdx_findIdx? {α : Type*} {p : α → Bool} {items : List α} {i : ℕ}
    (h : items.findIdx? p = some i) (hone : items.countP p ≤ 1) :
    items.eraseIdx i = items.filter fun y => !p y := by
  induction items generalizing i with
  | nil => simp at h
  | cons x items ih =>
    rw [List.findIdx?_cons] at h
    by_cases hx : p x = true
    · simp only [hx, if_true, Option.some.injEq] at h
      have hrest : ∀ y ∈ items, (!p y) = true := by
        rw [List.countP_cons_of_pos hx] at hone
        have hnone : items.countP p = 0 := by omega
        simpa [List.countP_eq_zero] using hnone
      rw [← h, List.eraseIdx_cons_zero, List.filter_cons_of_neg (by simp [hx]),
        List.filter_eq_self.mpr hrest]
    · rw [List.countP_cons_of_neg hx] at hone
      simp only [hx, Bool.false_eq_true, if_false, Option.map_eq_some_iff] at h
      obtain ⟨j, hj, rfl⟩ := h
      rw [List.eraseIdx_cons_succ, List.filter_cons_of_pos (by simp [hx]), ih hj hone]

theorem addRecentEntry_eq {state : List RecentEntry} (h : RecentList state) (entry : RecentEntry) :
    addRecentEntry state entry = useItem RecentEntry.key maxRecents state entry := by
  have hone := countP_sameKey h.distinct entry
  simp only [Bool.not_not] at hone
  unfold addRecentEntry useItem
  rw [findRecent_eq]
  cases hfind : state.findIdx? (sameKey RecentEntry.key entry) with
  | some i =>
    have hlt := (List.findIdx?_eq_some_iff_getElem.mp hfind).1
    have hcount := h.count
    show entry :: state.eraseIdx i = _
    rw [List.take_of_length_le, eraseIdx_findIdx? hfind hone]
    rw [← eraseIdx_findIdx? hfind hone, List.length_cons, List.length_eraseIdx_of_lt hlt]
    omega
  | none =>
    have hnone := List.findIdx?_eq_none_iff.mp hfind
    show (entry :: state).take maxRecents = _
    rw [List.filter_eq_self.mpr]
    intro y hy
    rw [hnone y hy]
    rfl

theorem recentList_nil : RecentList [] where
  distinct := List.Pairwise.nil
  count := Nat.zero_le _
  accepted := by simp

theorem RecentList.add {state : List RecentEntry} (h : RecentList state) (entry : RecentEntry) :
    RecentList (addRecent state entry) := by
  unfold addRecent
  split
  · rename_i hadd
    simp only [Bool.and_eq_true, decide_eq_true_eq] at hadd
    obtain ⟨⟨hroom, haccepted⟩, hnew⟩ := hadd
    rw [findRecent_eq, List.findIdx?_eq_none_iff] at hnew
    constructor
    · rw [List.pairwise_append]
      refine ⟨h.distinct, List.pairwise_singleton _ _, ?_⟩
      intro x hx y hy
      rw [List.mem_singleton.mp hy]
      have hxnew := hnew x hx
      simp only [sameKey, decide_eq_false_iff_not, key_withTitle] at hxnew ⊢
      exact fun heq => hxnew heq.symm
    · rw [List.length_append, List.length_singleton]
      omega
    · intro x hx
      rcases List.mem_append.mp hx with hx | hx
      · exact h.accepted x hx
      · rw [List.mem_singleton.mp hx, accepted_withTitle]
        exact haccepted
  · exact h

theorem RecentList.foldl {state : List RecentEntry} (h : RecentList state)
    (entries : List RecentEntry) : RecentList (entries.foldl addRecent state) := by
  induction entries generalizing state with
  | nil => exact h
  | cons entry entries ih => exact ih (h.add entry)

theorem recentList_loaded {file : Option CString} {state : List RecentEntry}
    (h : loadRecent file = some state) : RecentList state := by
  unfold loadRecent at h
  cases file with
  | none =>
    rw [← Option.some.inj h]
    exact recentList_nil
  | some json =>
    simp only at h
    split at h
    · rw [← Option.some.inj h]
      exact recentList_nil
    · obtain ⟨body, -, rfl⟩ := Option.map_eq_some_iff.mp h
      exact recentList_nil.foldl _

theorem RecentList.use {state : List RecentEntry} (h : RecentList state) {entry : RecentEntry}
    (haccepted : entry.accepted = true) :
    RecentList (useItem RecentEntry.key maxRecents state entry) where
  distinct := by
    apply List.Pairwise.sublist (List.take_sublist _ _)
    apply List.Pairwise.cons
    · intro y hy
      simpa using (List.mem_filter.mp hy).2
    · exact h.distinct.sublist List.filter_sublist
  count := by
    unfold useItem
    rw [List.length_take]
    omega
  accepted := by
    intro x hx
    rcases List.mem_cons.mp (List.mem_of_mem_take hx) with rfl | hx
    · exact haccepted
    · exact h.accepted x (List.mem_of_mem_filter hx)

end Memory

section File

/-- An entry that comes back from the file as it is. -/
structure RecentEntry.Restored (entry : RecentEntry) : Prop where
  lettered : ∀ f ∈ recentStrings entry, Lettered jsonWriteTable f.2
  titled : entry.withTitle = entry

theorem jsonGetBool_recent (entry : RecentEntry) :
    Controller.jsonGetBool (lit "resume_available") (objectText oneLine (recentFields entry))
      false = entry.resumeAvailable := by
  have hpasses : ∀ f ∈ stringFields jsonWriteTable (recentStrings entry),
      Passes (lit "resume_available") f := by
    apply (keyed_recentStrings entry).passes (by decide)
    show lit "resume_available" ∉ [lit "system_id", lit "relative_path", lit "title",
      lit "file_name", lit "path", lit "thumbnail", lit "launch_profile", lit "last_played_at"]
    decide
  obtain ⟨rest, hrest⟩ := @exists_find_objectText oneLine (lit "resume_available")
    (boolText entry.resumeAvailable) _ [] (by decide) hpasses []
  rw [List.append_nil] at hrest
  unfold Controller.jsonGetBool recentFields
  rw [hrest]
  cases entry.resumeAvailable with
  | true =>
    have hskip : skipWsRange (boolText true ++ rest) = lit "true" ++ rest := rfl
    simp only [hskip, List.prefix_append, if_true]
  | false =>
    have hskip : skipWsRange (boolText false ++ rest) = lit "false" ++ rest := rfl
    have htrue : ¬lit "true" <+: lit "false" ++ rest := by
      have ht : lit "true" = 0x74 :: lit "rue" := rfl
      have hf : lit "false" ++ rest = 0x66 :: (lit "alse" ++ rest) := rfl
      rw [ht, hf, List.cons_prefix_cons]
      exact fun h => absurd h.1 (by decide)
    simp only [hskip, htrue, List.prefix_append, if_true, if_false]

theorem readRecent_written (entry : RecentEntry) :
    readRecent (objectText oneLine (recentFields entry)) =
      { systemId := .cut (reread jsonWriteTable entry.systemId.text)
        relativePath := .cut (reread jsonWriteTable entry.relativePath.text)
        title := .cut (reread jsonWriteTable entry.title.text)
        fileName := .cut (reread jsonWriteTable entry.fileName.text)
        path := .cut (reread jsonWriteTable entry.path.text)
        thumbnail := .cut (reread jsonWriteTable entry.thumbnail.text)
        launchProfile := .cut (reread jsonWriteTable entry.launchProfile.text)
        lastPlayedAt := .cut (reread jsonWriteTable entry.lastPlayedAt.text)
        resumeAvailable := entry.resumeAvailable } := by
  have hread : ∀ {size : ℕ} [NeZero size] (key s : CString), (key, s) ∈ recentStrings entry →
      (TextUi.jsonGetString size key (objectText oneLine (recentFields entry))).into .empty =
        .cut (reread jsonWriteTable s) :=
    fun _ _ hmem => jsonGetString_recent entry hmem
  unfold readRecent
  rw [rangeDup_recent, jsonGetBool_recent]
  rw [hread (lit "system_id") entry.systemId.text (by simp [recentStrings]),
    hread (lit "relative_path") entry.relativePath.text (by simp [recentStrings]),
    hread (lit "title") entry.title.text (by simp [recentStrings]),
    hread (lit "file_name") entry.fileName.text (by simp [recentStrings]),
    hread (lit "path") entry.path.text (by simp [recentStrings]),
    hread (lit "thumbnail") entry.thumbnail.text (by simp [recentStrings]),
    hread (lit "launch_profile") entry.launchProfile.text (by simp [recentStrings]),
    hread (lit "last_played_at") entry.lastPlayedAt.text (by simp [recentStrings])]

theorem cut_reread_eq_empty {size : ℕ} [NeZero size] {b : Buffer size}
    (h : (Buffer.cut (reread jsonWriteTable b.text) : Buffer size).nonempty = false) :
    b.text = [] := by
  cases htext : b.text with
  | nil => rfl
  | cons c s =>
    have hnul : c ≠ 0 := by
      intro hc
      apply b.noNul
      rw [htext, hc]
      exact List.mem_cons_self
    have hsize : ∃ n, size - 1 = n + 1 := by
      have hfits := b.fits
      rw [htext, List.length_cons] at hfits
      exact ⟨size - 2, by omega⟩
    have hhead : ∃ d rest, reread jsonWriteTable b.text = d :: rest ∧ d ≠ 0 := by
      rw [htext]
      unfold reread
      rw [List.flatMap_cons]
      unfold recoded
      split
      · exact ⟨0x75, _, rfl, by decide⟩
      · exact ⟨c, _, rfl, hnul⟩
    obtain ⟨n, hn⟩ := hsize
    obtain ⟨d, rest, hd, hne⟩ := hhead
    rw [hd] at h
    simp [Buffer.nonempty, Buffer.cut, hn, hne] at h

theorem lettered_recentStrings {entry : RecentEntry} :
    (∀ f ∈ recentStrings entry, Lettered jsonWriteTable f.2) ↔
      readRecent (objectText oneLine (recentFields entry)) = entry := by
  rw [readRecent_written]
  obtain ⟨systemId, relativePath, title, fileName, path, thumbnail, launchProfile, lastPlayedAt,
    resumeAvailable⟩ := entry
  simp only [recentStrings, List.forall_mem_cons, List.not_mem_nil, false_imp_iff, implies_true,
    and_true, RecentEntry.mk.injEq, cut_reread_iff]

theorem withTitle_of_nonempty {entry : RecentEntry} (h : entry.title.nonempty = true) :
    entry.withTitle = entry := by
  unfold RecentEntry.withTitle
  rw [if_pos h]

theorem eq_of_withTitle {a b : RecentEntry} (h : a.withTitle = b) (htitle : a.title = b.title) :
    a = b := by
  have hkept : a = { a.withTitle with title := a.title } := by
    unfold RecentEntry.withTitle
    split <;> rfl
  rw [h, htitle] at hkept
  exact hkept

theorem restored_iff (entry : RecentEntry) :
    (readRecent (objectText oneLine (recentFields entry))).withTitle = entry ↔
      entry.Restored := by
  constructor
  · intro h
    have hback : readRecent (objectText oneLine (recentFields entry)) = entry := by
      cases hnonempty : (readRecent (objectText oneLine (recentFields entry))).title.nonempty with
      | true => rwa [withTitle_of_nonempty hnonempty] at h
      | false =>
        have hnil := hnonempty
        rw [readRecent_written] at hnil
        apply eq_of_withTitle h
        apply Buffer.eq_of_text
        rw [cut_reread_eq_empty hnil]
        simpa [Buffer.nonempty] using hnonempty
    constructor
    · exact lettered_recentStrings.mpr hback
    · rwa [hback] at h
  · intro h
    rw [lettered_recentStrings.mp h.lettered]
    exact h.titled

theorem exists_sublist_foldl (entries state : List RecentEntry) :
    ∃ added : List RecentEntry, added.Sublist entries ∧
      entries.foldl addRecent state = state ++ added.map RecentEntry.withTitle := by
  induction entries generalizing state with
  | nil => exact ⟨[], List.Sublist.refl _, by simp⟩
  | cons entry entries ih =>
    obtain ⟨added, hsub, hfold⟩ := ih (addRecent state entry)
    rw [List.foldl_cons, hfold]
    unfold addRecent
    split
    · exact ⟨entry :: added, hsub.cons_cons entry, by simp⟩
    · exact ⟨added, hsub.cons entry, rfl⟩

theorem foldl_addRecent {state entries : List RecentEntry} (h : RecentList (state ++ entries))
    (htitled : ∀ entry ∈ entries, entry.withTitle = entry) :
    entries.foldl addRecent state = state ++ entries := by
  induction entries generalizing state with
  | nil => simp
  | cons entry entries ih =>
    have hadd : addRecent state entry = state ++ [entry] := by
      have hroom : state.length < maxRecents := by
        have hcount := h.count
        rw [List.length_append, List.length_cons] at hcount
        omega
      have hnew : findRecent state entry.systemId.text entry.relativePath.text = none := by
        rw [findRecent_eq, List.findIdx?_eq_none_iff]
        intro x hx
        have hne := (List.pairwise_append.mp h.distinct).2.2 x hx entry List.mem_cons_self
        simp only [sameKey, decide_eq_false_iff_not] at hne ⊢
        exact fun heq => hne heq.symm
      have haccepted := h.accepted entry (by simp)
      unfold addRecent
      simp [hroom, haccepted, hnew, htitled entry List.mem_cons_self]
    have happend : state ++ entry :: entries = state ++ [entry] ++ entries := by simp
    rw [happend] at h ⊢
    rw [List.foldl_cons, hadd, ih h fun e he => htitled e (List.mem_cons_of_mem _ he)]

theorem loadRecent_saveRecent_iff {state : List RecentEntry} (h : RecentList state) :
    loadRecent (some (saveRecent state)) = some state ↔
      ∀ entry ∈ state, entry.Restored := by
  obtain ⟨body, hbody, hlist⟩ := Option.map_eq_some_iff.1 (objects_saveRecent state)
  have hne : saveRecent state ≠ [] := by
    intro hnil
    have hnone : jsonFindArray (lit "recents") [] = none := rfl
    rw [hnil, hnone] at hbody
    cases hbody
  have hload : loadRecent (some (saveRecent state)) =
      some ((state.map fun e => readRecent (objectText oneLine (recentFields e))).foldl
        addRecent []) := by
    simp only [loadRecent, hne, if_false, hbody, Option.map_some, hlist, List.map_map]
    rfl
  rw [hload, Option.some.injEq]
  constructor
  · intro heq entry hentry
    obtain ⟨added, hsub, hfold⟩ := exists_sublist_foldl
      (state.map fun e => readRecent (objectText oneLine (recentFields e))) []
    rw [hfold, List.nil_append] at heq
    have hlength : added.length =
        (state.map fun e => readRecent (objectText oneLine (recentFields e))).length := by
      have hlen := congrArg List.length heq
      rw [List.length_map] at hlen
      rw [hlen, List.length_map]
    rw [hsub.eq_of_length hlength, List.map_map] at heq
    apply (restored_iff entry).mp
    have hid : state.map (RecentEntry.withTitle ∘ fun e =>
        readRecent (objectText oneLine (recentFields e))) = state.map id := by
      rw [List.map_id]
      exact heq
    exact List.map_inj_left.mp hid entry hentry
  · intro hrestored
    have hread : ∀ e ∈ state, readRecent (objectText oneLine (recentFields e)) = e :=
      fun e he => lettered_recentStrings.mp (hrestored e he).lettered
    have hmap : state.map (fun e => readRecent (objectText oneLine (recentFields e))) = state := by
      conv_rhs => rw [← List.map_id state]
      exact List.map_congr_left hread
    have hfold := @foldl_addRecent [] state h fun e he => (hrestored e he).titled
    rw [hmap, hfold, List.nil_append]

end File

section Runs

variable {file : Option CString} {initial : List RecentEntry}

theorem lastLaunched_eq (h : RecentList initial) (games : List RecentGame) :
    lastLaunched initial games =
      (games.map RecentGame.entry).foldl (useItem RecentEntry.key maxRecents) initial :=
  (foldl_useItem h.distinct h.count _).symm

theorem lastLaunched_nil (h : RecentList initial) : lastLaunched initial [] = initial := by
  rw [lastLaunched_eq h, List.map_nil, List.foldl_nil]

theorem lastLaunched_append (h : RecentList initial) (games : List RecentGame)
    (game : RecentGame) : lastLaunched initial (games ++ [game]) =
      useItem RecentEntry.key maxRecents (lastLaunched initial games) game.entry := by
  rw [lastLaunched_eq h, lastLaunched_eq h, List.map_append, List.foldl_append]
  rfl

theorem RecentList.lastLaunched (h : RecentList initial) {games : List RecentGame}
    (hvalid : ∀ game ∈ games, game.entry.accepted = true) :
    RecentList (lastLaunched initial games) := by
  induction games using List.reverseRecOn with
  | nil => rwa [lastLaunched_nil h]
  | append_singleton games game ih =>
    rw [lastLaunched_append h]
    exact (ih fun g hg => hvalid g (List.mem_append_left _ hg)).use (hvalid game (by simp))

theorem mem_useItem {state : List RecentEntry} {entry e : RecentEntry}
    (h : e ∈ useItem RecentEntry.key maxRecents state entry) : e = entry ∨ e ∈ state := by
  rcases List.mem_cons.mp (List.mem_of_mem_take h) with rfl | h
  · exact Or.inl rfl
  · exact Or.inr (List.mem_of_mem_filter h)

theorem mem_useItem_self (state : List RecentEntry) (entry : RecentEntry) :
    entry ∈ useItem RecentEntry.key maxRecents state entry := by
  unfold useItem maxRecents
  rw [List.take_succ_cons]
  exact List.mem_cons_self

theorem mem_lastLaunched (h : RecentList initial) (first : RecentGame) {games : List RecentGame}
    {e : RecentEntry} (he : e ∈ lastLaunched initial (first :: games)) :
    (∃ game ∈ games, e = game.entry) ∨
      e ∈ useItem RecentEntry.key maxRecents initial first.entry := by
  induction games using List.reverseRecOn with
  | nil =>
    rw [← List.nil_append [first], lastLaunched_append h, lastLaunched_nil h] at he
    exact Or.inr he
  | append_singleton games game ih =>
    rw [← List.cons_append, lastLaunched_append h] at he
    rcases mem_useItem he with rfl | hbefore
    · exact Or.inl ⟨game, by simp, rfl⟩
    · rcases ih hbefore with ⟨other, hother, rfl⟩ | hfirst
      · exact Or.inl ⟨other, List.mem_append_left _ hother, rfl⟩
      · exact Or.inr hfirst

theorem recordGames_append (file : Option CString) (games : List RecentGame)
    (game : RecentGame) : recordGames file (games ++ [game]) =
      (recordGames file games).bind fun after => (recordGame after game).map some := by
  unfold recordGames
  rw [List.foldlM_append]
  cases List.foldlM (fun file game => (recordGame file game).map some) file games with
  | none => rfl
  | some after =>
    show (recordGame after game).map some >>= pure = _
    exact bind_pure _

theorem inOrder_append (h : RecentList initial) {games : List RecentGame} {game : RecentGame}
    (hvalid : ∀ g ∈ games ++ [game], g.entry.accepted = true)
    (hbefore : InOrder file initial games) :
    InOrder file initial (games ++ [game]) ↔
      ∀ e ∈ lastLaunched initial (games ++ [game]), e.Restored := by
  obtain ⟨after, hafter, hload⟩ := hbefore
  have hgames : ∀ g ∈ games, g.entry.accepted = true :=
    fun g hg => hvalid g (List.mem_append_left _ hg)
  have hrecord : recordGames file (games ++ [game]) =
      some (some (saveRecent (lastLaunched initial (games ++ [game])))) := by
    rw [recordGames_append, hafter, Option.bind_some]
    unfold recordGame
    rw [hload, Option.map_some, addRecentEntry_eq (h.lastLaunched hgames), lastLaunched_append h]
    rfl
  rw [← loadRecent_saveRecent_iff (h.lastLaunched hvalid)]
  unfold InOrder
  rw [hrecord]
  constructor
  · rintro ⟨_, heq, hread⟩
    rwa [← Option.some.inj heq] at hread
  · intro hread
    exact ⟨_, rfl, hread⟩

/-- After every launch of any run the list read back is the distinct games by their last launch,
cut at `MAX_RECENTS`, exactly if what is launched, and what the first launch leaves of the old
list, has no text that the file changes. -/
theorem recents_by_last_launch (hinitial : loadRecent file = some initial)
    {games : List RecentGame} (hvalid : ∀ game ∈ games, game.entry.accepted = true) :
    (∀ launched, launched <+: games → InOrder file initial launched) ↔
      (∀ game ∈ games, game.entry.Restored) ∧
      ∀ first ∈ games.head?, ∀ e ∈ addRecentEntry initial first.entry, e.Restored := by
  have h := recentList_loaded hinitial
  have hagree : ∀ launched, launched <+: games → ∀ g ∈ launched, g.entry.accepted = true :=
    fun launched hl g hg => hvalid g (hl.subset hg)
  constructor
  · intro hall
    have hwritten : ∀ before game, before ++ [game] <+: games →
        ∀ e ∈ lastLaunched initial (before ++ [game]), e.Restored := by
      intro before game hl
      have hshorter := hall before ((List.prefix_append before [game]).trans hl)
      exact (inOrder_append h (hagree _ hl) hshorter).mp (hall _ hl)
    constructor
    · intro game hgame
      obtain ⟨before, behind, rfl⟩ := List.append_of_mem hgame
      apply hwritten before game ⟨behind, by simp⟩
      rw [lastLaunched_append h]
      exact mem_useItem_self _ _
    · intro first hfirst e he
      obtain ⟨behind, rfl⟩ : ∃ behind, games = first :: behind := by
        cases games with
        | nil => cases hfirst
        | cons game behind =>
          cases hfirst
          exact ⟨behind, rfl⟩
      apply hwritten [] first ⟨behind, rfl⟩
      rwa [lastLaunched_append h, lastLaunched_nil h, ← addRecentEntry_eq h]
  · rintro ⟨hgames, hfirst⟩ launched hl
    induction launched using List.reverseRecOn with
    | nil =>
      refine ⟨file, rfl, ?_⟩
      rw [lastLaunched_nil h, hinitial]
    | append_singleton before game ih =>
      have hbefore := ih ((List.prefix_append before [game]).trans hl)
      apply (inOrder_append h (hagree _ hl) hbefore).mpr
      intro e he
      obtain ⟨first, middle, hcons⟩ : ∃ first middle, before ++ [game] = first :: middle := by
        cases before with
        | nil => exact ⟨game, [], rfl⟩
        | cons first before => exact ⟨first, before ++ [game], rfl⟩
      rw [hcons] at he hl
      rcases mem_lastLaunched h first he with ⟨other, hother, rfl⟩ | hstart
      · exact hgames other (hl.subset (List.mem_cons_of_mem _ hother))
      · have hhead : games.head? = some first := by
          obtain ⟨behind, rfl⟩ := hl
          rfl
        apply hfirst first hhead
        rwa [addRecentEntry_eq h]

/-- A game of the system `nes`. -/
def nesGame (name : String) : RecentGame where
  systemId := lit "nes"
  rom :=
    { title := .cut (lit name)
      fileName := .cut (lit name)
      relativePath := .cut (lit "FC/" ++ lit name)
      path := .cut (lit "/mnt/SDCARD/Roms/FC/" ++ lit name)
      thumbnail := .empty }
  launchProfile := lit "retroarch:fceumm"
  playedAt := lit "2026-01-01T00:00:00"

theorem recents_by_last_launch_sample :
    InOrder none [] [nesGame "a.nes", nesGame "b.nes", nesGame "a.nes"] := by
  have hvalid : ∀ game ∈ [nesGame "a.nes", nesGame "b.nes", nesGame "a.nes"],
      game.entry.accepted = true := by decide +kernel
  have hrestored : ∀ game ∈ [nesGame "a.nes", nesGame "b.nes", nesGame "a.nes"],
      game.entry.Restored := by
    intro game hgame
    have hlettered : ∀ game ∈ [nesGame "a.nes", nesGame "b.nes", nesGame "a.nes"],
        ∀ f ∈ recentStrings game.entry, Lettered jsonWriteTable f.2 := by decide +kernel
    have htitle : ∀ game ∈ [nesGame "a.nes", nesGame "b.nes", nesGame "a.nes"],
        game.entry.title.nonempty = true := by decide +kernel
    exact ⟨hlettered game hgame, withTitle_of_nonempty (htitle game hgame)⟩
  have hload : loadRecent none = some [] := rfl
  apply (recents_by_last_launch hload hvalid).mpr
  · constructor
    · exact hrestored
    · intro first hfirst e he
      have hfirst' : nesGame "a.nes" = first := Option.some.inj hfirst
      have hmem : e = (nesGame "a.nes").entry := by
        rw [← hfirst'] at he
        exact List.mem_singleton.mp he
      rw [hmem]
      exact hrestored _ List.mem_cons_self
  · exact List.prefix_rfl

/-- A list with one game, whose name has a control character. -/
def controlFile : CString :=
  lit "\x7b \"recents\": [ \x7b \"system_id\": \"nes\", \"relative_path\": \"FC/a" ++ [0x01] ++
    lit ".nes\", \"launch_profile\": \"retroarch:fceumm\" \x7d ] \x7d"

/-- Launching another game changes the name of the one that was there. -/
theorem recents_not_in_order :
    ∃ initial, loadRecent (some controlFile) = some initial ∧
      (nesGame "b.nes").entry.accepted = true ∧
      ¬InOrder (some controlFile) initial [nesGame "b.nes"] := by
  cases hload : loadRecent (some controlFile) with
  | none =>
    have hsome : (loadRecent (some controlFile)).isSome = true := by decide +kernel
    rw [hload] at hsome
    cases hsome
  | some initial =>
    have h := recentList_loaded hload
    have hvalid : ∀ g ∈ [] ++ [nesGame "b.nes"], g.entry.accepted = true := by decide +kernel
    have hstart : InOrder (some controlFile) initial [] :=
      ⟨_, rfl, by rw [lastLaunched_nil h, hload]⟩
    refine ⟨initial, rfl, hvalid _ (by simp), ?_⟩
    intro hkept
    have hrestored := (inOrder_append h hvalid hstart).mp hkept
    have hlost : ∃ e ∈ lastLaunched ((loadRecent (some controlFile)).getD [])
        ([] ++ [nesGame "b.nes"]), ¬Lettered jsonWriteTable e.relativePath.text := by
      decide +kernel
    rw [hload] at hlost
    obtain ⟨e, he, hnot⟩ := hlost
    apply hnot
    exact (hrestored e he).lettered (lit "relative_path", e.relativePath.text)
      (by simp [recentStrings])

end Runs

end PlumosBubble.Frontend.TextUi
