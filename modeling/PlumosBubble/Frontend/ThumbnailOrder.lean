import PlumosBubble.Frontend.Reordered

/-! `find_thumbnail` and the order of directories. It tries a list of candidates; where none has
the name of a candidate as it is, the first name in the directory that differs from it in case
only is taken, and this one depends on the order if there are several. -/

namespace PlumosBubble.Frontend

/-- The file that a name in the directory of a candidate stands for, where it differs from the
candidate in case only. -/
def Disk.imageAt (disk : Disk) (parent base name : CString) : Option CString :=
  if ignoredSidecarName name || !equalCi name base then none
  else (joinPath pathMax parent name).filter disk.isRegularFile

/-- All these files, in the order of the directory. -/
def Disk.images (disk : Disk) (candidate : CString) : List CString :=
  match pathParent pathMax candidate with
  | none => []
  | some parent => (disk.names parent).filterMap (disk.imageAt parent (pathBasename candidate))

/-- The paths that `find_thumbnail_in_dir` tries for one stem. -/
def stemCandidates (artDir stem : CString) : List CString :=
  imageExts.filterMap fun ext => do
    let name ← buildStemExtName pathMax stem ext
    joinPath pathMax artDir name

/-- The directories that `find_thumbnail` looks into. -/
def artDirs (plumosRoot sdcardRoot : CString) (artwork : List ArtworkLookup)
    (directoryAlias : CString) : List CString :=
  (aliasArtDir sdcardRoot directoryAlias).toList ++
    artwork.filterMap (resolveArtworkDir plumosRoot sdcardRoot)

/-- The paths that `find_thumbnail` tries. -/
def thumbnailCandidates (plumosRoot sdcardRoot : CString) (artwork : List ArtworkLookup)
    (directoryAlias relativeStem flatStem : CString) : List CString :=
  (artDirs plumosRoot sdcardRoot artwork directoryAlias).flatMap fun artDir =>
    stemCandidates artDir relativeStem ++ stemCandidates artDir flatStem

/-- The first candidate for which there is an image has one under its own name, or only one. -/
def Disk.Clear (disk : Disk) : List CString → Prop
  | [] => True
  | candidate :: rest =>
    disk.isRegularFile candidate = true ∨
      (disk.images candidate = [] ∧ disk.Clear rest) ∨
        (disk.images candidate ≠ [] ∧ ∀ a ∈ disk.images candidate, ∀ b ∈ disk.images candidate,
          a = b)

section Search

variable {disk disk' : Disk}

theorem findSome?_flatMap {α β γ : Type} (f : β → Option γ) (g : α → List β) (xs : List α) :
    (xs.flatMap g).findSome? f = xs.findSome? fun x => (g x).findSome? f := by
  induction xs with
  | nil => rfl
  | cons x xs ih =>
    rw [List.flatMap_cons, List.findSome?_append, ih, List.findSome?_cons]
    cases (g x).findSome? f <;> rfl

theorem findSome?_filterMap {α β γ : Type} (f : β → Option γ) (g : α → Option β) (xs : List α) :
    (xs.filterMap g).findSome? f = xs.findSome? fun x => (g x).bind f := by
  induction xs with
  | nil => rfl
  | cons x xs ih =>
    rw [List.filterMap_cons, List.findSome?_cons]
    cases g x with
    | none => exact ih
    | some b =>
      rw [List.findSome?_cons, ih]
      rfl

theorem findImage_eq (disk : Disk) (artDir stem : CString) :
    findImage disk imageExts artDir stem =
      (stemCandidates artDir stem).findSome? (disk.findCaseInsensitiveFile pathMax) := by
  unfold findImage stemCandidates
  rw [findSome?_filterMap]
  congr 1
  funext ext
  exact (Option.bind_assoc _ _ _).symm

theorem findThumbnail_eq (disk : Disk) (plumosRoot sdcardRoot : CString)
    (artwork : List ArtworkLookup) (directoryAlias relativeStem flatStem : CString) :
    findThumbnail disk plumosRoot sdcardRoot artwork directoryAlias relativeStem flatStem =
      (thumbnailCandidates plumosRoot sdcardRoot artwork directoryAlias relativeStem
        flatStem).findSome? (disk.findCaseInsensitiveFile pathMax) := by
  have hdir : (fun artDir => (stemCandidates artDir relativeStem ++
      stemCandidates artDir flatStem).findSome? (disk.findCaseInsensitiveFile pathMax)) =
        fun artDir => findThumbnailInDir disk artDir relativeStem flatStem := by
    funext artDir
    rw [List.findSome?_append, ← findImage_eq, ← findImage_eq]
    rfl
  unfold thumbnailCandidates artDirs findThumbnail
  rw [findSome?_flatMap, hdir, List.findSome?_append, findSome?_filterMap]
  congr 1
  cases aliasArtDir sdcardRoot directoryAlias with
  | none => rfl
  | some artDir =>
    rw [Option.toList_some, List.findSome?_singleton]
    rfl

theorem joinPath_fits {a b out : CString} (h : joinPath pathMax a b = some out) :
    out.length + 1 ≤ pathMax := by
  unfold joinPath at h
  split_ifs at h
  · obtain ⟨rfl, hfits⟩ := copyString_eq_some.mp h
    exact hfits
  · obtain ⟨rfl, hfits⟩ := copyString_eq_some.mp h
    exact hfits

theorem images_eq {candidate parent : CString}
    (hparent : pathParent pathMax candidate = some parent) :
    disk.images candidate =
      (disk.names parent).filterMap (disk.imageAt parent (pathBasename candidate)) := by
  unfold Disk.images
  rw [hparent]

theorem mem_images {candidate image : CString} :
    image ∈ disk.images candidate ↔ ∃ parent, pathParent pathMax candidate = some parent ∧
      ∃ name ∈ disk.names parent,
        disk.imageAt parent (pathBasename candidate) name = some image := by
  unfold Disk.images
  cases pathParent pathMax candidate with
  | none => simp
  | some parent => simp [List.mem_filterMap]

theorem imageAt_some {parent base name image : CString}
    (h : disk.imageAt parent base name = some image) :
    joinPath pathMax parent name = some image ∧ disk.isRegularFile image = true := by
  unfold Disk.imageAt at h
  split_ifs at h
  exact Option.filter_eq_some_iff.mp h

theorem mem_images_fits {candidate image : CString} (h : image ∈ disk.images candidate) :
    copyString pathMax image = some image := by
  obtain ⟨parent, -, name, -, hname⟩ := mem_images.mp h
  exact copyString_eq_some.mpr ⟨rfl, joinPath_fits (imageAt_some hname).1⟩

theorem findCaseInsensitiveFile_eq (disk : Disk) (candidate : CString) :
    disk.findCaseInsensitiveFile pathMax candidate =
      if disk.isRegularFile candidate = true then copyString pathMax candidate
      else (disk.images candidate).head? := by
  unfold Disk.findCaseInsensitiveFile
  split_ifs with hregular
  · rfl
  cases hparent : pathParent pathMax candidate with
  | none =>
    unfold Disk.images
    rw [hparent]
    rfl
  | some parent =>
    have himages := @images_eq disk _ _ hparent
    cases hnames : disk.readdir parent with
    | none =>
      rw [himages]
      unfold Disk.names
      dsimp only
      rw [hnames]
      rfl
    | some names =>
      unfold Disk.names at himages
      rw [hnames, Option.getD_some] at himages
      rw [himages, List.head?_filterMap]
      dsimp only
      rw [hnames]
      show (names.findSome? (disk.imageAt parent (pathBasename candidate))).bind _ = _
      cases hfound : names.findSome? (disk.imageAt parent (pathBasename candidate)) with
      | none => rfl
      | some image =>
        obtain ⟨before, name, after, rfl, hname, -⟩ := List.findSome?_eq_some_iff.mp hfound
        apply mem_images_fits
        rw [himages]
        exact List.mem_filterMap.mpr ⟨name, by simp, hname⟩

theorem Reordered.imageAt (h : Reordered disk disk') (parent base name : CString) :
    disk'.imageAt parent base name = disk.imageAt parent base name := by
  have hregular : disk'.isRegularFile = disk.isRegularFile := funext h.isRegularFile
  unfold Disk.imageAt
  rw [hregular]

theorem Reordered.images (h : Reordered disk disk') (candidate : CString) :
    (disk.images candidate).Perm (disk'.images candidate) := by
  unfold Disk.images
  cases pathParent pathMax candidate with
  | none => exact List.Perm.refl _
  | some parent =>
    have hsame : disk'.imageAt parent (pathBasename candidate) =
        disk.imageAt parent (pathBasename candidate) :=
      funext fun name => h.imageAt parent (pathBasename candidate) name
    dsimp only
    rw [hsame]
    exact (h.names parent).filterMap _

theorem find_regular {candidate : CString} (hfits : candidate.length + 1 ≤ pathMax)
    (hregular : disk.isRegularFile candidate = true) :
    disk.findCaseInsensitiveFile pathMax candidate = some candidate := by
  rw [findCaseInsensitiveFile_eq, if_pos hregular]
  exact copyString_eq_some.mpr ⟨rfl, hfits⟩

theorem find_images {candidate : CString} (hregular : ¬disk.isRegularFile candidate = true) :
    disk.findCaseInsensitiveFile pathMax candidate = (disk.images candidate).head? := by
  rw [findCaseInsensitiveFile_eq, if_neg hregular]

theorem Disk.Clear.find (h : Reordered disk disk') {candidates : List CString}
    (hfits : ∀ candidate ∈ candidates, candidate.length + 1 ≤ pathMax)
    (hclear : disk.Clear candidates) :
    candidates.findSome? (disk'.findCaseInsensitiveFile pathMax) =
      candidates.findSome? (disk.findCaseInsensitiveFile pathMax) := by
  induction candidates with
  | nil => rfl
  | cons candidate rest ih =>
    rw [List.findSome?_cons, List.findSome?_cons]
    by_cases hregular : disk.isRegularFile candidate = true
    · have hfit := hfits candidate List.mem_cons_self
      rw [find_regular hfit hregular, find_regular hfit ((h.isRegularFile _).trans hregular)]
    · have hregular' : ¬disk'.isRegularFile candidate = true := by
        rw [h.isRegularFile]
        exact hregular
      have hperm := h.images candidate
      rw [find_images hregular, find_images hregular']
      rcases hclear.resolve_left hregular with ⟨hnil, hrest⟩ | ⟨hne, hsame⟩
      · rw [hnil] at hperm
        rw [hnil, hperm.nil_eq.symm]
        exact ih (fun c hc => hfits c (List.mem_cons_of_mem _ hc)) hrest
      · obtain ⟨image, hhead⟩ := List.exists_mem_of_ne_nil _ hne
        have hall : ∀ images : List CString, images ≠ [] → (∀ a ∈ images, a = image) →
            images.head? = some image := by
          intro images hne hall
          rw [List.head?_eq_some_head hne, hall _ (List.head_mem hne)]
        have hne' : disk'.images candidate ≠ [] := by
          intro hnil
          rw [hnil] at hperm
          exact hne hperm.eq_nil
        rw [hall _ hne fun a ha => hsame a ha image hhead,
          hall _ hne' fun a ha => hsame a (hperm.mem_iff.mpr ha) image hhead]

theorem exists_images {candidates : List CString}
    (hclear : ¬disk.Clear candidates) :
    ∃ candidate parent, pathParent pathMax candidate = some parent ∧
      (∃ a b x y, a ∈ disk.names parent ∧ b ∈ disk.names parent ∧
        disk.imageAt parent (pathBasename candidate) a = some x ∧
        disk.imageAt parent (pathBasename candidate) b = some y ∧ x ≠ y) ∧
      ∀ disk', Reordered disk disk' →
        candidates.findSome? (disk'.findCaseInsensitiveFile pathMax) =
          (disk'.names parent).findSome? (disk.imageAt parent (pathBasename candidate)) := by
  induction candidates with
  | nil => exact absurd trivial hclear
  | cons candidate rest ih =>
    simp only [Disk.Clear, not_or, not_and] at hclear
    obtain ⟨hregular, hrest, htwo⟩ := hclear
    have hregular' : ∀ disk', Reordered disk disk' → ¬disk'.isRegularFile candidate = true := by
      intro disk' h
      rw [h.isRegularFile]
      exact hregular
    by_cases hnil : disk.images candidate = []
    · obtain ⟨c, parent, hparent, hboth, hfind⟩ := ih (hrest hnil)
      refine ⟨c, parent, hparent, hboth, fun disk' h => ?_⟩
      have hperm := h.images candidate
      rw [hnil] at hperm
      rw [List.findSome?_cons, find_images (hregular' disk' h), hperm.nil_eq.symm]
      exact hfind disk' h
    · have hboth := htwo hnil
      push Not at hboth
      obtain ⟨x, hx, y, hy, hne⟩ := hboth
      obtain ⟨parent, hparent, a, ha, hax⟩ := mem_images.mp hx
      obtain ⟨parent', hparent', b, hb, hby⟩ := mem_images.mp hy
      obtain rfl : parent = parent' := Option.some_inj.mp (hparent.symm.trans hparent')
      refine ⟨candidate, parent, hparent, ⟨a, b, x, y, ha, hb, hax, hby, hne⟩, fun disk' h => ?_⟩
      have hsame : disk'.imageAt parent (pathBasename candidate) =
          disk.imageAt parent (pathBasename candidate) :=
        funext fun name => h.imageAt parent (pathBasename candidate) name
      have hne' : disk'.images candidate ≠ [] := by
        intro hnil'
        have hperm := h.images candidate
        rw [hnil'] at hperm
        exact hnil hperm.eq_nil
      have hhead : (disk'.names parent).findSome? (disk.imageAt parent (pathBasename candidate)) =
          (disk'.images candidate).head? := by
        rw [images_eq hparent, List.head?_filterMap, hsame]
      rw [List.findSome?_cons, find_images (hregular' disk' h), hhead,
        List.head?_eq_some_head hne']

theorem thumbnailCandidates_fit {plumosRoot sdcardRoot : CString} {artwork : List ArtworkLookup}
    {directoryAlias relativeStem flatStem candidate : CString}
    (h : candidate ∈ thumbnailCandidates plumosRoot sdcardRoot artwork directoryAlias relativeStem
      flatStem) : candidate.length + 1 ≤ pathMax := by
  have hstem : ∀ {artDir stem : CString}, candidate ∈ stemCandidates artDir stem →
      candidate.length + 1 ≤ pathMax := by
    intro artDir stem hmem
    obtain ⟨ext, -, hext⟩ := List.mem_filterMap.mp hmem
    obtain ⟨name, -, hjoin⟩ := Option.bind_eq_some_iff.mp hext
    exact joinPath_fits hjoin
  obtain ⟨artDir, -, hmem⟩ := List.mem_flatMap.mp h
  rcases List.mem_append.mp hmem with hmem | hmem
  · exact hstem hmem
  · exact hstem hmem

end Search

end PlumosBubble.Frontend
