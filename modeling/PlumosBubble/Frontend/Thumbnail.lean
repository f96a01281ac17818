import PlumosBubble.Frontend.Disk

/-! `find_thumbnail` of `plumos_library_scan.c`: the directory alias first, then the
artwork directories of the system. -/

namespace PlumosBubble.Frontend

/-- `struct artwork_lookup`. -/
structure ArtworkLookup where
  root : CString
  path : CString
  deriving DecidableEq

/-- The image extensions of `find_thumbnail_in_dir`. -/
def imageExts : List CString :=
  [lit "png", lit "jpg", lit "jpeg", lit "webp"]

/-- The first image of this stem in `artDir`, over the extensions. -/
def findImage (disk : Disk) (exts : List CString) (artDir stem : CString) : Option CString :=
  exts.findSome? fun ext => do
    let name ← buildStemExtName pathMax stem ext
    let stemPath ← joinPath pathMax artDir name
    disk.findCaseInsensitiveFile pathMax stemPath

/-- `find_thumbnail_in_dir`, into a buffer of `PATH_MAX` bytes. -/
def findThumbnailInDir (disk : Disk) (artDir relativeStem flatStem : CString) : Option CString :=
  (findImage disk imageExts artDir relativeStem).or (findImage disk imageExts artDir flatStem)

/-- `resolve_artwork_dir`, into a buffer of `PATH_MAX` bytes. -/
def resolveArtworkDir (plumosRoot sdcardRoot : CString) (lookup : ArtworkLookup) :
    Option CString :=
  if lookup.path.head? = some slash then copyString pathMax lookup.path
  else if lookup.root = lit "plumos" then
    joinPath pathMax plumosRoot lookup.path
  else if lookup.root = lit "sdcard" then
    joinPath pathMax sdcardRoot lookup.path
  else none

/-- The artwork directory of a ROM directory. -/
def aliasArtDir (sdcardRoot directoryAlias : CString) : Option CString :=
  if directoryAlias = [] then none
  else do
    let imagesDir ← joinPath pathMax sdcardRoot (lit "Images")
    joinPath pathMax imagesDir directoryAlias

/-- `find_thumbnail`. -/
def findThumbnail (disk : Disk) (plumosRoot sdcardRoot : CString) (artwork : List ArtworkLookup)
    (directoryAlias relativeStem flatStem : CString) : Option CString :=
  ((aliasArtDir sdcardRoot directoryAlias).bind fun artDir =>
    findThumbnailInDir disk artDir relativeStem flatStem).or
  (artwork.findSome? fun lookup =>
    (resolveArtworkDir plumosRoot sdcardRoot lookup).bind fun artDir =>
      findThumbnailInDir disk artDir relativeStem flatStem)

end PlumosBubble.Frontend
