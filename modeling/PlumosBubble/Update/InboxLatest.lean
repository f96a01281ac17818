import PlumosBubble.Update.InboxRecords
import PlumosBubble.Update.Precedence

/-! What `request_latest` asks for: the newest package of the inbox that passes its inspection,
which is never a downgrade. -/

namespace PlumosBubble.Update.Inbox

open Script

variable {station : Station}

/-- A package that is accepted does not come before the installed version. -/
theorem installed_le_of_inspect {file : InboxFile} {item : Item} {v w : Version} (hv : v.Fits)
    (hw : w.Fits) (hversion : item.version = .str v.text) (hinstalled : station.version = w.text)
    (h : inspect station file = .ok item) : w.precedence ≤ v.precedence := by
  unfold inspect at h
  obtain ⟨fields, -, h⟩ := bind_eq_ok_iff.mp h
  obtain ⟨_, hcompatible, h⟩ := bind_eq_ok_iff.mp h
  obtain ⟨sha256, -, h⟩ := bind_eq_ok_iff.mp h
  obtain ⟨packageType, -, h⟩ := bind_eq_ok_iff.mp h
  obtain ⟨version, hfield, h⟩ := bind_eq_ok_iff.mp h
  obtain ⟨bytes, -, h⟩ := bind_eq_ok_iff.mp h
  cases h
  cases hversion
  obtain ⟨text, hsource, hrest⟩ := bind_eq_ok_iff.mp hcompatible
  obtain ⟨_, hcompare, -⟩ := bind_eq_ok_iff.mp hrest
  have htext : text = v.text := by
    unfold checkSource at hsource
    obtain ⟨vendor, -, hsource⟩ := bind_eq_ok_iff.mp hsource
    obtain ⟨_, -, hsource⟩ := bind_eq_ok_iff.mp hsource
    obtain ⟨_, -, hsource⟩ := bind_eq_ok_iff.mp hsource
    obtain ⟨_, -, hsource⟩ := bind_eq_ok_iff.mp hsource
    obtain ⟨version, hagain, hsource⟩ := bind_eq_ok_iff.mp hsource
    rw [hfield] at hagain
    cases hagain
    cases hsource
    rfl
  subst htext
  unfold compareVersions at hcompare
  obtain ⟨key, hkey, hcompare⟩ := bind_eq_ok_iff.mp hcompare
  obtain ⟨key', hkey', hcompare⟩ := bind_eq_ok_iff.mp hcompare
  rw [versionKey_eq_ok, semanticVersionKey_text v hv] at hkey
  rw [hinstalled, versionKey_eq_ok, semanticVersionKey_text w hw] at hkey'
  cases hkey
  cases hkey'
  rw [keyLt_key] at hcompare
  have hdowngrade := check_eq_ok.mp hcompare
  simpa using hdowngrade

theorem reports_of_scanPackages {files : List InboxFile} {records : List PackageRecord}
    (h : scanPackages station files = .ok records) :
    List.Forall₂ (Reports station) (sortedFiles files) records := by
  refine (mapM_eq_ok_iff.mp h).imp fun file record hrecord => ?_
  obtain ⟨other, hother, hreports⟩ := (scanFile_iff file).mpr (not_aborts_of_scanFile hrecord)
  rw [hrecord] at hother
  cases hother
  exact hreports

end PlumosBubble.Update.Inbox
