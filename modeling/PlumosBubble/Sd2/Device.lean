import Mathlib.Data.List.DropRight
import PlumosBubble.Frontend.CString

/-! `device_disk` of `plumos-bubble-mount-sd2`: the disk of a partition, from the names that
the kernel gives to MMC and SCSI disks. -/

namespace PlumosBubble.Sd2

open Frontend

def digit (c : UInt8) : Bool := 0x30 ≤ c && c ≤ 0x39
def letterP : UInt8 := 0x70

/-- The pattern `*p[0-9]*`. -/
def hasPartMark : CString → Bool
  | c :: d :: s => c = letterP && digit d || hasPartMark (d :: s)
  | _ => false

/-- The pattern `/mmcblk*p[0-9]*`. -/
def startsMmcPart (s : CString) : Bool := (afterStart (lit "/mmcblk") s).any hasPartMark

/-- The pattern `*/mmcblk*p[0-9]*`. -/
def isMmcPart (s : CString) : Bool := s.tails.any startsMmcPart

/-- The pattern `/dev/sd*[0-9]`. -/
def isSdPart (s : CString) : Bool :=
  (afterStart (lit "/dev/sd") s).any fun rest => rest.getLast?.any digit

/-- `${candidate%p*}`. -/
def beforeLastP (s : CString) : CString :=
  match splitLast letterP s with
  | some (before, _) => before
  | none => s

/-- `device_disk`. -/
def deviceDisk (candidate : CString) : CString :=
  if isMmcPart candidate then beforeLastP candidate
  else if isSdPart candidate then candidate.rdropWhile digit
  else candidate

/-- The kernel's name of a disk, and the names of the disk and its partitions. -/
inductive OnDisk : CString → CString → Prop
  | mmc {n : CString} : (∀ c ∈ n, digit c = true) →
      OnDisk (lit "/dev/mmcblk" ++ n) (lit "/dev/mmcblk" ++ n)
  | mmcPart {n part : CString} : (∀ c ∈ n, digit c = true) → part ≠ [] →
      (∀ c ∈ part, digit c = true) →
      OnDisk (lit "/dev/mmcblk" ++ n) (lit "/dev/mmcblk" ++ n ++ letterP :: part)
  | sd {n : CString} : (∀ c ∈ n, digit c = false ∧ c ≠ slash) →
      OnDisk (lit "/dev/sd" ++ n) (lit "/dev/sd" ++ n)
  | sdPart {n part : CString} : n ≠ [] → (∀ c ∈ n, digit c = false ∧ c ≠ slash) → part ≠ [] →
      (∀ c ∈ part, digit c = true) →
      OnDisk (lit "/dev/sd" ++ n) (lit "/dev/sd" ++ n ++ part)

section Names

theorem lit_mmcblk : lit "/mmcblk" = [0x2f, 0x6d, 0x6d, 0x63, 0x62, 0x6c, 0x6b] := by
  decide +kernel

theorem lit_dev_mmcblk :
    lit "/dev/mmcblk" = [0x2f, 0x64, 0x65, 0x76, 0x2f, 0x6d, 0x6d, 0x63, 0x62, 0x6c, 0x6b] := by
  decide +kernel

theorem lit_dev_sd : lit "/dev/sd" = [0x2f, 0x64, 0x65, 0x76, 0x2f, 0x73, 0x64] := by
  decide +kernel

theorem digit_ne_slash {c : UInt8} (h : digit c = true) : c ≠ slash := by
  rintro rfl
  revert h
  decide

theorem digit_ne_p {c : UInt8} (h : digit c = true) : c ≠ letterP := by
  rintro rfl
  revert h
  decide

theorem startsMmcPart_other {c : UInt8} {s : CString} (h : c ≠ slash) :
    startsMmcPart (c :: s) = false := by
  have hnot : ¬lit "/mmcblk" <+: c :: s := by
    rw [lit_mmcblk, List.cons_prefix_cons]
    exact fun hpre => h hpre.1.symm
  simp [startsMmcPart, afterStart, hnot]

/-- Without a slash there is no `/mmcblk` either. -/
theorem tails_no_mmc {s : CString} (h : ∀ c ∈ s, c ≠ slash) :
    s.tails.any startsMmcPart = false := by
  induction s with
  | nil => decide +kernel
  | cons c s ih =>
    rw [List.tails_cons, List.any_cons, startsMmcPart_other (h c List.mem_cons_self),
      ih fun d hd => h d (List.mem_cons_of_mem _ hd)]
    rfl

theorem hasPartMark_digits {n : CString} (h : ∀ c ∈ n, digit c = true) :
    hasPartMark n = false := by
  induction n with
  | nil => rfl
  | cons c n ih =>
    cases n with
    | nil => rfl
    | cons d n =>
      have hc : c ≠ letterP := digit_ne_p (h c List.mem_cons_self)
      rw [hasPartMark, ih fun e he => h e (List.mem_cons_of_mem _ he)]
      simp [hc]

theorem hasPartMark_part {n part : CString} (hpart : part ≠ [])
    (hdigits : ∀ c ∈ part, digit c = true) : hasPartMark (n ++ letterP :: part) = true := by
  induction n with
  | nil =>
    cases part with
    | nil => exact absurd rfl hpart
    | cons d part => simp [hasPartMark, hdigits d List.mem_cons_self]
  | cons c n ih =>
    cases n with
    | nil => simp only [List.cons_append, List.nil_append, hasPartMark] at ih ⊢; simp [ih]
    | cons d n => simp only [List.cons_append, hasPartMark] at ih ⊢; simp [ih]

/-- In a name of an MMC disk only the part behind `mmcblk` matters. -/
theorem isMmcPart_mmc {w : CString} (h : ∀ c ∈ w, c ≠ slash) :
    isMmcPart (lit "/dev/mmcblk" ++ w) = hasPartMark w := by
  have htail : startsMmcPart (lit "/mmcblk" ++ w) = hasPartMark w := by
    simp [startsMmcPart, afterStart]
  have hwhole : startsMmcPart (lit "/dev/mmcblk" ++ w) = false := by
    have hnot : ¬lit "/mmcblk" <+: lit "/dev/mmcblk" ++ w := by
      rw [lit_mmcblk, lit_dev_mmcblk]
      simp [List.cons_prefix_cons]
    simp [startsMmcPart, afterStart, hnot]
  rw [lit_mmcblk] at htail
  rw [lit_dev_mmcblk] at hwhole ⊢
  simp only [List.cons_append, List.nil_append] at htail hwhole
  simp only [isMmcPart, List.cons_append, List.nil_append, List.tails_cons, List.any_cons,
    hwhole, htail, tails_no_mmc h]
  rw [startsMmcPart_other (by decide), startsMmcPart_other (by decide),
    startsMmcPart_other (by decide), startsMmcPart_other (by decide),
    startsMmcPart_other (by decide), startsMmcPart_other (by decide),
    startsMmcPart_other (by decide), startsMmcPart_other (by decide),
    startsMmcPart_other (by decide)]
  simp

theorem isMmcPart_sd {w : CString} (h : ∀ c ∈ w, c ≠ slash) :
    isMmcPart (lit "/dev/sd" ++ w) = false := by
  have hno : ∀ s : CString, ¬lit "/mmcblk" <+: s → startsMmcPart s = false := by
    intro s hs
    simp [startsMmcPart, afterStart, hs]
  rw [lit_dev_sd]
  simp only [isMmcPart, List.cons_append, List.nil_append, List.tails_cons, List.any_cons,
    tails_no_mmc h]
  rw [hno _ (by rw [lit_mmcblk]; simp [List.cons_prefix_cons]),
    hno (0x2f :: 0x73 :: _) (by rw [lit_mmcblk]; simp [List.cons_prefix_cons]),
    startsMmcPart_other (by decide), startsMmcPart_other (by decide),
    startsMmcPart_other (by decide), startsMmcPart_other (by decide),
    startsMmcPart_other (by decide)]
  rfl

theorem afterStart_append (start rest : CString) :
    afterStart start (start ++ rest) = some rest := by
  simp [afterStart]

theorem isSdPart_sd (w : CString) : isSdPart (lit "/dev/sd" ++ w) = w.getLast?.any digit := by
  simp [isSdPart, afterStart_append]

theorem isSdPart_mmc (w : CString) : isSdPart (lit "/dev/mmcblk" ++ w) = false := by
  have hnot : ¬lit "/dev/sd" <+: lit "/dev/mmcblk" ++ w := by
    rw [lit_dev_sd, lit_dev_mmcblk]
    simp [List.cons_prefix_cons]
  simp [isSdPart, afterStart, hnot]

theorem rdropWhile_digits {front part : CString} (h : ∀ c ∈ part, digit c = true) :
    (front ++ part).rdropWhile digit = front.rdropWhile digit := by
  induction part using List.reverseRecOn with
  | nil => rw [List.append_nil]
  | append_singleton part c ih =>
    rw [← List.append_assoc, List.rdropWhile_concat_pos _ _ _ (h c (by simp))]
    exact ih fun d hd => h d (by simp [hd])

/-- `device_disk` finds the disk of a kernel name. -/
theorem deviceDisk_onDisk {disk device : CString} (h : OnDisk disk device) :
    deviceDisk device = disk := by
  unfold deviceDisk
  cases h with
  | @mmc n hn =>
    rw [isMmcPart_mmc fun c hc => digit_ne_slash (hn c hc), hasPartMark_digits hn, isSdPart_mmc]
    simp
  | @mmcPart n part hn hne hpart =>
    have hslash : ∀ c ∈ n ++ letterP :: part, c ≠ slash := by
      intro c hc
      rcases List.mem_append.mp hc with hc | hc
      · exact digit_ne_slash (hn c hc)
      · rcases List.mem_cons.mp hc with rfl | hc
        · decide
        · exact digit_ne_slash (hpart c hc)
    rw [List.append_assoc, isMmcPart_mmc hslash, hasPartMark_part hne hpart, if_pos rfl,
      beforeLastP, ← List.append_assoc,
      splitLast_eq_some.mpr ⟨rfl, fun hmem => digit_ne_p (hpart _ hmem) rfl⟩]
  | @sd n hn =>
    have hlast : n.getLast?.any digit = false := by
      cases hlast : n.getLast? with
      | none => rfl
      | some c => exact (hn c (List.mem_of_getLast? hlast)).1
    rw [isMmcPart_sd fun c hc => (hn c hc).2, isSdPart_sd, hlast]
    simp
  | @sdPart n part hname hn hne hpart =>
    have hslash : ∀ c ∈ n ++ part, c ≠ slash := by
      intro c hc
      rcases List.mem_append.mp hc with hc | hc
      · exact (hn c hc).2
      · exact digit_ne_slash (hpart c hc)
    have hlast : (n ++ part).getLast?.any digit = true := by
      rw [List.getLast?_append_of_ne_nil _ hne, List.getLast?_eq_some_getLast hne]
      exact hpart _ (List.getLast_mem hne)
    rw [List.append_assoc, isMmcPart_sd hslash, isSdPart_sd, hlast, if_neg (by simp), if_pos rfl,
      ← List.append_assoc]
    rw [rdropWhile_digits hpart, List.rdropWhile_eq_self_iff]
    intro hfront
    rw [List.getLast_append_of_ne_nil _ hname, (hn _ (List.getLast_mem hname)).1]
    simp

end Names

end PlumosBubble.Sd2
