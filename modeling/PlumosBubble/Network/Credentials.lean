import PlumosBubble.Frontend.CString
import PlumosBubble.Sequence.Separators

/-! The way of a Wi-Fi network through `plumos-network-control`: `scan_networks` shows it as
`wpa_cli` prints it, and `connect_file` gives what was chosen and the passphrase to
`wpa_supplicant` and saves them. `wpa_supplicant` takes the text between the quotes as it stands. -/

namespace PlumosBubble.Network

open Frontend Sequence

def tab : UInt8 := 0x09
def newline : UInt8 := 0x0a
def blank : UInt8 := 0x20
def quote : UInt8 := 0x22
def equals : UInt8 := 0x3d
def backslash : UInt8 := 0x5c

/-- A printed byte that `wpa_cli` prints as it is. -/
def Plain (b : UInt8) : Prop := 0x20 ≤ b ∧ b ≤ 0x7e ∧ b ≠ quote ∧ b ≠ backslash

instance (b : UInt8) : Decidable (Plain b) := inferInstanceAs (Decidable (_ ∧ _))

def hexDigit (n : UInt8) : UInt8 := if n < 10 then 0x30 + n else 0x57 + n

/-- A byte of an SSID in `scan_results`. -/
def encodeByte (b : UInt8) : CString :=
  if Plain b then [b]
  else if b = quote ∨ b = backslash then [backslash, b]
  else [backslash, 0x78, hexDigit (b / 16), hexDigit (b % 16)]

/-- An SSID in `scan_results`. -/
def printfEncode (ssid : CString) : CString := ssid.flatMap encodeByte

section Scan

/-- A network as `wpa_supplicant` has found it; the other fields of its line hold no tab. -/
structure Bss where
  bssid : CString
  frequency : CString
  signal : CString
  flags : CString
  ssid : CString
  fields_free : tab ∉ bssid ∧ tab ∉ frequency ∧ tab ∉ signal ∧ tab ∉ flags

/-- The line of a network in `scan_results`. -/
def Bss.line (b : Bss) : CString :=
  b.bssid ++ tab :: (b.frequency ++ tab :: (b.signal ++ tab :: (b.flags ++ tab ::
    printfEncode b.ssid)))

/-- A row that `scan_networks` prints. -/
structure Row where
  security : CString
  signal : CString
  ssid : CString
  deriving DecidableEq

/-- `$4 ~ /WPA|WEP/`. -/
def secured (flags : CString) : Bool := lit "WPA" <:+: flags || lit "WEP" <:+: flags

/-- The `awk` program of `scan_networks` on the lines that follow, `seen` the SSIDs so far. -/
def scanRows : List CString → List CString → List Row
  | [], _ => []
  | line :: rest, seen =>
    match line.splitOn tab with
    | _ :: _ :: signal :: flags :: ssid :: _ =>
      if ssid ≠ [] ∧ ssid ∉ seen then
        ⟨if secured flags then lit "secured" else lit "open", signal, ssid⟩ ::
          scanRows rest (ssid :: seen)
      else scanRows rest seen
    | _ => scanRows rest seen

/-- `scan_networks`, behind the header of `scan_results`. -/
def scanNetworks (networks : List Bss) : List Row := scanRows (networks.map Bss.line) []

end Scan

section Connect

/-- `$(...)`: the shell drops the NUL bytes and the newlines at the end. -/
def substituted (output : CString) : CString :=
  (output.filter (· ≠ 0)).reverse.dropWhile (· = newline) |>.reverse

/-- `sed -n 'np'` of a file, in a substitution. -/
def sedLine (n : ℕ) (file : CString) : CString :=
  substituted ((file.splitOn newline)[n - 1]?.getD [])

/-- `s/c/\\c/g` of `sed`. -/
def sedEscape (c : UInt8) (s : CString) : CString :=
  s.flatMap fun b => if b = c then [backslash, c] else [b]

/-- `escape_wpa_string`, in a substitution. -/
def escapeWpaString (s : CString) : CString :=
  substituted (sedEscape quote (sedEscape backslash s))

def quoted (s : CString) : CString := quote :: (s ++ [quote])

/-- The parameters of a network that `connect_file` sets. -/
inductive Parameter where
  | ssid
  | psk
  | keyMgmt
  deriving DecidableEq

/-- The commands of `connect_file` that may fail. -/
inductive Stage where
  | read
  | backend
  | addNetwork
  | set (parameter : Parameter)
  | enable
  | select
  | completed
  | dhcp
  | address
  | write
  | chmod
  | backup
  | move
  deriving DecidableEq

/-- What `connect_file` has set, and the lines of the configuration if it has been replaced. -/
structure Connected where
  sets : List (Parameter × CString)
  saved : Option (List CString)

/-- The lines that `save_single_network` writes. -/
def configLines (control country ssid password : CString) : List CString :=
  [lit "ctrl_interface=" ++ control, lit "update_config=0", lit "country=" ++ country,
    lit "network=\x7b", lit "    ssid=" ++ quoted (escapeWpaString ssid),
    if password ≠ [] then lit "    psk=" ++ quoted (escapeWpaString password)
    else lit "    key_mgmt=NONE", lit "\x7d"]

/-- `save_single_network`. -/
def saveSingleNetwork (ok : Stage → Bool) (control country ssid password : CString) :
    Option (List CString) :=
  if ok .write ∧ ok .chmod ∧ ok .backup ∧ ok .move then
    some (configLines control country ssid password)
  else none

/-- `connect_file`. -/
def connectFile (ok : Stage → Bool) (control country input : CString) : Connected :=
  let ssid := sedLine 1 input
  let password := sedLine 2 input
  if ok .read = false ∨ ssid = [] ∨ ok .backend = false ∨ ok .addNetwork = false ∨
      ok (.set .ssid) = false then ⟨[], none⟩
  else
    let sets := [(Parameter.ssid, quoted (escapeWpaString ssid))]
    let (parameter, value) :=
      if password ≠ [] then (Parameter.psk, quoted (escapeWpaString password))
      else (.keyMgmt, lit "NONE")
    if ok (.set parameter) = false then ⟨sets, none⟩
    else
      let sets := sets ++ [(parameter, value)]
      if ok .enable ∧ ok .select ∧ ok .completed ∧ ok .dhcp ∧ ok .address then
        ⟨sets, saveSingleNetwork ok control country ssid password⟩
      else ⟨sets, none⟩

/-- The file that the chosen SSID and the passphrase are handed over in. -/
def handOver (ssid password : CString) : CString := ssid ++ newline :: (password ++ [newline])

end Connect

section Reading

/-- A value in double quotes, as `wpa_supplicant` takes it: what stands between the first and the
last of them. -/
def wpaString : CString → Option CString
  | [] => none
  | b :: rest => if b = quote ∧ rest.getLast? = some quote then some rest.dropLast else none

/-- A network of `wpa_supplicant`. -/
structure WpaNetwork where
  ssid : Option CString
  psk : Option CString
  deriving DecidableEq

def WpaNetwork.assign (n : WpaNetwork) (name value : CString) : WpaNetwork :=
  if name = lit "ssid" then { n with ssid := wpaString value }
  else if name = lit "psk" then { n with psk := wpaString value }
  else n

/-- The lines of a network up to its end. -/
def readBlock : List CString → WpaNetwork → WpaNetwork
  | [], n => n
  | line :: rest, n =>
    if line = lit "\x7d" then n
    else
      let text := line.dropWhile (· = blank)
      readBlock rest
        (n.assign (text.takeWhile (· ≠ equals)) ((text.dropWhile (· ≠ equals)).drop 1))

/-- The network of a configuration, as `wpa_supplicant` reads it when it starts. -/
def readConfig : List CString → Option WpaNetwork
  | [] => none
  | line :: rest =>
    if line = lit "network=\x7b" then some (readBlock rest ⟨none, none⟩) else readConfig rest

/-- The network of the values that were set. -/
def readSets (sets : List (Parameter × CString)) : WpaNetwork :=
  ⟨(sets.lookup .ssid).bind wpaString, (sets.lookup .psk).bind wpaString⟩

end Reading

/-- The network that was chosen, with its passphrase if it has one. -/
def intended (ssid password : CString) : WpaNetwork :=
  ⟨some ssid, if password = [] then none else some password⟩

/-- Whatever fails, the values that are set and saved denote the SSID and the passphrase, and what
is saved is the network that was set. -/
structure Carried (control country shown password ssid : CString) : Prop where
  ssids : ∀ ok value, (.ssid, value) ∈ (connectFile ok control country
    (handOver shown password)).sets → wpaString value = some ssid
  psks : ∀ ok value, (.psk, value) ∈ (connectFile ok control country
    (handOver shown password)).sets → wpaString value = some password
  opens : ∀ ok value, (.keyMgmt, value) ∈ (connectFile ok control country
    (handOver shown password)).sets → password = []
  saved : ∀ ok lines,
    (connectFile ok control country (handOver shown password)).saved = some lines →
      readConfig lines = some (intended ssid password) ∧
        readSets (connectFile ok control country (handOver shown password)).sets =
          intended ssid password

section Bytes

theorem encodeByte_printed (b : UInt8) : ∀ c ∈ encodeByte b, 0x20 ≤ c := by
  have h : ∀ n : Fin 256, (encodeByte (UInt8.ofFin n)).all (fun c => decide (0x20 ≤ c)) := by
    decide +kernel
  exact fun c hc => of_decide_eq_true (List.all_eq_true.mp (h b.toFin) c hc)

theorem printfEncode_printed (ssid : CString) : ∀ c ∈ printfEncode ssid, 0x20 ≤ c := by
  intro c hc
  obtain ⟨b, -, hb⟩ := List.mem_flatMap.mp hc
  exact encodeByte_printed b c hb

theorem encodeByte_ne_nil (b : UInt8) : encodeByte b ≠ [] := by
  unfold encodeByte
  split_ifs <;> simp

theorem printfEncode_eq_nil {ssid : CString} : printfEncode ssid = [] ↔ ssid = [] := by
  rw [printfEncode, List.flatMap_eq_nil_iff]
  constructor
  · intro h
    cases ssid with
    | nil => rfl
    | cons b rest => exact absurd (h b List.mem_cons_self) (encodeByte_ne_nil b)
  · rintro rfl b hb
    cases hb

theorem zero_notMem_filter (s : CString) : (0 : UInt8) ∉ s.filter (· ≠ 0) := fun h => by
  simpa using (List.mem_filter.mp h).2

theorem substituted_eq {s : CString} (hzero : 0 ∉ s) (hnewline : newline ∉ s) :
    substituted s = s := by
  have hfilter : s.filter (· ≠ 0) = s :=
    List.filter_eq_self.mpr fun b hb => decide_eq_true fun h => hzero (h ▸ hb)
  unfold substituted
  rw [hfilter]
  cases hreverse : s.reverse with
  | nil => rw [List.reverse_eq_nil_iff.mp hreverse, List.dropWhile_nil, List.reverse_nil]
  | cons b rest =>
    have hb : b ≠ newline := by
      rintro rfl
      apply hnewline
      rw [← List.mem_reverse, hreverse]
      exact List.mem_cons_self
    rw [List.dropWhile_cons_of_neg (by simpa using hb), ← hreverse, List.reverse_reverse]

/-- What `escape_wpa_string` makes of a byte. -/
def escapeByte (b : UInt8) : CString :=
  if b = quote ∨ b = backslash then [backslash, b] else [b]

theorem sedEscape_sedEscape (s : CString) :
    sedEscape quote (sedEscape backslash s) = s.flatMap escapeByte := by
  unfold sedEscape
  rw [List.flatMap_assoc]
  congr 1
  funext b
  by_cases hbackslash : b = backslash
  · subst hbackslash
    decide
  · by_cases hquote : b = quote
    · subst hquote
      decide
    · simp [escapeByte, hbackslash, hquote]

theorem mem_escaped {s : CString} {c : UInt8} (hc : c ≠ backslash) :
    c ∈ s.flatMap escapeByte ↔ c ∈ s := by
  rw [List.mem_flatMap]
  constructor
  · rintro ⟨b, hb, hmem⟩
    unfold escapeByte at hmem
    split_ifs at hmem
    · simp only [List.mem_cons, hc, List.not_mem_nil, or_false, false_or] at hmem
      rwa [hmem]
    · rwa [List.mem_singleton.mp hmem]
  · intro hmem
    refine ⟨c, hmem, ?_⟩
    unfold escapeByte
    split_ifs <;> simp

theorem escapeWpaString_eq {s : CString} (hzero : 0 ∉ s) (hnewline : newline ∉ s) :
    escapeWpaString s = s.flatMap escapeByte := by
  rw [escapeWpaString, sedEscape_sedEscape]
  apply substituted_eq
  · rwa [mem_escaped (by decide)]
  · rwa [mem_escaped (by decide)]

theorem flatMap_eq_self_iff {f : UInt8 → CString} (hf : ∀ b, f b = [b] ∨ 2 ≤ (f b).length)
    (s : CString) : s.flatMap f = s ↔ ∀ b ∈ s, f b = [b] := by
  have hle : ∀ s : CString, s.length ≤ (s.flatMap f).length := by
    intro s
    induction s with
    | nil => exact le_rfl
    | cons b rest ih =>
      rw [List.flatMap_cons, List.length_append, List.length_cons]
      rcases hf b with h | h
      · rw [h, List.length_singleton]
        omega
      · omega
  induction s with
  | nil => simp
  | cons b rest ih =>
    rw [List.flatMap_cons, List.forall_mem_cons]
    constructor
    · intro h
      have hb : f b = [b] := by
        rcases hf b with hone | htwo
        · exact hone
        · have hlength := congrArg List.length h
          have hrest := hle rest
          rw [List.length_append, List.length_cons] at hlength
          omega
      rw [hb] at h
      exact ⟨hb, ih.mp (List.cons.inj h).2⟩
    · rintro ⟨hb, hrest⟩
      rw [hb, ih.mpr hrest]
      rfl

theorem wpaString_quoted (s : CString) : wpaString (quoted s) = some s := by
  show (if quote = quote ∧ (s ++ [quote]).getLast? = some quote then
    some (s ++ [quote]).dropLast else none) = some s
  rw [if_pos ⟨rfl, List.getLast?_concat⟩, List.dropLast_concat]

theorem escapeByte_eq_self (b : UInt8) : escapeByte b = [b] ↔ b ≠ quote ∧ b ≠ backslash := by
  unfold escapeByte
  split_ifs with h
  · have hlength : ([backslash, b] : CString) ≠ [b] := fun he => by
      simpa using congrArg List.length he
    exact iff_of_false hlength fun hne => h.elim hne.1 hne.2
  · exact iff_of_true rfl (not_or.mp h)

theorem flatMap_escapeByte_eq_self (s : CString) :
    s.flatMap escapeByte = s ↔ ∀ b ∈ s, b ≠ quote ∧ b ≠ backslash := by
  rw [flatMap_eq_self_iff]
  · simp only [escapeByte_eq_self]
  · intro b
    unfold escapeByte
    split_ifs
    · exact Or.inr le_rfl
    · exact Or.inl rfl

theorem printed_escaped (b : UInt8) :
    ((encodeByte b).flatMap escapeByte = [b] ↔ Plain b) ∧
      ((encodeByte b).flatMap escapeByte = [b] ∨
        2 ≤ ((encodeByte b).flatMap escapeByte).length) := by
  have h : ∀ n : Fin 256, ((encodeByte (UInt8.ofFin n)).flatMap escapeByte = [UInt8.ofFin n] ↔
      Plain (UInt8.ofFin n)) ∧ ((encodeByte (UInt8.ofFin n)).flatMap escapeByte = [UInt8.ofFin n] ∨
        2 ≤ ((encodeByte (UInt8.ofFin n)).flatMap escapeByte).length) := by decide +kernel
  exact h b.toFin

theorem printfEncode_escaped_eq_self (ssid : CString) :
    (printfEncode ssid).flatMap escapeByte = ssid ↔ ∀ b ∈ ssid, Plain b := by
  rw [printfEncode, List.flatMap_assoc, flatMap_eq_self_iff fun b => (printed_escaped b).2]
  exact forall₂_congr fun b _ => (printed_escaped b).1

theorem password_escaped_eq_self (password : CString) :
    (password.filter (· ≠ 0)).flatMap escapeByte = password ↔
      ∀ c ∈ password, c ≠ 0 ∧ c ≠ quote ∧ c ≠ backslash := by
  have hfilter : (0 : UInt8) ∉ password → password.filter (· ≠ 0) = password := fun hzero =>
    List.filter_eq_self.mpr fun b hb => decide_eq_true fun h => hzero (h ▸ hb)
  constructor
  · intro h
    have hzero : (0 : UInt8) ∉ password := by
      rw [← h, mem_escaped (by decide)]
      exact zero_notMem_filter password
    rw [hfilter hzero, flatMap_escapeByte_eq_self] at h
    intro c hc
    exact ⟨fun hc0 => hzero (hc0 ▸ hc), h c hc⟩
  · intro h
    rw [hfilter fun hzero => (h 0 hzero).1 rfl, flatMap_escapeByte_eq_self]
    exact fun c hc => (h c hc).2

end Bytes

section Shown

theorem ne_of_printed {s : CString} (hs : ∀ c ∈ s, 0x20 ≤ c) {b : UInt8} (hb : b < 0x20) :
    b ∉ s := fun h => absurd (hs b h) (UInt8.not_le.mpr hb)

theorem Bss.line_splitOn (b : Bss) :
    b.line.splitOn tab = [b.bssid, b.frequency, b.signal, b.flags, printfEncode b.ssid] := by
  obtain ⟨hbssid, hfrequency, hsignal, hflags⟩ := b.fields_free
  have hssid : tab ∉ printfEncode b.ssid := ne_of_printed (printfEncode_printed b.ssid) (by decide)
  rw [Bss.line, splitOn_separated hbssid, splitOn_separated hfrequency, splitOn_separated hsignal,
    splitOn_separated hflags, List.splitOn_eq_singleton hssid]

theorem scanRows_line (b : Bss) (rest seen : List CString) :
    scanRows (b.line :: rest) seen =
      if printfEncode b.ssid ≠ [] ∧ printfEncode b.ssid ∉ seen then
        ⟨if secured b.flags then lit "secured" else lit "open", b.signal, printfEncode b.ssid⟩ ::
          scanRows rest (printfEncode b.ssid :: seen)
      else scanRows rest seen := by
  rw [scanRows, b.line_splitOn]

theorem scanRows_shows (networks : List Bss) (seen : List CString) :
    ∀ b ∈ networks, b.ssid ≠ [] → printfEncode b.ssid ∈ seen ∨
      ∃ row ∈ scanRows (networks.map Bss.line) seen, row.ssid = printfEncode b.ssid := by
  induction networks generalizing seen with
  | nil =>
    intro b hb
    cases hb
  | cons first rest ih =>
    intro b hb hssid
    rw [List.map_cons, scanRows_line]
    by_cases hnew : printfEncode first.ssid ≠ [] ∧ printfEncode first.ssid ∉ seen
    · rw [if_pos hnew]
      rcases List.mem_cons.mp hb with rfl | hrest
      · exact Or.inr ⟨_, List.mem_cons_self, rfl⟩
      · rcases ih (printfEncode first.ssid :: seen) b hrest hssid with hseen | ⟨row, hrow, heq⟩
        · rcases List.mem_cons.mp hseen with hsame | hold
          · exact Or.inr ⟨_, List.mem_cons_self, hsame.symm⟩
          · exact Or.inl hold
        · exact Or.inr ⟨row, List.mem_cons_of_mem _ hrow, heq⟩
    · rw [if_neg hnew]
      rcases List.mem_cons.mp hb with rfl | hrest
      · left
        by_contra hseen
        exact hnew ⟨fun hnil => hssid (printfEncode_eq_nil.mp hnil), hseen⟩
      · exact ih seen b hrest hssid

theorem shown {networks : List Bss} {b : Bss} (hb : b ∈ networks) (hssid : b.ssid ≠ []) :
    ∃ row ∈ scanNetworks networks, row.ssid = printfEncode b.ssid :=
  (scanRows_shows networks [] b hb hssid).resolve_left List.not_mem_nil

end Shown

section Handed

theorem handOver_splitOn {ssid password : CString} (hssid : newline ∉ ssid)
    (hpassword : newline ∉ password) :
    (handOver ssid password).splitOn newline = [ssid, password, []] := by
  rw [handOver, splitOn_separated hssid, splitOn_separated hpassword, List.splitOn_nil]

theorem sedLine_one {ssid password : CString} (hssid : ∀ c ∈ ssid, 0x20 ≤ c)
    (hpassword : newline ∉ password) : sedLine 1 (handOver ssid password) = ssid := by
  have hnewline : newline ∉ ssid := ne_of_printed hssid (by decide)
  rw [sedLine, handOver_splitOn hnewline hpassword]
  exact substituted_eq (ne_of_printed hssid (by decide)) hnewline

theorem substituted_filter (s : CString) : substituted s = substituted (s.filter (· ≠ 0)) := by
  rw [substituted, substituted, List.filter_filter]
  simp only [Bool.and_self]

theorem sedLine_two {ssid password : CString} (hssid : newline ∉ ssid)
    (hpassword : newline ∉ password) :
    sedLine 2 (handOver ssid password) = password.filter (· ≠ 0) := by
  have hzero : (0 : UInt8) ∉ password.filter (· ≠ 0) := zero_notMem_filter password
  have hnewline : newline ∉ password.filter (· ≠ 0) := fun h => hpassword (List.mem_filter.mp h).1
  rw [sedLine, handOver_splitOn hssid hpassword]
  show substituted password = _
  rw [substituted_filter, substituted_eq hzero hnewline]

end Handed

section Reads

theorem readBlock_line {name : CString} (hhead : name.head? ≠ some blank) (hname : equals ∉ name)
    (value : CString) (rest : List CString) (n : WpaNetwork) :
    readBlock ((List.replicate 4 blank ++ (name ++ equals :: value)) :: rest) n =
      readBlock rest (n.assign name value) := by
  have hline : List.replicate 4 blank ++ (name ++ equals :: value) ≠ lit "\x7d" := by
    have hlit : lit "\x7d" = [0x7d] := by decide
    rw [hlit]
    intro h
    have hbyte : blank = 0x7d := (List.cons.inj h).1
    exact absurd hbyte (by decide)
  have htext : (List.replicate 4 blank ++ (name ++ equals :: value)).dropWhile (· = blank) =
      name ++ equals :: value := by
    rw [List.dropWhile_append_of_pos (by simp)]
    cases name with
    | nil => simp [equals, blank]
    | cons c name =>
      have hc : c ≠ blank := fun h => hhead (congrArg some h)
      simp [hc]
  have hne : ∀ c ∈ name, decide (c ≠ equals) = true :=
    fun c hc => decide_eq_true fun h => hname (h ▸ hc)
  have htake : (name ++ equals :: value).takeWhile (· ≠ equals) = name := by
    rw [List.takeWhile_append_of_pos hne]
    simp
  have hdrop : (name ++ equals :: value).dropWhile (· ≠ equals) = equals :: value := by
    rw [List.dropWhile_append_of_pos hne]
    simp
  rw [readBlock, if_neg hline]
  simp only [htext, htake, hdrop, List.drop_succ_cons, List.drop_zero]

/-- The network that the escaped texts stand for. -/
def denoted (ssid password : CString) : WpaNetwork :=
  ⟨some (escapeWpaString ssid), if password = [] then none else some (escapeWpaString password)⟩

theorem readConfig_skip {line : CString} (hline : line.head? ≠ some 0x6e) (rest : List CString) :
    readConfig (line :: rest) = readConfig rest := by
  have hlit : (lit "network=\x7b").head? = some 0x6e := by decide
  have hne : line ≠ lit "network=\x7b" := by
    rintro rfl
    exact hline hlit
  rw [readConfig, if_neg hne]

theorem readConfig_configLines (control country ssid password : CString) :
    readConfig (configLines control country ssid password) = some (denoted ssid password) := by
  have hssid : ∀ value, lit "    ssid=" ++ value =
      List.replicate 4 blank ++ (lit "ssid" ++ equals :: value) := by
    intro value
    have hlit : lit "    ssid=" = List.replicate 4 blank ++ (lit "ssid" ++ [equals]) := by
      decide
    rw [hlit, List.append_assoc, List.append_assoc, List.singleton_append]
  have hpsk : ∀ value, lit "    psk=" ++ value =
      List.replicate 4 blank ++ (lit "psk" ++ equals :: value) := by
    intro value
    have hlit : lit "    psk=" = List.replicate 4 blank ++ (lit "psk" ++ [equals]) := by
      decide
    rw [hlit, List.append_assoc, List.append_assoc, List.singleton_append]
  have hopen : lit "    key_mgmt=NONE" =
      List.replicate 4 blank ++ (lit "key_mgmt" ++ equals :: lit "NONE") := by decide
  have hnames : lit "psk" ≠ lit "ssid" ∧ lit "key_mgmt" ≠ lit "ssid" ∧
      lit "key_mgmt" ≠ lit "psk" := by decide
  unfold configLines
  rw [readConfig_skip, readConfig_skip, readConfig_skip, readConfig, if_pos rfl, hssid,
    readBlock_line (by decide) (by decide)]
  · unfold denoted
    by_cases hpassword : password = []
    · rw [if_neg (not_not.mpr hpassword), hopen,
        readBlock_line (by decide) (by decide), readBlock, if_pos rfl,
        if_pos hpassword]
      simp only [WpaNetwork.assign, if_pos, hnames.2.1, hnames.2.2, if_neg, not_false_eq_true,
        wpaString_quoted]
    · rw [if_pos hpassword, hpsk, readBlock_line (by decide) (by decide), readBlock,
        if_pos rfl, if_neg hpassword]
      simp only [WpaNetwork.assign, if_pos, hnames.1, if_neg, not_false_eq_true, wpaString_quoted]
  · have hlit : lit "country=" = 0x63 :: (lit "country=").tail := by decide
    rw [hlit, List.cons_append, List.head?_cons]
    decide
  · decide
  · have hlit : lit "ctrl_interface=" = 0x63 :: (lit "ctrl_interface=").tail := by decide
    rw [hlit, List.cons_append, List.head?_cons]
    decide

end Reads

section Sets

/-- What `connect_file` sets if nothing fails. -/
def allSets (ssid password : CString) : List (Parameter × CString) :=
  [(.ssid, quoted (escapeWpaString ssid)),
    if password ≠ [] then (.psk, quoted (escapeWpaString password)) else (.keyMgmt, lit "NONE")]

theorem readSets_allSets (ssid password : CString) :
    readSets (allSets ssid password) = denoted ssid password := by
  have hssid : (Parameter.psk == Parameter.ssid) = false := rfl
  have hkeyMgmt : (Parameter.psk == Parameter.keyMgmt) = false := rfl
  unfold allSets denoted readSets
  by_cases hpassword : password = []
  · simp [List.lookup_cons, wpaString_quoted, hpassword, hssid, hkeyMgmt]
  · simp [List.lookup_cons, wpaString_quoted, hpassword, hssid]

theorem ssid_mem_allSets {ssid password value : CString}
    (h : (.ssid, value) ∈ allSets ssid password) : value = quoted (escapeWpaString ssid) := by
  unfold allSets at h
  split_ifs at h <;> simpa using h

theorem psk_mem_allSets {ssid password value : CString}
    (h : (.psk, value) ∈ allSets ssid password) :
    password ≠ [] ∧ value = quoted (escapeWpaString password) := by
  unfold allSets at h
  split_ifs at h with hpassword
  · exact ⟨hpassword, by simpa using h⟩
  · simp at h

theorem keyMgmt_mem_allSets {ssid password value : CString}
    (h : (.keyMgmt, value) ∈ allSets ssid password) : password = [] := by
  unfold allSets at h
  split_ifs at h with hpassword
  · simp at h
  · exact not_not.mp hpassword

/-- `connect_file` sets everything and comes to the saving, or has set a first part. -/
theorem connectFile_cases (ok : Stage → Bool) (control country input : CString) :
    connectFile ok control country input = ⟨allSets (sedLine 1 input) (sedLine 2 input),
        saveSingleNetwork ok control country (sedLine 1 input) (sedLine 2 input)⟩ ∨
      ∃ sets, sets <+: allSets (sedLine 1 input) (sedLine 2 input) ∧
        connectFile ok control country input = ⟨sets, none⟩ := by
  unfold connectFile allSets
  dsimp only
  by_cases hpassword : sedLine 2 input ≠ []
  · simp only [if_pos hpassword]
    split_ifs with hfail hset hlast
    · exact Or.inr ⟨[], List.nil_prefix, rfl⟩
    · exact Or.inr ⟨_, ⟨_, rfl⟩, rfl⟩
    · exact Or.inl rfl
    · exact Or.inr ⟨_, List.prefix_rfl, rfl⟩
  · simp only [if_neg hpassword]
    split_ifs with hfail hset hlast
    · exact Or.inr ⟨[], List.nil_prefix, rfl⟩
    · exact Or.inr ⟨_, ⟨_, rfl⟩, rfl⟩
    · exact Or.inl rfl
    · exact Or.inr ⟨_, List.prefix_rfl, rfl⟩

theorem connectFile_sets (ok : Stage → Bool) (control country input : CString) :
    ∀ x ∈ (connectFile ok control country input).sets,
      x ∈ allSets (sedLine 1 input) (sedLine 2 input) := by
  intro x hx
  rcases connectFile_cases ok control country input with h | ⟨sets, hsets, h⟩
  · rwa [h] at hx
  · rw [h] at hx
    exact hsets.subset hx

theorem connectFile_saved {ok : Stage → Bool} {control country input : CString}
    {lines : List CString} (hsaved : (connectFile ok control country input).saved = some lines) :
    lines = configLines control country (sedLine 1 input) (sedLine 2 input) ∧
      (connectFile ok control country input).sets =
        allSets (sedLine 1 input) (sedLine 2 input) := by
  rcases connectFile_cases ok control country input with h | ⟨sets, -, h⟩
  · rw [h] at hsaved ⊢
    unfold saveSingleNetwork at hsaved
    split_ifs at hsaved
    exact ⟨(Option.some.inj hsaved).symm, rfl⟩
  · rw [h] at hsaved
    cases hsaved

theorem connectFile_ok {input : CString} (hssid : sedLine 1 input ≠ [])
    (control country : CString) :
    connectFile (fun _ => true) control country input =
      ⟨allSets (sedLine 1 input) (sedLine 2 input),
        some (configLines control country (sedLine 1 input) (sedLine 2 input))⟩ := by
  unfold connectFile
  simp only [hssid, Bool.true_eq_false, or_self, if_false, true_and, if_true, saveSingleNetwork]
  rfl

end Sets

section Carries

variable {shown password ssid : CString}

theorem denoted_eq_intended (hprinted : ∀ c ∈ shown, 0x20 ≤ c) (hpassword : newline ∉ password) :
    denoted shown (password.filter (· ≠ 0)) = intended ssid password ↔
      shown.flatMap escapeByte = ssid ∧
        (password.filter (· ≠ 0)).flatMap escapeByte = password := by
  have hzero : (0 : UInt8) ∉ password.filter (· ≠ 0) := zero_notMem_filter password
  have hnewline : newline ∉ password.filter (· ≠ 0) := fun h => hpassword (List.mem_filter.mp h).1
  have hssid : escapeWpaString shown = shown.flatMap escapeByte :=
    escapeWpaString_eq (ne_of_printed hprinted (by decide)) (ne_of_printed hprinted (by decide))
  rw [denoted, intended, hssid, escapeWpaString_eq hzero hnewline, WpaNetwork.mk.injEq,
    Option.some.injEq]
  refine and_congr_right fun _ => ?_
  by_cases hsome : password.filter (· ≠ 0) = []
  · rw [if_pos hsome, hsome, List.flatMap_nil]
    by_cases hnone : password = []
    · rw [if_pos hnone, hnone]
      exact iff_of_true rfl rfl
    · rw [if_neg hnone]
      exact iff_of_false (Option.some_ne_none _).symm (Ne.symm hnone)
  · have hnone : password ≠ [] := by
      rintro rfl
      exact hsome List.filter_nil
    rw [if_neg hsome, if_neg hnone, Option.some.injEq]

theorem carried_iff_escaped (hprinted : ∀ c ∈ shown, 0x20 ≤ c) (hshown : shown ≠ [])
    (hpassword : newline ∉ password) (control country : CString) :
    Carried control country shown password ssid ↔ shown.flatMap escapeByte = ssid ∧
      (password.filter (· ≠ 0)).flatMap escapeByte = password := by
  have hone : sedLine 1 (handOver shown password) = shown := sedLine_one hprinted hpassword
  have htwo : sedLine 2 (handOver shown password) = password.filter (· ≠ 0) :=
    sedLine_two (ne_of_printed hprinted (by decide)) hpassword
  rw [← denoted_eq_intended hprinted hpassword]
  constructor
  · intro h
    have hssid : sedLine 1 (handOver shown password) ≠ [] := by rwa [hone]
    have hok := connectFile_ok hssid control country
    obtain ⟨hread, -⟩ := h.saved (fun _ => true) _ (congrArg Connected.saved hok)
    rw [readConfig_configLines, hone, htwo] at hread
    exact Option.some.inj hread
  · intro h
    have hmem : ∀ ok x, x ∈ (connectFile ok control country (handOver shown password)).sets →
        x ∈ allSets shown (password.filter (· ≠ 0)) := by
      intro ok x hx
      have hall := connectFile_sets ok control country (handOver shown password) x hx
      rwa [hone, htwo] at hall
    have hssid : some (escapeWpaString shown) = some ssid := congrArg WpaNetwork.ssid h
    constructor
    · intro ok value hvalue
      rw [ssid_mem_allSets (hmem ok _ hvalue), wpaString_quoted, hssid]
    · intro ok value hvalue
      obtain ⟨hsome, rfl⟩ := psk_mem_allSets (hmem ok _ hvalue)
      have hnone : password ≠ [] := by
        rintro rfl
        exact hsome List.filter_nil
      have hpsk := congrArg WpaNetwork.psk h
      dsimp only [denoted, intended] at hpsk
      rwa [if_neg hsome, if_neg hnone, ← wpaString_quoted] at hpsk
    · intro ok value hvalue
      have hnone := keyMgmt_mem_allSets (hmem ok _ hvalue)
      have hpsk := congrArg WpaNetwork.psk h
      dsimp only [denoted, intended] at hpsk
      rw [if_pos hnone] at hpsk
      by_contra hpassword
      rw [if_neg hpassword] at hpsk
      cases hpsk
    · intro ok lines hlines
      obtain ⟨rfl, hsets⟩ := connectFile_saved hlines
      rw [readConfig_configLines, hsets, readSets_allSets, hone, htwo, h]
      exact ⟨rfl, rfl⟩

end Carries

/-- A network that is found is shown, and it and its passphrase reach `wpa_supplicant` and the saved
configuration exactly if nothing in them is printed or escaped. -/
theorem credentials_carried_iff (networks : List Bss) (control country : CString) :
    ∀ b ∈ networks, b.ssid ≠ [] → ∃ row ∈ scanNetworks networks, row.ssid = printfEncode b.ssid ∧
      ∀ password, newline ∉ password →
        (Carried control country row.ssid password b.ssid ↔
          (∀ c ∈ b.ssid, Plain c) ∧ ∀ c ∈ password, c ≠ 0 ∧ c ≠ quote ∧ c ≠ backslash) := by
  intro b hb hssid
  obtain ⟨row, hrow, heq⟩ := shown hb hssid
  refine ⟨row, hrow, heq, fun password hpassword => ?_⟩
  have hne : printfEncode b.ssid ≠ [] := mt printfEncode_eq_nil.mp hssid
  rw [heq, carried_iff_escaped (printfEncode_printed b.ssid) hne hpassword,
    printfEncode_escaped_eq_self, password_escaped_eq_self]

theorem credentials_carried_iff_sample :
    ∃ row ∈ scanNetworks [⟨[], lit "2412", lit "-40", lit "[ESS]", lit "home", by decide +kernel⟩],
      Carried (lit "/run") (lit "JP") row.ssid (lit " pass phrase ") (lit "home") := by
  obtain ⟨row, hrow, -, hcarried⟩ := credentials_carried_iff
    [⟨[], lit "2412", lit "-40", lit "[ESS]", lit "home", by decide +kernel⟩] (lit "/run")
    (lit "JP") _ List.mem_cons_self (by decide +kernel)
  exact ⟨row, hrow, (hcarried (lit " pass phrase ") (by decide +kernel)).mpr (by decide +kernel)⟩

/-- A passphrase with a backslash is set with two, and an SSID with an accent as its escapes. -/
theorem credentials_altered :
    let home : Bss := ⟨[], lit "2412", lit "-40", lit "[WPA2-PSK]", lit "home", by decide +kernel⟩
    let cafe : Bss := ⟨[], lit "2412", lit "-40", lit "[ESS]", lit "café", by decide +kernel⟩
    (∃ row ∈ scanNetworks [home], row.ssid = lit "home" ∧
      ¬Carried (lit "/run") (lit "JP") row.ssid (lit "one\\two1") home.ssid) ∧
    ∃ row ∈ scanNetworks [cafe], row.ssid = lit "caf\\xc3\\xa9" ∧
      ¬Carried (lit "/run") (lit "JP") row.ssid [] cafe.ssid := by
  refine ⟨⟨⟨lit "secured", lit "-40", lit "home"⟩, by decide +kernel, rfl, fun h => ?_⟩,
    ⟨⟨lit "open", lit "-40", lit "caf\\xc3\\xa9"⟩, by decide +kernel, rfl, fun h => ?_⟩⟩
  · have hpsk := h.psks (fun _ => true) (quoted (lit "one\\\\two1")) (by decide +kernel)
    revert hpsk
    decide +kernel
  · have hssid := h.ssids (fun _ => true) (quoted (lit "caf\\\\xc3\\\\xa9")) (by decide +kernel)
    revert hssid
    decide +kernel

end PlumosBubble.Network
