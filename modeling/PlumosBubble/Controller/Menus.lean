import PlumosBubble.Frontend.Json

/-! The entries of the START menu, of the Apps menu and of the settings pages, as
`plumos_controller_ui.c` loads them and tells them apart. -/

namespace PlumosBubble.Controller

open Frontend

/-- `json_get_bool`. -/
def jsonGetBool (key s : CString) (default : Bool) : Bool :=
  match jsonFindKeyValue key s with
  | none => default
  | some value =>
    if lit "true" <+: value then true else if lit "false" <+: value then false else default

/-- `struct menu_entry`, without the texts that are only shown. -/
structure MenuEntry where
  id : Buffer 64
  action : Buffer 256
  confirm : Bool
  background : Bool
  showResults : Bool
  available : Bool

/-- `UI_MAX_MENU`. -/
def maxMenu : ℕ := 64

/-- An entry of `menus.json`. -/
def startEntry (object : CString) : MenuEntry where
  id := (jsonGetString 64 (lit "id") object).into .empty
  action := (jsonGetString 256 (lit "action") object).into .empty
  confirm := jsonGetBool (lit "confirm") object false
  background := false
  showResults := false
  available := jsonGetBool (lit "available") object true

/-- The entries of the menu that has the id `start`. -/
def startEntries (menus : CString) : List MenuEntry :=
  let isStart := fun menu =>
    ((jsonGetString 64 (lit "id") menu).into Buffer.empty).text = lit "start"
  match ((jsonObjects menus).find? isStart).bind (jsonFindArray (lit "entries")) with
  | none => []
  | some entries => ((jsonObjects entries).map startEntry).take maxMenu

/-- `load_start_menu_entries`, as far as the file goes; without a list of menus it fails. -/
def loadStartMenu (menusJson : Option CString) : Option (List MenuEntry) :=
  (menusJson.bind (jsonFindArray (lit "menus"))).map startEntries

/-- An entry of `apps.json`. -/
def appEntry (object : CString) : MenuEntry where
  id := (jsonGetString 64 (lit "id") object).into .empty
  action := (jsonGetString 256 (lit "launch_profile") object).into .empty
  confirm := jsonGetBool (lit "confirm") object false
  background := jsonGetBool (lit "background") object false
  showResults := jsonGetBool (lit "show_results") object false
  available := jsonGetBool (lit "available") object true

/-- Whether an app is on the menu. -/
def appShown (object : CString) : Bool :=
  jsonGetBool (lit "visible") object true && (appEntry object).id.nonempty &&
    ((jsonGetString 64 (lit "menu") object).into Buffer.empty).text = lit "apps"

/-- `load_apps_menu_entries`, as far as the file goes. -/
def loadAppsMenu (appsJson : Option CString) : Option (List MenuEntry) :=
  (appsJson.bind (jsonFindArray (lit "apps"))).map fun apps =>
    (((jsonObjects apps).filter appShown).map appEntry).take maxMenu

/-- `enum settings_category`. -/
inductive Category where
  | ui
  | uiTheme
  | system
  | systemDisplayColor
  | systemBrightnessTest
  | systemTime
  | systemTimeManual
  | systemInformation
  | systemFactoryReset
  | network
  | networkService
  | networkInformation
  | performance
  deriving DecidableEq

/-- `struct setting_entry`, without the texts that are only shown. -/
structure SettingEntry where
  id : CString
  available : Bool

/-- What a page asks of the device: its kind, what its display can be set to, and which factory
defaults are installed. -/
structure Device where
  bubble : Bool
  mf : Bool
  lumination : Bool
  displayColor : Bool
  hasRa : Bool
  hasPico : Bool
  hasSa : Bool

/-- Entries that are available, of these ids. -/
def entriesOf (ids : List String) : List SettingEntry := ids.map fun id => ⟨lit id, true⟩

/-- `BRIGHTNESS_TEST_VALUES`. -/
def brightnessTestIds : List String :=
  ["system_brightness_test_10", "system_brightness_test_30", "system_brightness_test_50",
    "system_brightness_test_70", "system_brightness_test_90", "system_brightness_test_110",
    "system_brightness_test_130", "system_brightness_test_150", "system_brightness_test_170",
    "system_brightness_test_190", "system_brightness_test_210", "system_brightness_test_230",
    "system_brightness_test_250", "system_brightness_test_255"]

/-- `add_system_settings_entries`. -/
def systemEntries (device : Device) : List SettingEntry :=
  entriesOf ["system_volume", "system_audio_output", "system_brightness"] ++
    [⟨lit "system_lid_suspend", !device.bubble⟩, ⟨lit "system_lumination", device.lumination⟩,
      ⟨lit "system_display_color", device.displayColor⟩] ++
    entriesOf ["system_time_settings", "system_language", "system_update",
      "system_factory_reset", "system_storage_check", "system_information"]

/-- The entry of one kind of emulator settings. -/
def resetEntry (device : Device) (installed : Bool) (id : String) : List SettingEntry :=
  if installed then entriesOf [id] else if device.bubble then [⟨lit id, false⟩] else []

/-- `add_system_factory_reset_entries`. -/
def factoryResetEntries (device : Device) : List SettingEntry :=
  let any := device.hasRa || device.hasPico || device.hasSa
  let every := device.hasRa && device.hasPico && device.hasSa
  (if device.bubble && any || every then entriesOf ["system_factory_reset_all"] else []) ++
    resetEntry device device.hasRa "system_factory_reset_ra" ++
    resetEntry device device.hasPico "system_factory_reset_pico" ++
    resetEntry device device.hasSa "system_factory_reset_sa" ++
    (if any then [] else entriesOf ["system_factory_reset_none"])

/-- `add_system_information_entries`. -/
def informationEntries (device : Device) : List SettingEntry :=
  entriesOf (["system_model", "system_plumos_version", "system_vendor_runtime", "system_kernel",
    "system_gpu_runtime", "system_display_backend", "system_audio_backend", "system_sdcard",
    "system_storage_health", "system_memory", "system_firmware"] ++
    if device.mf then ["system_battery", "system_battery_temperature"] else [])

/-- The entries that `load_settings_entries` adds for a page. -/
def pageEntries (category : Category) (device : Device) : List SettingEntry :=
  match category with
  | .ui => entriesOf ["refresh_top", "ui_mode", "show_empty_systems", "show_favorites_on_top",
      "show_recent_on_top", "rom_cursor_wrap", "boot_resume_mode", "sort_systems", "sort_roms",
      "rom_scan_policy", "ui_theme_settings"]
  | .uiTheme => entriesOf ["graphic_theme_id", "theme_name", "theme_status", "theme_layout",
      "theme_top_layout", "theme_transition", "theme_transition_ms", "theme_transition_axis",
      "theme_transition_easing", "theme_font"]
  | .system => systemEntries device
  | .systemDisplayColor => entriesOf ["system_contrast", "system_hue", "system_saturation"]
  | .systemBrightnessTest => entriesOf brightnessTestIds
  | .systemTime => entriesOf ["system_current_time", "system_automatic_time", "system_sync_now",
      "system_rtc_status", "system_timezone", "system_manual_time"]
  | .systemTimeManual => entriesOf ["system_current_time", "system_manual_timezone",
      "system_manual_time_year", "system_manual_time_month", "system_manual_time_day",
      "system_manual_time_hour", "system_manual_time_minute", "system_manual_time_apply"]
  | .systemInformation => informationEntries device
  | .systemFactoryReset => factoryResetEntries device
  | .network => entriesOf ["network_wifi_enabled", "network_connect_wifi", "network_services",
      "network_information"]
  | .networkService => entriesOf (["network_ssh_enabled", "network_ftp_enabled",
      "network_sftp_enabled", "network_samba_enabled"] ++
      if device.bubble then [] else ["network_adb_enabled"])
  | .networkInformation => entriesOf (["network_connection", "network_ip_address",
      "network_signal", "network_link_speed", "network_frequency", "network_ssh",
      "network_ftp_status", "network_sftp_status", "network_samba_status"] ++
      if device.bubble then [] else ["network_adb_status"])
  | .performance => entriesOf ["performance_system", "performance_cpu_policy",
      "performance_clear_cpu_override"]

/-- `enum setting_control_type`. -/
inductive ControlType where
  | readonly
  | action
  | checkbox
  | choice
  | number
  deriving DecidableEq

def actionIds : List String :=
  ["network_connect_wifi", "network_services", "network_information", "refresh_top",
    "ui_theme_settings", "system_display_color", "system_time_settings", "system_storage_check",
    "system_sync_now", "system_manual_time", "system_manual_time_apply", "system_information",
    "system_update", "system_factory_reset", "system_factory_reset_all",
    "system_factory_reset_ra", "system_factory_reset_pico", "system_factory_reset_sa",
    "performance_clear_cpu_override", "performance_core_details"]

/-- The switches of the network, which a control script turns. -/
def networkSwitchIds : List String :=
  ["network_wifi_enabled", "network_ssh_enabled", "network_ftp_enabled", "network_sftp_enabled",
    "network_samba_enabled", "network_adb_enabled"]

def checkboxIds : List String :=
  ["show_empty_systems", "show_favorites_on_top", "show_recent_on_top", "rom_cursor_wrap",
    "rom_scan_policy", "system_automatic_time", "system_lid_suspend"] ++ networkSwitchIds

/-- What `setting_choices` has choices for, and the settings whose choices come from elsewhere. -/
def choiceIds : List String :=
  ["ui_mode", "boot_resume_mode", "sort_systems", "sort_roms", "theme_top_layout",
    "theme_transition", "theme_transition_axis", "theme_transition_easing", "system_language",
    "system_timezone", "system_audio_output", "graphic_theme_id", "performance_system",
    "performance_cpu_policy"]

def numberIds : List String :=
  ["rom_scan_slow_threshold_ms", "rom_scan_test_file_count", "system_volume",
    "system_brightness", "system_lumination", "system_contrast", "system_hue",
    "system_saturation", "system_manual_time_year", "system_manual_time_month",
    "system_manual_time_day", "system_manual_time_hour", "system_manual_time_minute",
    "theme_transition_ms"]

def isOneOf (ids : List String) (id : CString) : Bool := ids.any fun known => id = lit known

/-- `setting_control_type_for_id`. -/
def controlType (id : CString) : ControlType :=
  if isOneOf actionIds id then .action
  else if isOneOf checkboxIds id then .checkbox
  else if isOneOf choiceIds id then .choice
  else if isOneOf numberIds id then .number
  else .readonly

/-- `setting_is_writable`. -/
def settingIsWritable (id : CString) : Bool :=
  isOneOf (checkboxIds ++ choiceIds ++ numberIds) id

/-- `factory_reset_target_for_entry`. -/
def resetTarget (id : CString) : Option CString :=
  if id = lit "system_factory_reset_all" then some (lit "all")
  else if id = lit "system_factory_reset_ra" then some (lit "ra")
  else if id = lit "system_factory_reset_pico" then some (lit "pico")
  else if id = lit "system_factory_reset_sa" then some (lit "sa")
  else none

theorem resetTarget_ne_nil {id target : CString} (h : resetTarget id = some target) :
    target ≠ [] := by
  unfold resetTarget at h
  split_ifs at h <;> cases h <;> decide +kernel

theorem controlType_reset {id target : CString} (h : resetTarget id = some target) :
    controlType id = .action := by
  unfold resetTarget at h
  split_ifs at h with hall hra hpico hsa
  · rw [hall]
    decide +kernel
  · rw [hra]
    decide +kernel
  · rw [hpico]
    decide +kernel
  · rw [hsa]
    decide +kernel

section Pages

/-- The ids on the page of factory resets. -/
def resetIds : List String :=
  ["system_factory_reset_all", "system_factory_reset_ra", "system_factory_reset_pico",
    "system_factory_reset_sa", "system_factory_reset_none"]

theorem mem_entriesOf {ids : List String} {entry : SettingEntry} (h : entry ∈ entriesOf ids) :
    ∃ id ∈ ids, entry.id = lit id := by
  obtain ⟨id, hid, rfl⟩ := List.mem_map.mp h
  exact ⟨id, hid, rfl⟩

theorem mem_resetEntry {device : Device} {installed : Bool} {id : String} {entry : SettingEntry}
    (h : entry ∈ resetEntry device installed id) : entry.id = lit id := by
  unfold resetEntry at h
  split_ifs at h
  · obtain ⟨id', hid, heq⟩ := mem_entriesOf h
    rw [heq, List.mem_singleton.mp hid]
  · rw [List.mem_singleton.mp h]
  · cases h

theorem mem_factoryResetEntries {device : Device} {entry : SettingEntry}
    (h : entry ∈ factoryResetEntries device) : ∃ id ∈ resetIds, entry.id = lit id := by
  unfold factoryResetEntries at h
  rcases List.mem_append.mp h with h | hnone
  · rcases List.mem_append.mp h with h | hsa
    · rcases List.mem_append.mp h with h | hpico
      · rcases List.mem_append.mp h with hall | hra
        · split_ifs at hall
          · obtain ⟨id, hid, heq⟩ := mem_entriesOf hall
            exact ⟨id, by rw [List.mem_singleton.mp hid]; decide, heq⟩
          · cases hall
        · exact ⟨_, by decide, mem_resetEntry hra⟩
      · exact ⟨_, by decide, mem_resetEntry hpico⟩
    · exact ⟨_, by decide, mem_resetEntry hsa⟩
  · split_ifs at hnone
    · cases hnone
    · obtain ⟨id, hid, heq⟩ := mem_entriesOf hnone
      exact ⟨id, by rw [List.mem_singleton.mp hid]; decide, heq⟩

theorem resetTarget_entriesOf {ids : List String} {entry : SettingEntry}
    (hids : (ids.all fun id => resetTarget (lit id) = none) = true) (h : entry ∈ entriesOf ids) :
    resetTarget entry.id = none := by
  obtain ⟨id, hid, heq⟩ := mem_entriesOf h
  rw [heq]
  exact of_decide_eq_true (List.all_eq_true.mp hids id hid)

theorem resetTarget_page {category : Category} {device : Device} {entry : SettingEntry}
    (hcategory : category ≠ .systemFactoryReset) (h : entry ∈ pageEntries category device) :
    resetTarget entry.id = none := by
  cases category with
  | systemFactoryReset => exact absurd rfl hcategory
  | system =>
    rcases List.mem_append.mp h with h | hlast
    · rcases List.mem_append.mp h with hfirst | hmiddle
      · exact resetTarget_entriesOf (by decide +kernel) hfirst
      · rcases List.mem_cons.mp hmiddle with rfl | hmiddle
        · show resetTarget (lit "system_lid_suspend") = none
          decide +kernel
        · rcases List.mem_cons.mp hmiddle with rfl | hmiddle
          · show resetTarget (lit "system_lumination") = none
            decide +kernel
          · rw [List.mem_singleton.mp hmiddle]
            show resetTarget (lit "system_display_color") = none
            decide +kernel
    · exact resetTarget_entriesOf (by decide +kernel) hlast
  | systemInformation =>
    refine resetTarget_entriesOf ?_ h
    split <;> decide +kernel
  | networkService =>
    refine resetTarget_entriesOf ?_ h
    split <;> decide +kernel
  | networkInformation =>
    refine resetTarget_entriesOf ?_ h
    split <;> decide +kernel
  | _ => exact resetTarget_entriesOf (by decide +kernel) h

end Pages

end PlumosBubble.Controller
