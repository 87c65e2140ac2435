import Cambio.Proofs.Disk
import Cambio.Proofs.Json.Storable
import Cambio.Proofs.Settings.Members
import Cambio.Proofs.Text.Encoding

/-!
# Keeping settings

The document of settings holds them as they are: its texts, its whole numbers and its finite binary
numbers are read back. So settings that were saved are loaded again, as long as nothing else tells
anything about them, and a file that was made because there was none holds the defaults.

## Main definitions

- `Service.Config.HasNumbers` — the waiting times and the factor between them are finite numbers
- `Settings.KeepingRules` — what is loaded from a path after a file was written there

## Main statements

- `Settings.Passes.isStorable_toJson` — a document holds settings as they are
- `Settings.Passes.ofContents_contents` — the bytes of settings are read as the settings
- `Settings.keepingRules_of_ofSources` — all settings that were read, and all paths
-/

namespace Cambio

/-- The waiting times and the factor between them are finite numbers. -/
structure Service.Config.HasNumbers (c : Service.Config) : Prop where
  timeout : c.timeout.IsNumber
  retryDelay : c.retryDelay.IsNumber
  backoff : c.backoff.IsNumber

namespace Settings

open Json (IsStorable)
open Schema

variable {s : Settings} {d d' : Disk} {p : Path} {depth : Nat}

/-! ## Documents -/

/-- A number with a bound has few digits. -/
theorem isStorable_of_wholeBetween {low high n : Nat}
    (h : wholeBetween low high (.whole n) = .valid n) (hhigh : high < 10 ^ 9) (depth : Nat) :
    IsStorable depth (.whole n) := by
  have hn : n ≤ high := (wholeBetween_whole_iff.mp h).2
  have hdigits : Decimal.digitCount n ≤ 9 := (Decimal.digitCount_le_iff (by decide)).mpr (by omega)
  exact .whole depth (hdigits.trans (by decide))

theorem isStorable_codesJson (codes : List String) (depth : Nat) :
    IsStorable (depth + 1) (codesJson codes) := by
  refine .list fun v hv => ?_
  obtain ⟨code, -, rfl⟩ := List.mem_map.mp hv
  exact .text depth code

theorem Service.Passes.isStorable_toJson {s : Service} (h : s.Passes)
    (hnumbers : s.client.HasNumbers) (depth : Nat) : IsStorable (depth + 2) s.toJson := by
  have hclient := h.client
  refine .object (by simp [Entries.names, Cambio.Service.Config.members]) ?_
  simp only [Cambio.Service.Config.members, List.cons_append, List.nil_append, List.forall_mem_cons]
  exact ⟨.text _ _, .text _ _, .binary _ hnumbers.timeout,
    isStorable_of_wholeBetween hclient.maxRetries (by decide) _, .binary _ hnumbers.retryDelay,
    .binary _ hnumbers.backoff, isStorable_of_wholeBetween hclient.threshold (by decide) _,
    isStorable_of_wholeBetween hclient.cooldown (by decide) _, isStorable_codesJson _ _,
    List.forall_mem_nil _⟩

theorem Rates.Passes.isStorable_toJson {r : Rates} (h : r.Passes) (depth : Nat) :
    IsStorable (depth + 2) r.toJson := by
  refine .object (by simp [Entries.names]) ?_
  simp only [List.forall_mem_cons]
  exact ⟨isStorable_of_wholeBetween h.expirationMinutes (by decide) _, .text _ _, .bool _ _,
    .bool _ _, isStorable_codesJson _ _, isStorable_of_wholeBetween h.pauseMillis (by decide) _,
    isStorable_of_wholeBetween h.minEntries (by decide) _, .text _ _, .text _ _,
    List.forall_mem_nil _⟩

theorem Display.Passes.isStorable_toJson {d : Display} (h : d.Passes) (depth : Nat) :
    IsStorable (depth + 1) d.toJson := by
  refine .object (by simp [Entries.names]) ?_
  simp only [List.forall_mem_cons]
  exact ⟨.text _ _, .text _ _, isStorable_of_wholeBetween h.places (by decide) _, .bool _ _,
    .bool _ _, List.forall_mem_nil _⟩

theorem Logging.Passes.isStorable_toJson {l : Logging} (h : l.Passes) (depth : Nat) :
    IsStorable (depth + 1) l.toJson := by
  refine .object (by simp [Entries.names]) ?_
  simp only [List.forall_mem_cons]
  exact ⟨.text _ _, .text _ _, .bool _ _, .text _ _,
    isStorable_of_wholeBetween h.maxBytes (by decide) _,
    isStorable_of_wholeBetween h.backups (by decide) _, List.forall_mem_nil _⟩

theorem Application.isStorable_toJson (a : Application) (depth : Nat) :
    IsStorable (depth + 1) a.toJson := by
  refine .object (by simp [Entries.names]) ?_
  simp only [List.forall_mem_cons]
  exact ⟨.text _ _, .text _ _, .text _ _, .bool _ _, List.forall_mem_nil _⟩

/-- **A document holds settings as they are.** -/
theorem Passes.isStorable_toJson (h : s.Passes) (hnumbers : s.service.client.HasNumbers)
    (depth : Nat) : IsStorable (depth + 3) s.toJson := by
  refine .object (by simp [Entries.names]) ?_
  simp only [List.forall_mem_cons]
  exact ⟨h.service.isStorable_toJson hnumbers depth, h.rates.isStorable_toJson depth,
    h.display.isStorable_toJson _, h.logging.isStorable_toJson _,
    s.application.isStorable_toJson _, List.forall_mem_nil _⟩

/-! ## Bytes -/

theorem contents_eq_ok {bytes : List UInt8} (h : s.contents = .ok bytes) :
    bytes = Text.encodeUtf8 (s.toJson.writeIndented Json.plain) := by
  unfold contents at h
  split at h
  · cases h
  · exact (Except.ok.inj h).symm

/-- The bytes of settings are read as the settings, if nothing else tells anything about them. -/
theorem Passes.ofContents_contents (h : s.Passes) (hnumbers : s.service.client.HasNumbers)
    (hd : LacksVariables d) {bytes : List UInt8} (hbytes : s.contents = .ok bytes) :
    ofContents ⟨[], d⟩ bytes = ⟨.ok s, []⟩ := by
  obtain ⟨ms, hms⟩ : ∃ ms, s.toJson = .object ms := ⟨_, rfl⟩
  have hstorable : IsStorable Json.depthLimit (.object ms) := by
    rw [← hms]
    exact h.isStorable_toJson hnumbers 987
  rw [contents_eq_ok hbytes, ofContents, Text.decodeUtf8?_encodeUtf8]
  dsimp only
  rw [hms, Json.read_writeIndented_of_isStorable hstorable]
  dsimp only
  rw [ofRecord, h.ofSources_members hms hd]

/-! ## Files -/

theorem load_of_file {vars : Dotenv.Variables} {bytes : List UInt8}
    (h : d.look p = .ok (some (.file bytes))) :
    load vars d p = (ofContents ⟨vars, d⟩ bytes, d) := by
  rw [load, h]

theorem load_of_missing (h : d.look p = .ok none) :
    load [] d p = (⟨(save default d p).2.map fun _ => default, []⟩, (save default d p).1) := by
  have hdefaults : defaults [] = .ok default := rfl
  rw [load, h]
  dsimp only
  rw [hdefaults]

theorem save_eq_true (h : save s d p = (d', .ok true)) :
    ∃ bytes, s.contents = .ok bytes ∧ d.writeDeep p bytes = (d', none) := by
  have hunsaved (trouble : Disk.Trouble) : unsaved trouble ≠ .ok true := by
    unfold unsaved
    split_ifs
    · exact nofun
    · exact fun h => Bool.false_ne_true (Except.ok.inj h)
  unfold save at h
  split at h
  · next bytes hbytes =>
    split at h
    · next written hwrite =>
      cases h
      exact ⟨bytes, hbytes, hwrite⟩
    · next written trouble _ => exact absurd (Prod.mk.inj h).2 (hunsaved trouble)
  · split at h
    · cases h
    · next made trouble _ => exact absurd (Prod.mk.inj h).2 (hunsaved trouble)

/-- Settings with bytes are saved under every path that takes files. -/
theorem save_of_takes (hp : d.Takes p) {bytes : List UInt8} (hbytes : s.contents = .ok bytes) :
    ∃ d', save s d p = (d', .ok true) := by
  obtain ⟨d', hwrite⟩ := hp bytes
  refine ⟨d', ?_⟩
  rw [save, hbytes]
  dsimp only
  rw [hwrite]

/-- **Settings that were saved are loaded again**, and nothing is noticed. -/
theorem Passes.load_of_save (h : s.Passes) (hnumbers : s.service.client.HasNumbers)
    (hsave : save s d p = (d', .ok true)) (hd' : LacksVariables d') :
    load [] d' p = (⟨.ok s, []⟩, d') := by
  obtain ⟨bytes, hbytes, hwrite⟩ := save_eq_true hsave
  rw [load_of_file (Disk.look_of_writeDeep hwrite), h.ofContents_contents hnumbers hd' hbytes]

/-! ### Defaults -/

theorem hasNumbers_default : Settings.default.service.client.HasNumbers where
  timeout := by decide
  retryDelay := by decide
  backoff := by decide

theorem exists_contents_default : ∃ bytes, Settings.default.contents = .ok bytes := by
  have hnone : (Settings.default.toJson.texts.findSome? fun text =>
      Text.unwritable? text.toList) = none := by decide +kernel
  rw [contents, hnone]
  exact ⟨_, rfl⟩

/-- Where there is no file, one is made if that is possible, and the defaults hold. -/
theorem load_of_takes (hmissing : d.look p = .ok none) (hp : d.Takes p) :
    ∃ d', save default d p = (d', .ok true) ∧ load [] d p = (⟨.ok default, []⟩, d') := by
  obtain ⟨bytes, hbytes⟩ : ∃ bytes, Settings.default.contents = .ok bytes := exists_contents_default
  obtain ⟨d', hsave⟩ : ∃ d', save default d p = (d', .ok true) := save_of_takes hp hbytes
  refine ⟨d', hsave, ?_⟩
  rw [load_of_missing hmissing, hsave]
  rfl

/-! ### All paths -/

/-- What is loaded from a path after a file was written there. The process has no variables, and
    the working folder no file of variables. -/
structure KeepingRules (s : Settings) (d : Disk) (p : Path) : Prop where
  /-- Settings that have bytes are saved wherever a file can be written. -/
  saves : d.Takes p → ∀ bytes, s.contents = .ok bytes → ∃ d', save s d p = (d', .ok true)
  /-- Settings that were saved are loaded again: the same record, and the same warnings about it.
      Loading changes nothing. -/
  saved : ∀ d', save s d p = (d', .ok true) → LacksVariables d' →
    load [] d' p = (⟨.ok s, []⟩, d')
  /-- Where there was no file and one can be written, loading makes one. It holds the settings that
      were returned. -/
  made : d.look p = .ok none → d.Takes p → ∃ returned d' bytes,
    load [] d p = (⟨.ok returned, []⟩, d') ∧ d'.look p = .ok (some (.file bytes)) ∧
      (LacksVariables d' → load [] d' p = (⟨.ok returned, []⟩, d'))

/-- **Keeping settings**: all settings that were read, whatever they were read from. -/
theorem keepingRules_of_ofSources {r : Reserved} {surroundings : Surroundings}
    {ms : List (String × Json)} (h : (ofSources r surroundings ms).result = .ok s)
    (hnumbers : s.service.client.HasNumbers) (d : Disk) (p : Path) : KeepingRules s d p where
  saves hp _ hbytes := save_of_takes hp hbytes
  saved d' hsave hd' := (passes_of_ofSources h).load_of_save hnumbers hsave hd'
  made hmissing hp := by
    obtain ⟨d', hsave, hload⟩ := load_of_takes hmissing hp
    obtain ⟨bytes, -, hwrite⟩ := save_eq_true hsave
    exact ⟨default, d', bytes, hload, Disk.look_of_writeDeep hwrite,
      passes_default.load_of_save hasNumbers_default hsave⟩

/-- A record with another address, which ends in a slash, and another waiting time. -/
def otherService : List (String × Json) := [
  ("currency_api", .object [
    ("base_url", .text "https://rates.example/v1/"),
    ("timeout", .binary (.ratioOf 15 2))])]

/-- The settings of that record: the slash is gone. -/
def otherSettings : Settings :=
  let client := { default.service.client with
    address := "https://rates.example/v1", timeout := .ratioOf 15 2 }
  { default with service := { default.service with client := client } }

/-- The settings of that record are saved in a folder that is made for them, and loaded again.
    Without them, loading makes the folder and a file. -/
theorem load_of_save_otherSettings :
    (ofSources .usual ⟨[], .empty⟩ otherService).result = .ok otherSettings ∧
      (save otherSettings .empty (.ofText "conf/app.json")).2 = .ok true ∧
      load [] (save otherSettings .empty (.ofText "conf/app.json")).1 (.ofText "conf/app.json") =
        (⟨.ok otherSettings, []⟩, (save otherSettings .empty (.ofText "conf/app.json")).1) ∧
      ∃ returned d' bytes,
        load [] .empty (.ofText "conf/app.json") = (⟨.ok returned, []⟩, d') ∧
          d'.look (.ofText "conf/app.json") = .ok (some (.file bytes)) := by
  have hread : (ofSources .usual ⟨[], .empty⟩ otherService).result = .ok otherSettings := by
    decide +kernel
  have hnumbers : otherSettings.service.client.HasNumbers :=
    ⟨by decide +kernel, by decide +kernel, by decide +kernel⟩
  have hsave : (save otherSettings .empty (.ofText "conf/app.json")).2 = .ok true := by
    decide +kernel
  have hsaved : save otherSettings .empty (.ofText "conf/app.json") =
      ((save otherSettings .empty (.ofText "conf/app.json")).1, .ok true) := by
    rw [← hsave]
  have hlacks : LacksVariables (save otherSettings .empty (.ofText "conf/app.json")).1 := by
    decide +kernel
  have hrules : KeepingRules otherSettings .empty (.ofText "conf/app.json") :=
    keepingRules_of_ofSources hread hnumbers .empty _
  obtain ⟨returned, d', bytes, hload, hlook, -⟩ :=
    hrules.made (by decide +kernel) (by decide +kernel)
  exact ⟨hread, hsave, hrules.saved _ hsaved hlacks, returned, d', bytes, hload, hlook⟩

end Settings

end Cambio
