import Cambio.Proofs.Settings.Stable
import Cambio.Settings.File

/-!
# Settings that were read

Whatever record and surroundings settings were read from, each of their fields passes its own check
as it stands: it is the default, or what a check has made of a value.

## Main definitions

- `Settings.Passes` — each field passes its check as it stands, section by section

## Main statements

- `Settings.passes_of_ofSources` — this holds of all settings that are read
- `Settings.passes_of_load` — and of all settings that are loaded
-/

namespace Cambio.Settings

open Schema

/-! ## Fields -/

section Fields

variable {α : Type} {ms : List (String × Json)} {name : String} {default a : α}
  {rule : String → Except Rule.Refusal α}

/-- A field under a rule is its default, or what the rule made of a text. -/
theorem of_ruledField (h : ruledField ms name default rule = .valid a) :
    a = default ∨ ∃ s, rule s = .ok a := by
  rcases of_optional h with rfl | ⟨v, hv⟩
  · exact .inl rfl
  · obtain ⟨s, -, hs⟩ := Checked.andThen_eq_valid_iff.mp hv
    exact .inr ⟨s, Except.mapError_eq_ok_iff.mp (Checked.ofRule_eq_valid_iff.mp hs)⟩

/-- What a field under a rule has, the rule accepts as it is, if this is so of the default and of
    all that the rule makes. -/
theorem rule_of_ruledField {default a : String} {rule : String → Except Rule.Refusal String}
    (hdefault : rule default = .ok default) (hstable : ∀ s a, rule s = .ok a → rule a = .ok a)
    (h : ruledField ms name default rule = .valid a) : rule a = .ok a := by
  rcases of_ruledField h with rfl | ⟨s, hs⟩
  · exact hdefault
  · exact hstable s a hs

theorem ruledField_of_get? {s : String} (default : α)
    (hget : Entries.get? name ms = some (.text s)) (hrule : rule s = .ok a) :
    ruledField ms name default rule = .valid a := by
  refine optional_of_get? default hget ?_
  change Checked.ofRule ((rule s).mapError Rule.Refusal.message) = .valid a
  rw [hrule]
  rfl

/-- The default of a list of codes passes the rule, and so do the codes that are read. -/
theorem codes_of_codesField {default codes : List String}
    (hdefault : Rule.codes (codesJson default) = .accepted default)
    (h : codesField ms name default = .ok (.valid codes)) :
    Rule.codes (codesJson codes) = .accepted codes := by
  unfold codesField at h
  split at h
  · cases h
    exact hdefault
  · split at h
    · next found hcodes =>
      cases h
      exact Rule.codes_codes hcodes
    · cases h
    · cases h

theorem codesField_of_get? {codes : List String} (default : List String)
    (hget : Entries.get? name ms = some (codesJson codes))
    (hcodes : Rule.codes (codesJson codes) = .accepted codes) :
    codesField ms name default = .ok (.valid codes) := by
  rw [codesField, hget]
  dsimp only
  rw [hcodes]

theorem yesNo_of_get? {b : Bool} (default : Bool) (hget : Entries.get? name ms = some (.bool b)) :
    optional ms name default yesNo = .valid b :=
  optional_of_get? default hget rfl

theorem text_of_get? {s : String} (default : String)
    (hget : Entries.get? name ms = some (.text s)) : optional ms name default text = .valid s :=
  optional_of_get? default hget rfl

end Fields

/-! ## Sections -/

/-- A section that was read is the default, or was read off a record. -/
theorem of_sectionField {α : Type} {ms : List (String × Json)} {name title : String}
    {default a : α} {check : List (String × Json) → Except Misfit (Checked α)}
    (h : sectionField ms name title default check = .ok (.valid a)) :
    a = default ∨ ∃ fields, check fields = .ok (.valid a) := by
  unfold sectionField at h
  split at h
  · cases h
    exact .inl rfl
  · next v _ =>
    cases hmembers : Schema.members title v with
    | invalid issues =>
      rw [hmembers] at h
      cases h
    | valid fields =>
      rw [hmembers] at h
      obtain ⟨checked, hfields, hunder⟩ := Except.map_eq_ok_iff.mp h
      rw [Checked.under_eq_valid_iff] at hunder
      exact .inr ⟨fields, hunder ▸ hfields⟩

theorem sectionField_of_get? {α : Type} {ms fields : List (String × Json)} {name : String}
    (title : String) (default : α) {a : α}
    {check : List (String × Json) → Except Misfit (Checked α)}
    (hget : Entries.get? name ms = some (.object fields))
    (hcheck : check fields = .ok (.valid a)) :
    sectionField ms name title default check = .ok (.valid a) := by
  rw [sectionField, hget]
  change (check fields).map (Checked.under name) = _
  rw [hcheck]
  rfl

/-- Each field of the rate service passes its check as it stands. -/
structure Service.Passes (s : Service) : Prop where
  client : s.client.IsChecked
  address : Rule.address Rule.webSchemes s.client.address = .ok s.client.address
  supported : Rule.codes (codesJson s.supported) = .accepted s.supported

/-- Each field of the cache and the rate file passes its check as it stands. -/
structure Rates.Passes (r : Rates) : Prop where
  expirationMinutes :
    wholeBetween 1 10080 (.whole r.expirationMinutes) = .valid r.expirationMinutes
  filePath : Rule.filePath r.filePath = .ok r.filePath
  majors : Rule.codes (codesJson r.majors) = .accepted r.majors
  pauseMillis : wholeBetween 0 10000 (.whole r.pauseMillis) = .valid r.pauseMillis
  minEntries : wholeBetween 1 100 (.whole r.minEntries) = .valid r.minEntries
  primary : Rule.code r.primary = .ok r.primary
  secondary : Rule.code r.secondary = .ok r.secondary

/-- Each field of what is shown passes its check as it stands. -/
structure Display.Passes (d : Display) : Prop where
  fromCode : Rule.code d.fromCode = .ok d.fromCode
  toCode : Rule.code d.toCode = .ok d.toCode
  places : wholeBetween 0 10 (.whole d.places) = .valid d.places

/-- Each field of the log passes its check as it stands. -/
structure Logging.Passes (l : Logging) : Prop where
  filePath : Rule.filePath l.filePath = .ok l.filePath
  maxBytes : wholeBetween 1048576 104857600 (.whole l.maxBytes) = .valid l.maxBytes
  backups : wholeBetween 1 20 (.whole l.backups) = .valid l.backups

/-- Each field of settings passes its check as it stands. -/
structure Passes (s : Settings) : Prop where
  service : s.service.Passes
  rates : s.rates.Passes
  display : s.display.Passes
  logging : s.logging.Passes
  references : s.rates.primary ≠ s.rates.secondary

/-! ### Defaults -/

theorem Service.passes_default : Service.default.Passes where
  client :=
    { timeout := numberBetween_binary (by decide +kernel) (by decide +kernel)
      maxRetries := rfl
      retryDelay := numberBetween_binary (by decide +kernel) (by decide +kernel)
      backoff := numberBetween_binary (by decide +kernel) (by decide +kernel)
      threshold := rfl
      cooldown := rfl }
  address := by decide +kernel
  supported := by decide +kernel

theorem Rates.passes_default : Rates.default.Passes where
  expirationMinutes := rfl
  filePath := by decide +kernel
  majors := by decide +kernel
  pauseMillis := rfl
  minEntries := rfl
  primary := by decide +kernel
  secondary := by decide +kernel

theorem Display.passes_default : Display.default.Passes where
  fromCode := by decide +kernel
  toCode := by decide +kernel
  places := rfl

theorem Logging.passes_default : Logging.default.Passes where
  filePath := by decide +kernel
  maxBytes := wholeBetween_whole_iff.mpr (by decide)
  backups := rfl

/-! ### Records -/

theorem Service.passes_of_fields {ms : List (String × Json)} {s : Service}
    (h : Service.fields ms = .ok (.valid s)) : s.Passes := by
  obtain ⟨checked, hcodes, hrest⟩ := Except.bind_eq_ok_iff.mp h
  have hfields : _ = Checked.valid s := Except.ok.inj hrest
  obtain ⟨client, supported, hclient, rfl, rfl⟩ := Checked.map_apply_eq_valid_iff.mp hfields
  obtain ⟨hchecked, haddress⟩ := Cambio.Service.Config.isChecked_of_fields hclient
  exact
    { client := hchecked
      address := rule_of_ruledField passes_default.address
        (fun _ _ => Rule.address_address) haddress
      supported := codes_of_codesField passes_default.supported hcodes }

theorem Rates.passes_of_fields {ms : List (String × Json)} {r : Rates}
    (h : Rates.fields ms = .ok (.valid r)) : r.Passes := by
  obtain ⟨checked, hcodes, hrest⟩ := Except.bind_eq_ok_iff.mp h
  have hfields : _ = Checked.valid r := Except.ok.inj hrest
  simp only [Checked.seq_eq_valid_iff, Checked.map_eq_valid_iff] at hfields
  obtain ⟨_, secondary, ⟨_, primary, ⟨_, minEntries, ⟨_, pauseMillis, ⟨_, majors, ⟨_, loads,
    ⟨_, persistent, ⟨_, filePath, ⟨expiration, hexpiration, rfl⟩, hfilePath, rfl⟩, -, rfl⟩, -,
    rfl⟩, rfl, rfl⟩, hpause, rfl⟩, hentries, rfl⟩, hprimary, rfl⟩, hsecondary, rfl⟩ := hfields
  have hdefault := passes_default
  exact
    { expirationMinutes :=
        (isStable_wholeBetween 1 10080).of_optional hdefault.expirationMinutes hexpiration
      filePath :=
        rule_of_ruledField hdefault.filePath (fun _ _ => Rule.filePath_filePath) hfilePath
      majors := codes_of_codesField hdefault.majors hcodes
      pauseMillis := (isStable_wholeBetween 0 10000).of_optional hdefault.pauseMillis hpause
      minEntries := (isStable_wholeBetween 1 100).of_optional hdefault.minEntries hentries
      primary := rule_of_ruledField hdefault.primary (fun _ _ => Rule.code_code) hprimary
      secondary := rule_of_ruledField hdefault.secondary (fun _ _ => Rule.code_code) hsecondary }

theorem Display.passes_of_fields {ms : List (String × Json)} {d : Display}
    (h : Display.fields ms = .valid d) : d.Passes := by
  simp only [Display.fields, Checked.seq_eq_valid_iff, Checked.map_eq_valid_iff] at h
  obtain ⟨_, synchronizes, ⟨_, realTime, ⟨_, places, ⟨_, toCode, ⟨fromCode, hfrom, rfl⟩, hto, rfl⟩,
    hplaces, rfl⟩, -, rfl⟩, -, rfl⟩ := h
  have hdefault := passes_default
  exact
    { fromCode := rule_of_ruledField hdefault.fromCode (fun _ _ => Rule.code_code) hfrom
      toCode := rule_of_ruledField hdefault.toCode (fun _ _ => Rule.code_code) hto
      places := (isStable_wholeBetween 0 10).of_optional hdefault.places hplaces }

theorem Logging.passes_of_fields {ms : List (String × Json)} {l : Logging}
    (h : Logging.fields ms = .valid l) : l.Passes := by
  simp only [Logging.fields, Checked.seq_eq_valid_iff, Checked.map_eq_valid_iff] at h
  obtain ⟨_, backups, ⟨_, maxBytes, ⟨_, filePath, ⟨_, toFile, ⟨_, layout, ⟨level, -, rfl⟩, -, rfl⟩,
    -, rfl⟩, hfilePath, rfl⟩, hmaxBytes, rfl⟩, hbackups, rfl⟩ := h
  have hdefault := passes_default
  exact
    { filePath :=
        rule_of_ruledField hdefault.filePath (fun _ _ => Rule.filePath_filePath) hfilePath
      maxBytes := (isStable_wholeBetween 1048576 104857600).of_optional hdefault.maxBytes hmaxBytes
      backups := (isStable_wholeBetween 1 20).of_optional hdefault.backups hbackups }

/-- A section whose default passes, and all that is read off records, passes. -/
theorem passes_of_sectionField {α : Type} {P : α → Prop} {ms : List (String × Json)}
    {name title : String} {default a : α}
    {check : List (String × Json) → Except Misfit (Checked α)} (hdefault : P default)
    (hcheck : ∀ fields a, check fields = .ok (.valid a) → P a)
    (h : sectionField ms name title default check = .ok (.valid a)) : P a := by
  rcases of_sectionField h with rfl | ⟨fields, hfields⟩
  · exact hdefault
  · exact hcheck fields a hfields

theorem passes_of_ofSections {ms : List (String × Json)} {s : Settings}
    (h : ofSections ms = .ok s) : s.Passes := by
  unfold ofSections at h
  split at h
  · cases h
  · next settings hfields =>
    rw [Except.mapError_eq_ok_iff, Checked.toExcept_eq_ok_iff] at h
    obtain ⟨read, rfl, htwo⟩ := Checked.andThen_eq_valid_iff.mp h
    unfold withTwoReferences at htwo
    split_ifs at htwo with hreferences
    · cases htwo
    · cases htwo
      simp only [fields, Except.bind_eq_ok_iff] at hfields
      obtain ⟨service, hservice, rates, hrates, display, hdisplay, logging, hlogging, application,
        -, hall⟩ := hfields
      have hsections : Settings.mk <$> service <*> rates <*> display <*> logging <*> application =
          .valid s := Except.ok.inj hall
      simp only [Checked.seq_eq_valid_iff, Checked.map_eq_valid_iff] at hsections
      obtain ⟨_, _, ⟨_, _, ⟨_, _, ⟨_, _, ⟨_, rfl, rfl⟩, rfl, rfl⟩, rfl, rfl⟩, rfl, rfl⟩, -, rfl⟩ :=
        hsections
      exact
        { service := passes_of_sectionField Service.passes_default
            (fun _ _ => Service.passes_of_fields) hservice
          rates := passes_of_sectionField Rates.passes_default
            (fun _ _ => Rates.passes_of_fields) hrates
          display := passes_of_sectionField Display.passes_default
            (fun _ _ hread => Display.passes_of_fields (Except.ok.inj hread)) hdisplay
          logging := passes_of_sectionField Logging.passes_default
            (fun _ _ hread => Logging.passes_of_fields (Except.ok.inj hread)) hlogging
          references := hreferences }

/-- Each field of settings that were read passes its check as it stands. -/
theorem passes_of_ofSources {r : Reserved} {surroundings : Surroundings}
    {ms : List (String × Json)} {s : Settings}
    (h : (ofSources r surroundings ms).result = .ok s) : s.Passes := by
  unfold ofSources at h
  split at h
  · cases h
  · cases h
  · obtain ⟨lower, -, hsections⟩ := Except.bind_eq_ok_iff.mp h
    exact passes_of_ofSections (Except.mapError_eq_ok_iff.mp hsections)

theorem passes_default : Settings.default.Passes where
  service := Service.passes_default
  rates := Rates.passes_default
  display := Display.passes_default
  logging := Logging.passes_default
  references := by decide

theorem eq_default_of_defaults {vars : Dotenv.Variables} {s : Settings}
    (h : defaults vars = .ok s) : s = default := by
  unfold defaults at h
  split at h
  · exact (Except.ok.inj h).symm
  · cases h
  · cases h

/-- So does each field of the settings that the program starts with. -/
theorem passes_of_load {vars : Dotenv.Variables} {d : Disk} {p : Path} {s : Settings}
    (h : (load vars d p).1.result = .ok s) : s.Passes := by
  have hdefaults (h : defaults vars = .ok s) : s.Passes := by
    rw [eq_default_of_defaults h]
    exact passes_default
  unfold load at h
  split at h
  · cases h
  · split at h
    · cases h
    · next settings hsettings =>
      obtain ⟨saved, -, rfl⟩ := Except.map_eq_ok_iff.mp h
      exact hdefaults hsettings
  · exact hdefaults h
  · unfold ofContents at h
    split at h
    · exact hdefaults h
    · split at h
      · unfold ofRecord at h
        dsimp only at h
        split at h
        · next hread =>
          cases h
          exact passes_of_ofSources hread
        · split at h
          · cases h
          · exact hdefaults h
      · exact hdefaults h
      · split_ifs at h
        exact hdefaults h

end Cambio.Settings
