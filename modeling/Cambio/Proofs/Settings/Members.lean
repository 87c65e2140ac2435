import Cambio.Proofs.Entries
import Cambio.Proofs.Settings.Passes

/-!
# Settings as records

The sections that settings are written to are read as the same sections, as each of their fields
passes its check as it stands. The record of settings gives no directions, so with no variables and
no files of variables nothing lies below it, and it is read as the same settings.

## Main statements

- `Settings.Passes.ofSections_members` — settings are read back off their own sections
- `Settings.Passes.ofSources_members` — and so they are off their own record
-/

namespace Cambio.Settings

open Schema

variable {s : Settings} {ms : List (String × Json)}

/-! ## Sections -/

theorem Service.Passes.fields_members {s : Service} (h : s.Passes) (hms : s.toJson = .object ms) :
    Service.fields ms = .ok (.valid s) := by
  cases hms
  rw [Service.fields, codesField_of_get? _ rfl h.supported, ruledField_of_get? _ rfl h.address]
  change Except.ok (Service.mk <$> Cambio.Service.Config.fields _ _ <*> _) = _
  rw [h.client.fields_members]
  rfl

theorem Rates.Passes.fields_members {r : Rates} (h : r.Passes) (hms : r.toJson = .object ms) :
    Rates.fields ms = .ok (.valid r) := by
  cases hms
  rw [Rates.fields, codesField_of_get? _ rfl h.majors,
    optional_of_get? _ rfl h.expirationMinutes, ruledField_of_get? _ rfl h.filePath,
    yesNo_of_get? _ rfl, yesNo_of_get? _ rfl, optional_of_get? _ rfl h.pauseMillis,
    optional_of_get? _ rfl h.minEntries, ruledField_of_get? _ rfl h.primary,
    ruledField_of_get? _ rfl h.secondary]
  rfl

theorem Display.Passes.fields_members {d : Display} (h : d.Passes) (hms : d.toJson = .object ms) :
    Display.fields ms = .valid d := by
  cases hms
  rw [Display.fields, ruledField_of_get? _ rfl h.fromCode, ruledField_of_get? _ rfl h.toCode,
    optional_of_get? _ rfl h.places, yesNo_of_get? _ rfl, yesNo_of_get? _ rfl]
  rfl

theorem Logging.Passes.fields_members {l : Logging} (h : l.Passes) (hms : l.toJson = .object ms) :
    Logging.fields ms = .valid l := by
  cases hms
  rw [Logging.fields, ruledField_of_get? _ rfl (Rule.level_name l.level),
    ruledField_of_get? _ rfl (Rule.layout_name l.layout), yesNo_of_get? _ rfl,
    ruledField_of_get? _ rfl h.filePath, optional_of_get? _ rfl h.maxBytes,
    optional_of_get? _ rfl h.backups]
  rfl

theorem Application.fields_members {a : Application} (hms : a.toJson = .object ms) :
    Application.fields ms = .valid a := by
  cases hms
  rw [Application.fields, text_of_get? _ rfl, text_of_get? _ rfl,
    ruledField_of_get? _ rfl (Rule.environment_name a.environment), yesNo_of_get? _ rfl]
  rfl

theorem Passes.fields_members (h : s.Passes) (hms : s.toJson = .object ms) :
    fields ms = .ok (.valid s) := by
  cases hms
  rw [fields, sectionField_of_get? _ _ rfl (h.service.fields_members rfl),
    sectionField_of_get? _ _ rfl (h.rates.fields_members rfl),
    sectionField_of_get? _ _ rfl (congrArg Except.ok (h.display.fields_members rfl)),
    sectionField_of_get? _ _ rfl (congrArg Except.ok (h.logging.fields_members rfl)),
    sectionField_of_get? _ _ rfl (congrArg Except.ok (Application.fields_members rfl))]
  rfl

/-- Settings are read back off their own sections. -/
theorem Passes.ofSections_members (h : s.Passes) (hms : s.toJson = .object ms) :
    ofSections ms = .ok s := by
  rw [ofSections, h.fields_members hms]
  change ((withTwoReferences s).toExcept title).mapError _ = _
  rw [withTwoReferences, if_neg h.references]
  rfl

/-! ## Records -/

theorem names_of_toJson (hms : s.toJson = .object ms) : Entries.names ms = sectionNames := by
  cases hms
  rfl

theorem key_of_mem_sectionNames : ∀ name ∈ sectionNames, Directions.usual.key name = name := by
  decide +kernel

theorem sectionsOf_members (hms : s.toJson = .object ms) : sectionsOf .usual ms = ms := by
  have hkey (name : String) (hname : name ∈ sectionNames) := key_of_mem_sectionNames name hname
  cases hms
  simp only [sectionsOf, sectionNames, member?, List.find?, hkey "currency_api" (by decide),
    hkey "rate_cache" (by decide), hkey "display" (by decide), hkey "logging" (by decide),
    hkey "application" (by decide)]
  rfl

theorem clash?_members (hms : s.toJson = .object ms) : Reserved.usual.clash? ms = none := by
  cases hms
  rfl

theorem directions_members (hms : s.toJson = .object ms) :
    Reserved.usual.directions ms = .ok .usual := by
  cases hms
  rfl

/-! ## Nothing below -/

theorem underlay_of_notMem {name : String} {lower : List (String × Json)}
    (h : name ∉ Entries.names lower) (fuel : Nat) (v : Json) :
    underlay (fuel + 1) lower [(name, v)] = lower ++ [(name, v)] := by
  have hnone : Entries.get? name lower = none := by
    rwa [← Entries.has_iff_mem_names, Entries.has, Option.not_isSome_iff_eq_none] at h
  unfold underlay
  simp only [List.foldl_cons, List.foldl_nil, hnone]
  exact Entries.put_of_notMem h v

/-- A record whose names are new is put at the end of another. -/
theorem underlay_of_nodup {lower : List (String × Json)}
    (h : (Entries.names (lower ++ ms)).Nodup) (fuel : Nat) :
    underlay (fuel + 1) lower ms = lower ++ ms := by
  induction ms generalizing lower with
  | nil => exact (List.append_nil lower).symm
  | cons entry rest ih =>
    have hnew : entry.1 ∉ Entries.names lower := by
      rw [Entries.names, List.map_append] at h
      intro hmem
      exact (List.nodup_append.mp h).2.2 _ hmem _ List.mem_cons_self rfl
    have hstep : underlay (fuel + 1) lower (entry :: rest) =
        underlay (fuel + 1) (underlay (fuel + 1) lower [entry]) rest := rfl
    rw [List.append_cons] at h ⊢
    rw [hstep, underlay_of_notMem hnew, ih h]

variable {d : Disk}

/-- No file of variables lies in the working folder. -/
def LacksVariables (d : Disk) : Prop :=
  d.read? (.ofText variablesFile) = none

instance (d : Disk) : Decidable (LacksVariables d) :=
  inferInstanceAs (Decidable (_ = _))

theorem members_of_lacksVariables (h : LacksVariables d) :
    Surroundings.members .usual ⟨[], d⟩ = ([], .ok []) := by
  have hfile : Surroundings.variablesOf .usual ⟨[], d⟩ (.ofText variablesFile) = .ok [] := by
    have hlook : d.look (.ofText variablesFile) = .ok (d.node? [variablesFile]) := rfl
    have hread : d.at? (.ofText variablesFile) = d.node? [variablesFile] := rfl
    unfold LacksVariables Disk.read? at h
    rw [hread] at h
    unfold Surroundings.variablesOf
    rw [hlook]
    split
    · next hfound => cases hfound
    · next bytes hfound =>
      rw [Except.ok.inj hfound] at h
      cases h
    · rfl
  have hfiles : Surroundings.fileVariables .usual ⟨[], d⟩ = .ok [] := by
    have hone : Directions.usual.files = [.ofText variablesFile] := rfl
    rw [Surroundings.fileVariables, hone, List.foldlM_cons, hfile]
    rfl
  unfold Surroundings.members
  rw [hfiles]
  rfl

/-- Settings are read back off their own record, if nothing else tells anything about them. -/
theorem Passes.ofSources_members (h : s.Passes) (hms : s.toJson = .object ms)
    (hd : LacksVariables d) : ofSources .usual ⟨[], d⟩ ms = ⟨.ok s, []⟩ := by
  have hnodup : (Entries.names ([] ++ ms)).Nodup := by
    rw [List.nil_append, names_of_toJson hms]
    decide
  have hunder : underlay depth [] ms = ms := underlay_of_nodup hnodup 989
  unfold ofSources
  rw [clash?_members hms, directions_members hms]
  dsimp only
  rw [members_of_lacksVariables hd, sectionsOf_members hms]
  change Reading.mk ((ofSections (underlay depth [] ms)).mapError SourceFailure.failure) [] = _
  rw [hunder, h.ofSections_members hms]
  rfl

end Cambio.Settings
