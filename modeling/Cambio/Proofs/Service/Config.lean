import Cambio.Proofs.Schema
import Cambio.Service.Config
import Mathlib.Data.List.DropRight

/-!
# Configurations that were read

A configuration passes its checks field by field, and what was read passes them once more when it
is written back, so a record of it is judged by its address alone. An address is accepted as it
stands, without the slashes at its end.

## Main definitions

- `Service.Config.IsChecked` — a configuration whose fields pass their checks
- `Service.Config.HasScheme` — an address as the service needs it

## Main statements

- `Service.Config.isChecked_of_fields` — what is read off a record
- `Service.Config.IsChecked.ofJson_members` — what is written back
- `Service.Config.accept_of_hasScheme`, `Service.Config.accept_of_not_hasScheme` — the two ways in
  which a configuration is judged
-/

namespace Cambio

theorem Text.trimEndBy_eq_rdropWhile (p : Char → Bool) (s : List Char) :
    trimEndBy p s = s.rdropWhile p :=
  rfl

namespace Service.Config

open Schema

/-! ## Fields -/

/-- All fields but the address pass their checks. -/
structure IsChecked (c : Config) : Prop where
  timeout : numberBetween 1 120 (.binary c.timeout) = .valid c.timeout
  maxRetries : wholeBetween 0 10 (.whole c.maxRetries) = .valid c.maxRetries
  retryDelay : numberBetween 0 10 (.binary c.retryDelay) = .valid c.retryDelay
  backoff : numberBetween 1 5 (.binary c.backoff) = .valid c.backoff
  threshold : wholeBetween 1 20 (.whole c.threshold) = .valid c.threshold
  cooldown : wholeBetween 1 600 (.whole c.cooldown) = .valid c.cooldown

/-- The fields that are read off a record, with their defaults, are checked. -/
theorem isChecked_of_fields {ms : List (String × Json)} {address : Checked String} {c : Config}
    (h : fields ms address = .valid c) : c.IsChecked ∧ address = .valid c.address := by
  -- The last field is the outermost of the chain, so the fields come off from the end.
  simp only [fields, Checked.seq_eq_valid_iff, Checked.map_eq_valid_iff] at h
  obtain ⟨_, cooldown, ⟨_, threshold, ⟨_, backoff, ⟨_, retryDelay, ⟨_, maxRetries, ⟨_, timeout,
    ⟨_, apiKey, ⟨address, haddress, rfl⟩, -, rfl⟩, htimeout, rfl⟩, hmaxRetries, rfl⟩,
    hretryDelay, rfl⟩, hbackoff, rfl⟩, hthreshold, rfl⟩, hcooldown, rfl⟩ := h
  refine ⟨⟨?_, ?_, ?_, ?_, ?_, ?_⟩, haddress⟩
  · exact (isStable_numberBetween 1 120).of_optional
      (numberBetween_binary (by decide +kernel) (by decide +kernel)) htimeout
  · exact (isStable_wholeBetween 0 10).of_optional rfl hmaxRetries
  · exact (isStable_numberBetween 0 10).of_optional
      (numberBetween_binary (by decide +kernel) (by decide +kernel)) hretryDelay
  · exact (isStable_numberBetween 1 5).of_optional
      (numberBetween_binary (by decide +kernel) (by decide +kernel)) hbackoff
  · exact (isStable_wholeBetween 1 20).of_optional rfl hthreshold
  · exact (isStable_wholeBetween 1 600).of_optional rfl hcooldown

/-- The fields are found among the members of a checked configuration, whatever follows them. -/
theorem IsChecked.fields_members {c : Config} (h : c.IsChecked) (more : List (String × Json))
    (address : Checked String) :
    fields (c.members ++ more) address = address.map fun text => { c with address := text } := by
  have hapiKey : optional (c.members ++ more) "api_key" "" text = .valid c.apiKey :=
    optional_of_get? "" rfl rfl
  rw [fields, hapiKey, optional_of_get? _ rfl h.timeout, optional_of_get? _ rfl h.maxRetries,
    optional_of_get? _ rfl h.retryDelay, optional_of_get? _ rfl h.backoff,
    optional_of_get? _ rfl h.threshold, optional_of_get? _ rfl h.cooldown]
  cases address <;> rfl

/-- A record that a checked configuration is written to is judged by its address alone. -/
theorem IsChecked.ofJson_members {c : Config} (h : c.IsChecked) :
    ofJson (.object c.members) = c.accept := by
  have haddress : required c.members "base_url" (ruledText addressRule) =
      (Checked.ofRule (addressRule c.address)).under "base_url" := rfl
  have hfields := h.fields_members []
  rw [List.append_nil] at hfields
  rw [ofJson, Schema.members, Checked.andThen, haddress, hfields, accept]
  cases addressRule c.address <;> rfl

/-! ## Addresses -/

theorem withoutEndSlashes_withoutEndSlashes (s : String) :
    withoutEndSlashes (withoutEndSlashes s) = withoutEndSlashes s := by
  simp only [withoutEndSlashes, String.toList_ofList, Text.trimEndBy_eq_rdropWhile,
    List.rdropWhile_idempotent]

/-- Nothing but slashes is taken off the end. -/
theorem mem_withoutEndSlashes_or {s : String} {c : Char} (h : c ∈ s.toList) :
    c ∈ (withoutEndSlashes s).toList ∨ c = '/' := by
  rw [withoutEndSlashes, String.toList_ofList, Text.trimEndBy_eq_rdropWhile]
  rw [← List.rdropWhile_append_rtakeWhile (p := (· = '/')) (l := s.toList)] at h
  rcases List.mem_append.mp h with hkept | hslash
  · exact .inl hkept
  · exact .inr (by simpa using List.mem_rtakeWhile_imp hslash)

/-- An address has one of the two schemes as the service needs it. -/
def HasScheme (address : String) : Prop :=
  address.startsWith "http://" = true ∨ address.startsWith "https://" = true

instance (address : String) : Decidable (HasScheme address) :=
  inferInstanceAs (Decidable (_ ∨ _))

theorem addressRule_of_hasScheme {address : String} (h : HasScheme address) :
    addressRule address = .ok (withoutEndSlashes address) := by
  rw [addressRule, if_pos (by simpa [HasScheme] using h)]

theorem addressRule_of_not_hasScheme {address : String} (h : ¬ HasScheme address) :
    addressRule address = .error "Base URL must start with http:// or https://" := by
  rw [addressRule, if_neg (by simpa [HasScheme] using h)]

/-- A configuration with such an address is taken over as it is, if the slashes are gone. -/
theorem accept_of_hasScheme {c : Config} (h : HasScheme c.address)
    (hslashes : withoutEndSlashes c.address = c.address) : c.accept = .ok c := by
  rw [accept, addressRule_of_hasScheme h, hslashes]

theorem accept_of_not_hasScheme {c : Config} (h : ¬ HasScheme c.address) :
    c.accept = .error ⟨title,
      [⟨["base_url"], .refused "Base URL must start with http:// or https://"⟩]⟩ := by
  rw [accept, addressRule_of_not_hasScheme h]

end Service.Config

end Cambio
