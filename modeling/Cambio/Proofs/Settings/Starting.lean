import Cambio.Proofs.Settings.Passes
import Cambio.Session.Basic

/-!
# Starting with settings that were read

Whatever record and surroundings settings were read from, every field of the rate service passes
its check once more when the client is made, and every code makes a currency of the catalog. Only
the address is checked by another rule then: it has to start with one of two schemes as it stands,
while the settings look for the scheme behind blanks and in letters of either case. So a session
starts exactly if the address starts so, and its client has the fields of the settings.

## Main definitions

- `Settings.Service.IsRead` — what holds of a rate service that was read
- `Settings.StartRules` — how a session starts

## Main statements

- `Settings.isRead_of_ofSources` — the rate service of all settings that are read
- `Settings.startRules_of_ofSources` — starting with them
-/

namespace Cambio.Settings

/-! ## The rate service -/

/-- What holds of the rate service and the currencies of settings that were read. -/
structure Service.IsRead (s : Service) : Prop where
  checked : s.client.IsChecked
  /-- The address is the default, or it has passed the rule for addresses. -/
  address : s.client.address = Service.default.client.address ∨
    ∃ text, Rule.address Rule.webSchemes text = .ok s.client.address
  codes : ∀ a ∈ s.supported, Currency.isCode a.toList = true

theorem Service.Passes.isRead {s : Service} (h : s.Passes) : s.IsRead :=
  ⟨h.client, .inr ⟨_, h.address⟩, Rule.isCode_of_codes h.supported⟩

theorem isRead_of_ofSources {r : Reserved} {surroundings : Surroundings}
    {ms : List (String × Json)} {s : Settings}
    (h : (ofSources r surroundings ms).result = .ok s) : s.service.IsRead :=
  (passes_of_ofSources h).service.isRead

/-- The slashes at the end of an address were dropped when it was read. -/
theorem Service.IsRead.withoutEndSlashes_address {s : Service} (h : s.IsRead) :
    Cambio.Service.Config.withoutEndSlashes s.client.address = s.client.address := by
  rcases h.address with hdefault | ⟨text, haccepted⟩
  · rw [hdefault]
    decide
  · obtain ⟨hdropped, -⟩ := Rule.address_eq_ok haccepted
    rw [hdropped, Cambio.Service.Config.withoutEndSlashes_withoutEndSlashes]

/-! ## Starting -/

open Cambio.Service.Config (HasScheme accept_of_hasScheme accept_of_not_hasScheme)

/-- How a session starts with settings. -/
structure StartRules (s : Settings) (o : Outside) : Prop where
  /-- As a record the configuration of the rate service is refused for its address only. -/
  judged : Cambio.Service.Config.ofJson (.object s.service.client.members) = s.service.client.accept
  /-- Every code makes a currency. -/
  catalog : Currency.catalogOf s.service.supported = .ok (Currency.catalog s.service.supported)
  /-- A session whose client has the whole configuration starts, if the address has a scheme. -/
  starts : HasScheme s.service.client.address → ∃ session,
    Session.ofSettings s o = .ok session ∧ session.settings = s ∧
      session.converter.client = .ofConfig s.service.client
  refused : ¬ HasScheme s.service.client.address → Session.ofSettings s o =
    .error ⟨"CurrencyApiClientConfig",
      [⟨["base_url"], .refused "Base URL must start with http:// or https://"⟩]⟩
  /-- An address without blanks has one, unless there are capital letters before the colon. -/
  plain : (∀ c ∈ s.service.client.address.toList, Address.isLeading c = false) →
    (HasScheme s.service.client.address ↔
      ∀ c ∈ s.service.client.address.toList.takeWhile (· ≠ ':'), c.isUpper = false)

theorem startRules_of_ofSources {r : Reserved} {surroundings : Surroundings}
    {ms : List (String × Json)} {s : Settings}
    (h : (ofSources r surroundings ms).result = .ok s) (o : Outside) : s.StartRules o := by
  have hread : s.service.IsRead := isRead_of_ofSources h
  refine ⟨hread.checked.ofJson_members, Currency.catalogOf_of_isCode hread.codes,
    fun hscheme => ?_, fun hscheme => ?_, fun hplain => ?_⟩
  · rw [Session.ofSettings, accept_of_hasScheme hscheme hread.withoutEndSlashes_address]
    exact ⟨_, rfl, rfl, rfl⟩
  · rw [Session.ofSettings, accept_of_not_hasScheme hscheme]
    rfl
  · rcases hread.address with hdefault | ⟨text, haccepted⟩
    · rw [hdefault]
      exact iff_of_true (by decide +kernel) (by simp [Service.default])
    · exact Rule.hasScheme_iff_of_plain haccepted hplain

/-- The defaults with another address of the rate service. -/
def withAddress (address : String) : Settings :=
  { default with
    service := ⟨{ Service.default.client with address := address }, Service.default.supported⟩ }

/-- A record that says this address. -/
def addressMembers (address : String) : List (String × Json) :=
  [("currency_api", .object [("base_url", .text address)])]

/-- What surrounds a record where there are neither variables nor files. -/
def Surroundings.bare : Surroundings := ⟨[], .empty⟩

/-- A rate service that brings nothing, and no files. -/
def unanswered : Outside := ⟨⟨.earliest, [], [], []⟩, .empty⟩

/-- With an address in small letters a session starts, without the slash at the end. -/
theorem starts_withAddress :
    (ofSources .usual .bare (addressMembers "http://api.example.com/v1/")).result =
        .ok (withAddress "http://api.example.com/v1") ∧
      ∃ session, Session.ofSettings (withAddress "http://api.example.com/v1") unanswered =
        .ok session ∧ session.converter.client.config.address = "http://api.example.com/v1" := by
  have hread : (ofSources .usual .bare (addressMembers "http://api.example.com/v1/")).result =
      .ok (withAddress "http://api.example.com/v1") := by decide +kernel
  have hrules := startRules_of_ofSources hread unanswered
  have hscheme : HasScheme (withAddress "http://api.example.com/v1").service.client.address := by
    decide +kernel
  obtain ⟨session, hstarted, -, hclient⟩ := hrules.starts hscheme
  refine ⟨hread, session, hstarted, ?_⟩
  rw [hclient]
  rfl

/-- With capital letters in the scheme settings are read, but no session starts. -/
theorem not_starts_of_capitals :
    (ofSources .usual .bare (addressMembers "HTTP://api.example.com/v1")).result =
        .ok (withAddress "HTTP://api.example.com/v1") ∧
      ∀ o, Session.ofSettings (withAddress "HTTP://api.example.com/v1") o =
        .error ⟨"CurrencyApiClientConfig",
          [⟨["base_url"], .refused "Base URL must start with http:// or https://"⟩]⟩ := by
  refine ⟨by decide +kernel, fun o => ?_⟩
  have hrefused : ¬ HasScheme (withAddress "HTTP://api.example.com/v1").service.client.address := by
    decide +kernel
  rw [Session.ofSettings, accept_of_not_hasScheme hrefused]
  rfl

end Cambio.Settings
