import Cambio.Conversion.Converter
import Cambio.Proofs.Settings.Starting

/-!
# The selection at the start

A converter starts with the two currencies that the settings want. One that is not supported gives
way to a fixed entry of the catalog: the first for the one to convert from, the second for the one
to convert to. So both are always selected. They are different unless one gives way to just the
currency that the other one is.

## Main definitions

- `Converter.preferred?` — the wanted code, or else the one at a place
- `Converter.Collides` — one code gives way to the other
- `Converter.FirstSelection` — what a converter starts with

## Main statements

- `Converter.preferred?_ne_iff` — when two codes are different
- `Converter.firstSelection_of_ofSources` — the start with settings that were read
-/

namespace Cambio.Converter

variable {codes : List String} {wanted fromCode toCode : String}

/-! ## Wanted codes -/

/-- The wanted code if it is one of the codes, or else the code at a place. -/
def preferred? (codes : List String) (wanted : String) (place : Nat) : Option String :=
  if wanted ∈ codes then some wanted else codes[place]?

/-- One of two codes is none of the codes, and at its place is the other one. -/
inductive Collides (codes : List String) (fromCode toCode : String) : Prop
  | first (hmissing : fromCode ∉ codes) (hplace : codes[0]? = some toCode)
  | second (hmissing : toCode ∉ codes) (hplace : codes[1]? = some fromCode)

theorem not_collides_of_mem (hfrom : fromCode ∈ codes) (hto : toCode ∈ codes) :
    ¬ Collides codes fromCode toCode := by
  rintro (⟨hmissing, -⟩ | ⟨hmissing, -⟩)
  · exact hmissing hfrom
  · exact hmissing hto

theorem not_collides_of_not_mem (hfrom : fromCode ∉ codes) (hto : toCode ∉ codes) :
    ¬ Collides codes fromCode toCode := by
  rintro (⟨-, hplace⟩ | ⟨-, hplace⟩)
  · exact hto (List.mem_of_getElem? hplace)
  · exact hfrom (List.mem_of_getElem? hplace)

/-- The codes that are selected for two different ones are different too, unless they collide. -/
theorem preferred?_ne_iff (honce : codes.Nodup) (hmany : 2 ≤ codes.length)
    (hne : fromCode ≠ toCode) :
    preferred? codes fromCode 0 ≠ preferred? codes toCode 1 ↔ ¬ Collides codes fromCode toCode := by
  rw [preferred?, preferred?]
  by_cases hfrom : fromCode ∈ codes
  · rw [if_pos hfrom]
    by_cases hto : toCode ∈ codes
    · rw [if_pos hto]
      exact iff_of_true (fun h => hne (Option.some.inj h)) (not_collides_of_mem hfrom hto)
    · rw [if_neg hto, not_iff_not]
      refine ⟨fun h => .second hto h.symm, ?_⟩
      rintro (⟨hmissing, -⟩ | ⟨-, hplace⟩)
      · exact absurd hfrom hmissing
      · exact hplace.symm
  · rw [if_neg hfrom]
    by_cases hto : toCode ∈ codes
    · rw [if_pos hto, not_iff_not]
      refine ⟨.first hfrom, ?_⟩
      rintro (⟨-, hplace⟩ | ⟨hmissing, -⟩)
      · exact hplace
      · exact absurd hto hmissing
    · -- both give way, to different places, and no code is at two places
      rw [if_neg hto]
      refine iff_of_true (fun h => ?_) (not_collides_of_not_mem hfrom hto)
      have hplaces := (List.getElem?_inj (by omega) honce).mp h
      omega

/-! ## The catalog -/

theorem code_ofCode (code : String) : (Currency.ofCode code).code = code := by
  rw [Currency.ofCode]
  cases hknown : Currency.known.find? (·.code = code) with
  | none => rfl
  | some currency =>
    have hcode := List.find?_some hknown
    exact of_decide_eq_true hcode

theorem offer?_catalog (codes : List String) (code : String) :
    offer? (Currency.catalog codes) code =
      if code ∈ codes then some (Currency.ofCode code) else none := by
  induction codes with
  | nil => rfl
  | cons first rest ih =>
    rw [offer?, Currency.catalog] at ih ⊢
    rw [List.map_cons, List.find?_cons, code_ofCode]
    by_cases hcode : first = code
    · simp [hcode]
    · rw [decide_eq_false hcode]
      simp only [ih, List.mem_cons, Ne.symm hcode, false_or]

theorem offer?_or_catalog (codes : List String) (code : String) (place : Nat) :
    (offer? (Currency.catalog codes) code).or (Currency.catalog codes)[place]? =
      (preferred? codes code place).map Currency.ofCode := by
  rw [offer?_catalog, preferred?]
  split
  · rfl
  · exact List.getElem?_map

/-! ## The start -/

/-- What a converter starts with. -/
structure FirstSelection (c : Converter) : Prop where
  /-- Both currencies are selected, and both are in the catalog. -/
  selected : ∃ source target, c.fromCurrency = some source ∧ c.toCurrency = some target ∧
    source ∈ c.catalog ∧ target ∈ c.catalog
  /-- A wanted currency that is supported is the one. -/
  wantedFrom : c.settings.display.fromCode ∈ c.settings.service.supported →
    c.fromCurrency.map Currency.code = some c.settings.display.fromCode
  wantedTo : c.settings.display.toCode ∈ c.settings.service.supported →
    c.toCurrency.map Currency.code = some c.settings.display.toCode
  /-- The places of those that are not supported. -/
  otherFrom : c.settings.display.fromCode ∉ c.settings.service.supported →
    c.fromCurrency = c.catalog[0]?
  otherTo : c.settings.display.toCode ∉ c.settings.service.supported →
    c.toCurrency = c.catalog[1]?
  /-- They are different, unless they collide. -/
  distinct : c.fromCurrency.map Currency.code ≠ c.toCurrency.map Currency.code ↔
    ¬ Collides c.settings.service.supported c.settings.display.fromCode c.settings.display.toCode

theorem map_code_map_ofCode (code? : Option String) :
    (code?.map Currency.ofCode).map Currency.code = code? := by
  cases code? with
  | none => rfl
  | some code => exact congrArg some (code_ofCode code)

theorem exists_mem_catalog (wanted : String) {place : Nat} (hplace : place < codes.length) :
    ∃ currency, (preferred? codes wanted place).map Currency.ofCode = some currency ∧
      currency ∈ Currency.catalog codes := by
  by_cases hwanted : wanted ∈ codes
  · rw [preferred?, if_pos hwanted]
    exact ⟨_, rfl, List.mem_map_of_mem hwanted⟩
  · rw [preferred?, if_neg hwanted, List.getElem?_eq_getElem hplace]
    exact ⟨_, rfl, List.mem_map_of_mem (List.getElem_mem hplace)⟩

/-- **The selection at the start**: with settings that were read, with two codes or more and with
    two different ones wanted, both currencies are selected from the catalog, as wanted where they
    are supported, and they are different unless they collide. -/
theorem firstSelection_of_ofSources {r : Settings.Reserved} {surroundings : Settings.Surroundings}
    {ms : List (String × Json)} {s : Settings}
    (h : (Settings.ofSources r surroundings ms).result = .ok s)
    (hmany : 2 ≤ s.service.supported.length) (hne : s.display.fromCode ≠ s.display.toCode)
    (client : Client) (store : Option Path) (cache : RateCache) :
    (ofSettings s client store cache).FirstSelection := by
  have honce := (Rule.areCodes_of_codes (Settings.passes_of_ofSources h).service.supported).1.once
  have hfrom : (ofSettings s client store cache).fromCurrency =
      (preferred? s.service.supported s.display.fromCode 0).map Currency.ofCode :=
    offer?_or_catalog _ _ _
  have hto : (ofSettings s client store cache).toCurrency =
      (preferred? s.service.supported s.display.toCode 1).map Currency.ofCode :=
    offer?_or_catalog _ _ _
  refine ⟨?_, fun hwanted => ?_, fun hwanted => ?_, fun hmissing => ?_, fun hmissing => ?_, ?_⟩
  · obtain ⟨source, hsource, hmem⟩ :=
      exists_mem_catalog s.display.fromCode (Nat.lt_of_succ_lt hmany)
    obtain ⟨target, htarget, hmem'⟩ :=
      exists_mem_catalog s.display.toCode hmany
    exact ⟨source, target, hfrom.trans hsource, hto.trans htarget, hmem, hmem'⟩
  · rw [hfrom, map_code_map_ofCode]
    exact if_pos hwanted
  · rw [hto, map_code_map_ofCode]
    exact if_pos hwanted
  · have hplace : preferred? s.service.supported s.display.fromCode 0 = s.service.supported[0]? :=
      if_neg hmissing
    rw [hfrom, hplace]
    exact List.getElem?_map.symm
  · have hplace : preferred? s.service.supported s.display.toCode 1 = s.service.supported[1]? :=
      if_neg hmissing
    rw [hto, hplace]
    exact List.getElem?_map.symm
  · rw [hfrom, hto, map_code_map_ofCode, map_code_map_ofCode]
    exact preferred?_ne_iff honce hmany hne

/-- A record that says two supported codes and the ones to start with. -/
def selectionMembers (first second fromCode toCode : String) : List (String × Json) :=
  [("currency_api", .object [("supported_currencies", .list [.text first, .text second])]),
    ("display", .object
      [("default_from_currency", .text fromCode), ("default_to_currency", .text toCode)])]

/-- The defaults with two supported codes and others to start with. -/
def selecting (first second fromCode toCode : String) : Settings :=
  { Settings.default with
    service := ⟨Settings.Service.default.client, [first, second]⟩
    display := { Settings.default.display with fromCode := fromCode, toCode := toCode } }

/-- Pounds are not supported, and the first of the catalog are euros. -/
theorem firstSelection_of_ofSources_pounds :
    (Settings.ofSources .usual .bare (selectionMembers "EUR" "USD" "GBP" "USD")).result =
        .ok (selecting "EUR" "USD" "GBP" "USD") ∧
      ∀ client store cache,
        (ofSettings (selecting "EUR" "USD" "GBP" "USD") client store cache).FirstSelection ∧
        ¬ Collides ["EUR", "USD"] "GBP" "USD" := by
  have hread : (Settings.ofSources .usual .bare
      (selectionMembers "EUR" "USD" "GBP" "USD")).result =
        .ok (selecting "EUR" "USD" "GBP" "USD") := by decide +kernel
  refine ⟨hread, fun client store cache => ⟨firstSelection_of_ofSources hread (by decide)
    (by decide) client store cache, ?_⟩⟩
  rintro (⟨-, hplace⟩ | ⟨hmissing, -⟩)
  · exact absurd hplace (by decide)
  · exact absurd hmissing (by decide)

/-- Pounds are not supported, and the second of the catalog are the dollars that are selected. -/
theorem same_selection_of_pounds :
    (Settings.ofSources .usual .bare (selectionMembers "EUR" "USD" "USD" "GBP")).result =
        .ok (selecting "EUR" "USD" "USD" "GBP") ∧
      ∀ client store cache,
        (ofSettings (selecting "EUR" "USD" "USD" "GBP") client store cache).fromCurrency =
          (ofSettings (selecting "EUR" "USD" "USD" "GBP") client store cache).toCurrency := by
  refine ⟨by decide +kernel, fun client store cache => ?_⟩
  have hselected : initialFrom (Currency.catalog ["EUR", "USD"]) "USD" =
      initialTo (Currency.catalog ["EUR", "USD"]) "GBP" := by
    decide +kernel
  exact hselected

end Cambio.Converter
