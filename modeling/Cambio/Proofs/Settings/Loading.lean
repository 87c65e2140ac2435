import Cambio.Proofs.Settings.Passes
import Cambio.Proofs.Text.Encoding

/-!
# Reading the settings file

A settings file that is there is left as it is. Its document gives the settings, or it is of no use
and the defaults hold. But some documents end the reading without any settings: where a list of
codes should be, there is a value without items or an item that is no text; a member has a reserved
name or is a direction of no use; or the nesting goes too deep.

## Main definitions

- `Rule.NoCodes`, `Settings.HoldsNoCodes` — values that no list of codes can be made of
- `Settings.Halts` — what ends the reading of a record
- `Settings.Outcome` — what comes of a file or folder
- `Settings.LoadingRules` — how the settings file is read

## Main statements

- `Rule.codes_eq_misfit_iff` — the values on which the rule for lists breaks
- `Settings.fields_eq_error_iff` — the sections on which reading breaks
- `Settings.loadingRules_load` — all files and folders
-/

namespace Cambio

/-! ## Lists of codes -/

namespace Rule

variable {v : Json} {m : Misfit} {found : List String} {items : List Json}

/-- A value that no list of codes can be made of, and why. -/
inductive NoCodes (v : Json) : Misfit → Prop
  | noItems (items : codeItems? v = none) : NoCodes v (.noItems v.sort)
  /-- After some codes there is an item that is no text and does not stand for nothing. -/
  | noText (before : List Json) (item : Json) (after : List Json)
      (items : codeItems? v = some (before ++ item :: after))
      (codes : ∀ w ∈ before, ∃ a, codeOf w = .accepted a) (noText : ∀ s, item ≠ .text s)
      (solid : item.isVoid = false) : NoCodes v (.lacks item.sort "upper")

theorem codeOf_eq_misfit_iff :
    codeOf v = .misfit m ↔ (∀ s, v ≠ .text s) ∧ v.isVoid = false ∧ m = .lacks v.sort "upper" := by
  unfold codeOf onText
  split
  · next s =>
    refine iff_of_false ?_ fun h => h.1 s rfl
    dsimp only
    cases code s <;> exact nofun
  · next hnoText =>
    split_ifs with hvoid
    · exact iff_of_false nofun fun h => Bool.false_ne_true (h.2.1.symm.trans hvoid)
    · rw [Outcome.misfit.injEq, eq_comm]
      exact ⟨fun hm => ⟨hnoText, by simpa using hvoid, hm⟩, fun h => h.2.2⟩

/-- Looking for codes breaks at the first item that is of no use, if only codes come before it. -/
theorem codesOf_eq_misfit_iff :
    codesOf found items = .misfit m ↔ ∃ before item after, items = before ++ item :: after ∧
      (∀ w ∈ before, ∃ a, codeOf w = .accepted a) ∧ codeOf item = .misfit m := by
  induction items generalizing found with
  | nil =>
    rw [codesOf]
    refine iff_of_false (by split <;> intro h <;> cases h) ?_
    rintro ⟨before, item, after, hitems, -⟩
    simp at hitems
  | cons v rest ih =>
    rw [codesOf]
    constructor
    · intro h
      split at h
      · next a hcode =>
        obtain ⟨before, item, after, rfl, hbefore, hitem⟩ := ih.mp h
        refine ⟨v :: before, item, after, rfl, ?_, hitem⟩
        exact List.forall_mem_cons.mpr ⟨⟨a, hcode⟩, hbefore⟩
      · cases h
      · next hcode =>
        cases h
        exact ⟨[], v, rest, rfl, fun _ hmem => absurd hmem List.not_mem_nil, hcode⟩
    · rintro ⟨before, item, after, hitems, hbefore, hitem⟩
      cases before with
      | nil =>
        cases hitems
        rw [hitem]
      | cons w before =>
        cases hitems
        obtain ⟨⟨a, hcode⟩, hmore⟩ := List.forall_mem_cons.mp hbefore
        rw [hcode]
        exact ih.mpr ⟨before, item, after, rfl, hmore, hitem⟩

/-- **The rule for lists of codes** breaks on exactly these values. -/
theorem codes_eq_misfit_iff : codes v = .misfit m ↔ NoCodes v m := by
  unfold codes
  constructor
  · intro h
    split at h
    · next items hitems =>
      obtain ⟨before, item, after, rfl, hbefore, hitem⟩ := codesOf_eq_misfit_iff.mp h
      obtain ⟨hnoText, hsolid, rfl⟩ := codeOf_eq_misfit_iff.mp hitem
      exact .noText before item after hitems hbefore hnoText hsolid
    · next hitems =>
      cases h
      exact .noItems hitems
  · intro h
    cases h with
    | noItems hitems => rw [hitems]
    | noText before item after hitems hcodes hnoText hsolid =>
      rw [hitems]
      exact codesOf_eq_misfit_iff.mpr ⟨before, item, after, rfl, hcodes,
        codeOf_eq_misfit_iff.mpr ⟨hnoText, hsolid, rfl⟩⟩

end Rule

namespace Settings

variable {ms : List (String × Json)} {m : Misfit}

/-! ## Sections -/

/-- A field of a section is no list of codes, and why. -/
def NoCodesIn (ms : List (String × Json)) (sectionName name : String) (m : Misfit) : Prop :=
  ∃ fields v, Entries.get? sectionName ms = some (.object fields) ∧
    Entries.get? name fields = some v ∧ Rule.NoCodes v m

/-- One of the two lists of codes in some sections is none; the offered currencies come first. -/
def HoldsNoCodes (ms : List (String × Json)) (m : Misfit) : Prop :=
  NoCodesIn ms "currency_api" "supported_currencies" m ∨
    (∀ m', ¬ NoCodesIn ms "currency_api" "supported_currencies" m') ∧
      NoCodesIn ms "rate_cache" "major_currencies" m

theorem codesField_eq_error_iff {name : String} {default : List String} :
    codesField ms name default = .error m ↔
      ∃ v, Entries.get? name ms = some v ∧ Rule.NoCodes v m := by
  unfold codesField
  cases Entries.get? name ms with
  | none => simp
  | some v =>
    simp only [Option.some.injEq, exists_eq_left', ← Rule.codes_eq_misfit_iff]
    cases Rule.codes v with
    | _ => simp

theorem sectionField_eq_error_iff {α : Type} {name title : String} {default : α}
    {check : List (String × Json) → Except Misfit (Checked α)} :
    sectionField ms name title default check = .error m ↔
      ∃ fields, Entries.get? name ms = some (.object fields) ∧ check fields = .error m := by
  unfold sectionField
  cases Entries.get? name ms with
  | none => simp
  | some v =>
    cases v with
    | object fields =>
      simp only [Schema.members, Option.some.injEq, Json.object.injEq, exists_eq_left']
      cases check fields <;> simp [Except.map]
    | _ => simp [Schema.members, Checked.fault]

theorem service_eq_error_iff :
    Service.fields ms = .error m ↔
      ∃ v, Entries.get? "supported_currencies" ms = some v ∧ Rule.NoCodes v m := by
  have hcodes : codesField ms "supported_currencies" Service.default.supported = .error m ↔ _ :=
    codesField_eq_error_iff
  rw [← hcodes, Service.fields, Except.bind_eq_error_iff]
  exact or_iff_left fun ⟨_, _, hrest⟩ => by cases hrest

theorem rates_eq_error_iff :
    Rates.fields ms = .error m ↔
      ∃ v, Entries.get? "major_currencies" ms = some v ∧ Rule.NoCodes v m := by
  have hcodes : codesField ms "major_currencies" Rates.default.majors = .error m ↔ _ :=
    codesField_eq_error_iff
  rw [← hcodes, Rates.fields, Except.bind_eq_error_iff]
  exact or_iff_left fun ⟨_, _, hrest⟩ => by cases hrest

theorem noCodesIn_service_iff :
    sectionField ms "currency_api" "CurrencyApiConfig" .default Service.fields = .error m ↔
      NoCodesIn ms "currency_api" "supported_currencies" m := by
  simp only [sectionField_eq_error_iff, service_eq_error_iff, NoCodesIn]
  exact ⟨fun ⟨fields, hfields, v, hv, hm⟩ => ⟨fields, v, hfields, hv, hm⟩,
    fun ⟨fields, v, hfields, hv, hm⟩ => ⟨fields, hfields, v, hv, hm⟩⟩

theorem noCodesIn_rates_iff :
    sectionField ms "rate_cache" "RateCacheConfig" .default Rates.fields = .error m ↔
      NoCodesIn ms "rate_cache" "major_currencies" m := by
  simp only [sectionField_eq_error_iff, rates_eq_error_iff, NoCodesIn]
  exact ⟨fun ⟨fields, hfields, v, hv, hm⟩ => ⟨fields, v, hfields, hv, hm⟩,
    fun ⟨fields, v, hfields, hv, hm⟩ => ⟨fields, hfields, v, hv, hm⟩⟩

/-- A section whose check cannot break does not break. -/
theorem exists_of_sectionField {α : Type} {name title : String} {default : α}
    {check : List (String × Json) → Checked α} :
    ∃ checked, sectionField ms name title default (.ok <| check ·) = .ok checked := by
  cases h : sectionField ms name title default (.ok <| check ·) with
  | ok checked => exact ⟨checked, rfl⟩
  | error m =>
    obtain ⟨fields, -, hcheck⟩ := sectionField_eq_error_iff.mp h
    cases hcheck

/-- **Reading sections** breaks on exactly these two lists. -/
theorem fields_eq_error_iff : fields ms = .error m ↔ HoldsNoCodes ms m := by
  obtain ⟨display, hdisplay⟩ : ∃ checked,
      sectionField ms "display" "DisplayConfig" .default (.ok <| Display.fields ·) = .ok checked :=
    exists_of_sectionField
  obtain ⟨logging, hlogging⟩ : ∃ checked,
      sectionField ms "logging" "LoggingConfig" .default (.ok <| Logging.fields ·) = .ok checked :=
    exists_of_sectionField
  obtain ⟨application, happlication⟩ : ∃ checked,
      sectionField ms "application" "ApplicationConfig" .default (.ok <| Application.fields ·) =
        .ok checked :=
    exists_of_sectionField
  simp only [fields, hdisplay, hlogging, happlication]
  cases hservice : sectionField ms "currency_api" "CurrencyApiConfig" .default Service.fields with
  | error m' =>
    have hfirst := noCodesIn_service_iff.mp hservice
    constructor
    · intro h
      cases h
      exact .inl hfirst
    · rintro (h | ⟨hnone, -⟩)
      · cases hservice.symm.trans (noCodesIn_service_iff.mpr h)
        rfl
      · exact absurd hfirst (hnone m')
  | ok service =>
    have hnone : ∀ m', ¬ NoCodesIn ms "currency_api" "supported_currencies" m' := by
      intro m' h
      cases hservice.symm.trans (noCodesIn_service_iff.mpr h)
    rw [HoldsNoCodes, or_iff_right (hnone m), and_iff_right hnone, ← noCodesIn_rates_iff]
    cases sectionField ms "rate_cache" "RateCacheConfig" .default Rates.fields with
    | error m' =>
      constructor
      · intro h
        cases h
        rfl
      · intro h
        cases h
        rfl
    | ok rates => constructor <;> intro h <;> cases h

/-! ## Records -/

variable {s : Surroundings} {halt : Halt}

/-- What ends the reading of a record, and how. -/
inductive Halts (s : Surroundings) (ms : List (String × Json)) : Halt → Prop
  /-- A member has a reserved name. -/
  | clash (c : NameClash) (clash : Reserved.usual.clash? ms = some c) : Halts s ms (.clash c)
  /-- A direction is of no use. -/
  | direction (m : Misfit) (noClash : Reserved.usual.clash? ms = none)
      (directions : Directions.ofMembers ms = .error m) : Halts s ms (.misfit m)
  /-- A value of the surroundings goes beyond what can be read. -/
  | surroundings (g : Directions) (e : Json.Error) (noClash : Reserved.usual.clash? ms = none)
      (directions : Directions.ofMembers ms = .ok g)
      (lower : (s.members g).2 = .error (.document e)) : Halts s ms (.document e)
  /-- The files of variables have an encoding that is none. -/
  | encoding (g : Directions) (m : Misfit) (noClash : Reserved.usual.clash? ms = none)
      (directions : Directions.ofMembers ms = .ok g)
      (lower : (s.members g).2 = .error (.misfit m)) : Halts s ms (.misfit m)
  /-- A list of codes, in the record or below it, is none. -/
  | codes (g : Directions) (lower : List (String × Json)) (m : Misfit)
      (noClash : Reserved.usual.clash? ms = none)
      (directions : Directions.ofMembers ms = .ok g) (surroundings : (s.members g).2 = .ok lower)
      (codes : HoldsNoCodes (underlay depth lower (sectionsOf g ms)) m) : Halts s ms (.misfit m)

/-- A record holds no settings, but this is no more than a fault in the record or below it. -/
inductive Refuses (s : Surroundings) (ms : List (String × Json)) : Prop
  | unclear (g : Directions) (u : Unclear) (noClash : Reserved.usual.clash? ms = none)
      (directions : Directions.ofMembers ms = .ok g) (lower : (s.members g).2 = .error u)
      (noDocument : ∀ e, u ≠ .document e) (noMisfit : ∀ m, u ≠ .misfit m)
  | report (g : Directions) (lower : List (String × Json)) (report : Schema.Report)
      (noClash : Reserved.usual.clash? ms = none)
      (directions : Directions.ofMembers ms = .ok g) (surroundings : (s.members g).2 = .ok lower)
      (invalid : ofSections (underlay depth lower (sectionsOf g ms)) = .error (.report report))

theorem directions_usual : Reserved.usual.directions ms = Directions.ofMembers ms := by
  unfold Reserved.directions
  cases Directions.ofMembers ms <;> rfl

theorem ofSections_eq_misfit_iff : ofSections ms = .error (.misfit m) ↔ HoldsNoCodes ms m := by
  rw [← fields_eq_error_iff]
  unfold ofSections
  cases fields ms with
  | error m' => simp
  | ok settings =>
    refine iff_of_false (fun h => ?_) nofun
    obtain ⟨_, -, h⟩ := Except.mapError_eq_error_iff.mp h
    cases h

theorem ofSections_ne_clash (c : NameClash) : ofSections ms ≠ .error (.clash c) := by
  unfold ofSections
  split
  · exact nofun
  · intro h
    obtain ⟨_, -, h⟩ := Except.mapError_eq_error_iff.mp h
    cases h

/-! ### The result of a record -/

theorem ofSources_of_clash {c : NameClash} (hclash : Reserved.usual.clash? ms = some c) :
    (ofSources .usual s ms).result = .error (.failure (.clash c)) := by
  simp only [ofSources, hclash]

theorem ofSources_of_direction (hclash : Reserved.usual.clash? ms = none)
    (hdirections : Directions.ofMembers ms = .error m) :
    (ofSources .usual s ms).result = .error (.failure (.misfit m)) := by
  simp only [ofSources, hclash, directions_usual, hdirections]

theorem ofSources_of_directions {g : Directions} (hclash : Reserved.usual.clash? ms = none)
    (hdirections : Directions.ofMembers ms = .ok g) :
    (ofSources .usual s ms).result =
      (s.members g).2.mapError .unclear >>= fun lower =>
        (ofSections (underlay depth lower (sectionsOf g ms))).mapError .failure := by
  simp only [ofSources, hclash, directions_usual, hdirections]

theorem ofRecord_of_ok {settings : Settings}
    (h : (ofSources .usual s ms).result = .ok settings) :
    (ofRecord s ms).result = .ok settings := by
  simp only [ofRecord, h]

theorem ofRecord_of_error {failure : SourceFailure}
    (h : (ofSources .usual s ms).result = .error failure) :
    (ofRecord s ms).result = (failure.halt?.map .error).getD (defaults s.vars) := by
  simp only [ofRecord, h]
  cases failure.halt? <;> rfl

theorem ofSources_of_unclear {g : Directions} {u : Unclear}
    (hclash : Reserved.usual.clash? ms = none) (hdirections : Directions.ofMembers ms = .ok g)
    (hlower : (s.members g).2 = .error u) :
    (ofSources .usual s ms).result = .error (.unclear u) := by
  rw [ofSources_of_directions hclash hdirections, hlower]
  rfl

theorem ofSources_of_failure {g : Directions} {lower : List (String × Json)} {failure : Failure}
    (hclash : Reserved.usual.clash? ms = none) (hdirections : Directions.ofMembers ms = .ok g)
    (hlower : (s.members g).2 = .ok lower)
    (hsections : ofSections (underlay depth lower (sectionsOf g ms)) = .error failure) :
    (ofSources .usual s ms).result = .error (.failure failure) := by
  rw [ofSources_of_directions hclash hdirections, hlower]
  change (ofSections _).mapError _ = _
  rw [hsections]
  rfl

theorem ofRecord_of_halts (h : Halts s ms halt) : (ofRecord s ms).result = .error halt := by
  cases h with
  | clash c hclash => rw [ofRecord_of_error (ofSources_of_clash hclash)]; rfl
  | direction m hclash hdirections =>
    rw [ofRecord_of_error (ofSources_of_direction hclash hdirections)]
    rfl
  | surroundings g e hclash hdirections hlower | encoding g m hclash hdirections hlower =>
    rw [ofRecord_of_error (ofSources_of_unclear hclash hdirections hlower)]
    rfl
  | codes g lower m hclash hdirections hlower hcodes =>
    have hsections := ofSections_eq_misfit_iff.mpr hcodes
    rw [ofRecord_of_error (ofSources_of_failure hclash hdirections hlower hsections)]
    rfl

theorem ofRecord_of_refuses (h : Refuses s ms) : (ofRecord s ms).result = defaults s.vars := by
  cases h with
  | unclear g u hclash hdirections hlower hnoDocument hnoMisfit =>
    rw [ofRecord_of_error (ofSources_of_unclear hclash hdirections hlower)]
    cases u with
    | document e => exact absurd rfl (hnoDocument e)
    | misfit m => exact absurd rfl (hnoMisfit m)
    | _ => rfl
  | report g lower report hclash hdirections hlower hinvalid =>
    rw [ofRecord_of_error (ofSources_of_failure hclash hdirections hlower hinvalid)]
    rfl

/-- A record holds settings, or is refused, or ends the reading. -/
theorem read_or_refuses_or_halts (s : Surroundings) (ms : List (String × Json)) :
    (∃ settings, (ofSources .usual s ms).result = .ok settings) ∨ Refuses s ms ∨
      ∃ halt, Halts s ms halt := by
  cases hclash : Reserved.usual.clash? ms with
  | some c => exact .inr (.inr ⟨_, .clash c hclash⟩)
  | none =>
    cases hdirections : Directions.ofMembers ms with
    | error m => exact .inr (.inr ⟨_, .direction m hclash hdirections⟩)
    | ok g =>
      cases hlower : (s.members g).2 with
      | error u =>
        cases u with
        | document e => exact .inr (.inr ⟨_, .surroundings g e hclash hdirections hlower⟩)
        | misfit m => exact .inr (.inr ⟨_, .encoding g m hclash hdirections hlower⟩)
        | _ => exact .inr (.inl (.unclear g _ hclash hdirections hlower nofun nofun))
      | ok lower =>
        cases hsections : ofSections (underlay depth lower (sectionsOf g ms)) with
        | ok settings =>
          refine .inl ⟨settings, ?_⟩
          rw [ofSources_of_directions hclash hdirections, hlower]
          change (ofSections _).mapError _ = _
          rw [hsections]
          rfl
        | error failure =>
          cases failure with
          | report report =>
            exact .inr (.inl (.report g lower report hclash hdirections hlower hsections))
          | misfit m =>
            have hcodes := ofSections_eq_misfit_iff.mp hsections
            exact .inr (.inr ⟨_, .codes g lower m hclash hdirections hlower hcodes⟩)
          | clash c => exact absurd hsections (ofSections_ne_clash c)

/-! ## Files -/

/-- What comes of a file or a folder under the path of the settings. -/
inductive Outcome (s : Surroundings) : Disk.Node → Except Halt Settings → Prop
  /-- The settings of the document. -/
  | read (text : List Char) (ms : List (String × Json)) (settings : Settings)
      (document : Json.read .nearest text = .ok (.object ms))
      (result : (ofSources .usual s ms).result = .ok settings) :
      Outcome s (.file (Text.encodeUtf8 text)) (.ok settings)
  /-- The defaults in place of a document that holds no settings. -/
  | refused (text : List Char) (ms : List (String × Json))
      (document : Json.read .nearest text = .ok (.object ms)) (refuses : Refuses s ms) :
      Outcome s (.file (Text.encodeUtf8 text)) (defaults s.vars)
  | noRecord (text : List Char) (v : Json) (document : Json.read .nearest text = .ok v)
      (noObject : ∀ ms, v ≠ .object ms) :
      Outcome s (.file (Text.encodeUtf8 text)) (defaults s.vars)
  | malformed (text : List Char) (e : Json.Error) (document : Json.read .nearest text = .error e)
      (form : e.isMalformed = true) : Outcome s (.file (Text.encodeUtf8 text)) (defaults s.vars)
  | noText (bytes : List UInt8) (noText : ∀ text, bytes ≠ Text.encodeUtf8 text) :
      Outcome s (.file bytes) (defaults s.vars)
  | folder : Outcome s .folder (defaults s.vars)
  /-- Nothing at all. -/
  | halted (text : List Char) (ms : List (String × Json)) (halt : Halt)
      (document : Json.read .nearest text = .ok (.object ms)) (halts : Halts s ms halt) :
      Outcome s (.file (Text.encodeUtf8 text)) (.error halt)
  | unreadable (text : List Char) (e : Json.Error) (document : Json.read .nearest text = .error e)
      (noForm : e.isMalformed = false) :
      Outcome s (.file (Text.encodeUtf8 text)) (.error (.document e))

variable {vars : Dotenv.Variables} {d : Disk} {p : Path} {node : Disk.Node}

/-- The result of a file or a folder. -/
def ofNode (s : Surroundings) : Disk.Node → Except Halt Settings
  | .file bytes => (ofContents s bytes).result
  | .folder => defaults s.vars

theorem ofContents_encodeUtf8 (s : Surroundings) (text : List Char) :
    ofContents s (Text.encodeUtf8 text) =
      match Json.read .nearest text with
      | .ok (.object ms) => ofRecord s ms
      | .ok _ => ⟨defaults s.vars, []⟩
      | .error e =>
        if e.isMalformed then ⟨defaults s.vars, []⟩ else ⟨.error (.document e), []⟩ := by
  cases hread : Json.read .nearest text with
  | ok v => cases v <;> simp only [ofContents, Text.decodeUtf8?_encodeUtf8, hread]
  | error e => simp only [ofContents, Text.decodeUtf8?_encodeUtf8, hread]

theorem outcome_ofNode (s : Surroundings) (node : Disk.Node) : Outcome s node (ofNode s node) := by
  cases node with
  | folder => exact .folder
  | file bytes =>
    cases hdecode : Text.decodeUtf8? bytes with
    | error flaw =>
      have hdefaults : ofNode s (.file bytes) = defaults s.vars := by
        simp only [ofNode, ofContents, hdecode]
      rw [hdefaults]
      refine .noText bytes fun text hbytes => ?_
      rw [hbytes, Text.decodeUtf8?_encodeUtf8] at hdecode
      cases hdecode
    | ok text =>
      obtain rfl := Text.decodeUtf8?_eq_ok_iff.mp hdecode
      cases hread : Json.read .nearest text with
      | error e =>
        cases hform : e.isMalformed with
        | true =>
          have hresult : ofNode s (.file (Text.encodeUtf8 text)) = defaults s.vars := by
            simp only [ofNode, ofContents_encodeUtf8, hread, hform, if_true]
          exact hresult ▸ .malformed text e hread hform
        | false =>
          have hresult : ofNode s (.file (Text.encodeUtf8 text)) = .error (.document e) := by
            simp [ofNode, ofContents_encodeUtf8, hread, hform]
          exact hresult ▸ .unreadable text e hread hform
      | ok v =>
        cases v with
        | object ms =>
          have hresult : ofNode s (.file (Text.encodeUtf8 text)) = (ofRecord s ms).result := by
            simp only [ofNode, ofContents_encodeUtf8, hread]
          rw [hresult]
          rcases read_or_refuses_or_halts s ms with ⟨settings, hsettings⟩ | hrefuses |
            ⟨halt, hhalts⟩
          · rw [ofRecord_of_ok hsettings]
            exact .read text ms settings hread hsettings
          · rw [ofRecord_of_refuses hrefuses]
            exact .refused text ms hread hrefuses
          · rw [ofRecord_of_halts hhalts]
            exact .halted text ms halt hread hhalts
        | _ =>
          have hresult : ofNode s (.file (Text.encodeUtf8 text)) = defaults s.vars := by
            simp only [ofNode, ofContents_encodeUtf8, hread]
          exact hresult ▸ .noRecord text _ hread nofun

/-- No two things come of one file or folder. -/
theorem Outcome.ofNode_eq {result : Except Halt Settings} (h : Outcome s node result) :
    ofNode s node = result := by
  cases h with
  | folder => rfl
  | noText bytes hnoText =>
    cases hdecode : Text.decodeUtf8? bytes with
    | error flaw => simp only [ofNode, ofContents, hdecode]
    | ok text => exact absurd (Text.decodeUtf8?_eq_ok_iff.mp hdecode) (hnoText text)
  | read text ms settings hread hsettings =>
    simp only [ofNode, ofContents_encodeUtf8, hread, ofRecord_of_ok hsettings]
  | refused text ms hread hrefuses =>
    simp only [ofNode, ofContents_encodeUtf8, hread, ofRecord_of_refuses hrefuses]
  | halted text ms halt hread hhalts =>
    simp only [ofNode, ofContents_encodeUtf8, hread, ofRecord_of_halts hhalts]
  | noRecord text v hread hnoObject =>
    cases v with
    | object ms => exact absurd rfl (hnoObject ms)
    | _ => simp only [ofNode, ofContents_encodeUtf8, hread]
  | malformed text e hread hform =>
    simp only [ofNode, ofContents_encodeUtf8, hread, hform, if_true]
  | unreadable text e hread hform => simp [ofNode, ofContents_encodeUtf8, hread, hform]

theorem load_of_look (h : d.look p = .ok (some node)) :
    (load vars d p).1.result = ofNode ⟨vars, d⟩ node ∧ (load vars d p).2 = d := by
  unfold load
  rw [h]
  cases node <;> exact ⟨rfl, rfl⟩

/-- How the settings file is read. -/
structure LoadingRules (vars : Dotenv.Variables) (d : Disk) (p : Path) (node : Disk.Node) :
    Prop where
  /-- Whatever comes of it, the disk is as it was. -/
  unchanged : (load vars d p).2 = d
  /-- The settings of the document or the defaults hold, but not if the reading was ended. -/
  result_iff : ∀ result, (load vars d p).1.result = result ↔ Outcome ⟨vars, d⟩ node result
  /-- The defaults need variables of the process that hold a record; without variables they hold. -/
  defaults_iff : ∀ settings, defaults vars = .ok settings ↔
    settings = default ∧ ∃ ms, ofVariables .usual .process vars = .ok ms
  noVariables : vars = [] → defaults vars = .ok default

/-- **The settings file**: what comes of every file, and of a folder in its place. -/
theorem loadingRules_load (h : d.look p = .ok (some node)) : LoadingRules vars d p node := by
  obtain ⟨hresult, hdisk⟩ : (load vars d p).1.result = ofNode ⟨vars, d⟩ node ∧ _ := load_of_look h
  refine ⟨hdisk, fun result => ?_, fun settings => ?_, ?_⟩
  · rw [hresult]
    constructor
    · rintro rfl
      exact outcome_ofNode _ node
    · exact Outcome.ofNode_eq
  · unfold defaults
    cases ofVariables .usual .process vars with
    | ok ms => simp [eq_comm]
    | error u => cases u <;> exact iff_of_false nofun (by rintro ⟨_, _, ⟨⟩⟩)
  · rintro rfl
    rfl

/-- A disk with just a settings file. -/
def diskOf (text : String) : Disk :=
  ⟨[([fileName], .file (Text.encodeUtf8 text.toList))]⟩

/-- In place of a list, which is no record, the defaults hold, and the list stays. -/
theorem loadingRules_load_list :
    (diskOf "[]").look (.ofText fileName) =
        .ok (some (.file (Text.encodeUtf8 "[]".toList))) ∧
      Outcome ⟨[], diskOf "[]"⟩ (.file (Text.encodeUtf8 "[]".toList)) (.ok default) ∧
      (load [] (diskOf "[]") (.ofText fileName)).2 = diskOf "[]" := by
  have hlook : (diskOf "[]").look (.ofText fileName) =
      .ok (some (.file (Text.encodeUtf8 "[]".toList))) := by decide +kernel
  have hrules : LoadingRules [] _ _ _ := loadingRules_load hlook
  have hdefaults : (load [] (diskOf "[]") (.ofText fileName)).1.result = .ok default := by
    decide +kernel
  exact ⟨hlook, (hrules.result_iff _).mp hdefaults, hrules.unchanged⟩

/-- A number in place of the offered currencies ends the reading; there are not even the
    defaults. -/
theorem load_halts_on_number :
    (diskOf "\x7b\"currency_api\":\x7b\"supported_currencies\":5\x7d\x7d").look (.ofText fileName) =
        .ok (some (.file (Text.encodeUtf8
          "\x7b\"currency_api\":\x7b\"supported_currencies\":5\x7d\x7d".toList))) ∧
      (load [] (diskOf "\x7b\"currency_api\":\x7b\"supported_currencies\":5\x7d\x7d")
        (.ofText fileName)).1.result = .error (.misfit (.noItems "int")) :=
  ⟨by decide +kernel, by decide +kernel⟩

end Settings

end Cambio
