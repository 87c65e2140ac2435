import Cambio.Proofs.Rates.Reading
import Cambio.Proofs.Text.Encoding

/-!
# What loading the rate file ends in

Loading brings a document exactly if the file is a text that is read as the contents of a rate file.
Otherwise it brings none, but for four troubles that are not foreseen: a path that is too long for
any disk, bytes that are no text, and texts that go beyond what can be read, by the power of ten of
a number or by their nesting.

## Main definitions

- `RateFile.Holds` — the file under a path is a text with the contents of a rate file
- `RateFile.Breaks` — what loading breaks on
- `RateFile.LoadRules` — what loading ends in

## Main statements

- `RateFile.ofContents_eq_some_iff`, `RateFile.ofContents_eq_error_iff` — the bytes of a file
- `RateFile.loadRules_load` — every path and every disk
-/

namespace Cambio.RateFile

variable {d : Disk} {p : Path} {bytes : List UInt8} {document : RateDocument} {b : Breakdown}

/-- The file under a path is a text that is read as the contents of a rate file. -/
def Holds (d : Disk) (p : Path) (document : RateDocument) : Prop :=
  ∃ s v, d.read? p = some (Text.encodeUtf8 s) ∧ Json.read .exact s = .ok v ∧
    RateDocument.ReadFrom v document

/-- What loading breaks on. -/
inductive Breaks (d : Disk) (p : Path) : Breakdown → Prop
  | longName (path : d.locate p = .error .longName) : Breaks d p (.disk ⟨.longName, p⟩)
  | noText {bytes : List UInt8} {flaw : Text.Flaw} (file : d.read? p = some bytes)
      (noText : ∀ s, bytes ≠ Text.encodeUtf8 s) (flawed : Text.decodeUtf8? bytes = .error flaw) :
      Breaks d p (.document (.encoding flaw))
  | wideNumber {s : List Char} {signal : Decimal.Signal}
      (file : d.read? p = some (Text.encodeUtf8 s))
      (read : Json.read .exact s = .error (.wideNumber signal)) :
      Breaks d p (.document (.wideNumber signal))
  | tooDeep {s : List Char} {isList : Bool} (file : d.read? p = some (Text.encodeUtf8 s))
      (read : Json.read .exact s = .error (.tooDeep isList)) :
      Breaks d p (.document (.tooDeep isList))

/-! ## The bytes of a file -/

theorem decodeUtf8?_eq_error {flaw : Text.Flaw} (h : Text.decodeUtf8? bytes = .error flaw)
    (s : List Char) : bytes ≠ Text.encodeUtf8 s := by
  rintro rfl
  cases h.symm.trans (Text.decodeUtf8?_encodeUtf8 s)

theorem ofContents_encodeUtf8 (s : List Char) :
    ofContents (Text.encodeUtf8 s) =
      match Json.read .exact s with
      | .ok v => .ok (RateDocument.ofJson v).toOption
      | .error e => if e.isMalformed then .ok none else .error e := by
  cases hread : Json.read .exact s <;> simp [ofContents, Text.decodeUtf8?_encodeUtf8, hread]

theorem ofContents_eq_some_iff :
    ofContents bytes = .ok (some document) ↔
      ∃ s v, bytes = Text.encodeUtf8 s ∧ Json.read .exact s = .ok v ∧
        RateDocument.ReadFrom v document := by
  constructor
  · intro h
    cases hdecode : Text.decodeUtf8? bytes with
    | error flaw =>
      rw [ofContents, hdecode] at h
      cases h
    | ok s =>
      obtain rfl := Text.decodeUtf8?_eq_ok_iff.mp hdecode
      rw [ofContents_encodeUtf8] at h
      split at h
      · next v hread =>
        rw [Except.ok.injEq, Except.toOption_eq_some_iff, RateDocument.ofJson_eq_ok_iff] at h
        exact ⟨s, v, rfl, hread, h⟩
      · split at h <;> cases h
  · rintro ⟨s, v, rfl, hread, hv⟩
    rw [ofContents_encodeUtf8, hread]
    dsimp only
    rw [Except.ok.injEq, Except.toOption_eq_some_iff, RateDocument.ofJson_eq_ok_iff]
    exact hv

theorem ofContents_eq_error_iff {e : Json.Error} :
    ofContents bytes = .error e ↔
      (∃ flaw, Text.decodeUtf8? bytes = .error flaw ∧ e = .encoding flaw) ∨
        ∃ s, bytes = Text.encodeUtf8 s ∧ Json.read .exact s = .error e ∧ e.isMalformed = false := by
  constructor
  · intro h
    cases hdecode : Text.decodeUtf8? bytes with
    | error flaw =>
      rw [ofContents, hdecode] at h
      cases h
      exact .inl ⟨flaw, rfl, rfl⟩
    | ok s =>
      obtain rfl := Text.decodeUtf8?_eq_ok_iff.mp hdecode
      rw [ofContents_encodeUtf8] at h
      split at h
      · cases h
      · next hread =>
        split at h
        · cases h
        · next hform =>
          cases h
          exact .inr ⟨s, rfl, hread, Bool.eq_false_iff.mpr hform⟩
  · rintro (⟨flaw, hdecode, rfl⟩ | ⟨s, rfl, hread, hform⟩)
    · rw [ofContents, hdecode]
    · rw [ofContents_encodeUtf8, hread]
      dsimp only
      rw [hform]
      rfl

/-! ## From the path to the result -/

theorem load_of_longName (h : d.locate p = .error .longName) :
    load d p = .error (.disk ⟨.longName, p⟩) := by
  rw [load, Disk.look, h]

theorem load_of_file (h : d.read? p = some bytes) :
    load d p = (ofContents bytes).mapError .document := by
  unfold Disk.read? Disk.at? at h
  unfold load Disk.look
  cases hpath : d.locate p with
  | error refusal =>
    rw [hpath] at h
    cases h
  | ok place =>
    rw [hpath] at h
    simp only [Except.toOption, Option.bind_some] at h ⊢
    cases hnode : d.node? place with
    | none =>
      rw [hnode] at h
      cases h
    | some node =>
      rw [hnode] at h
      cases node with
      | file found =>
        cases h
        rfl
      | folder => cases h

theorem load_of_noFile (hpath : d.locate p ≠ .error .longName) (h : d.read? p = none) :
    load d p = .ok none := by
  unfold Disk.read? Disk.at? at h
  unfold load Disk.look
  cases hlocate : d.locate p with
  | error refusal => cases refusal <;> first | rfl | exact absurd hlocate hpath
  | ok place =>
    rw [hlocate] at h
    simp only [Except.toOption, Option.bind_some] at h ⊢
    cases hnode : d.node? place with
    | none => rfl
    | some node =>
      rw [hnode] at h
      cases node with
      | file found => cases h
      | folder => rfl

theorem load_eq_some_iff : load d p = .ok (some document) ↔ Holds d p document := by
  constructor
  · intro h
    cases hfile : d.read? p with
    | none =>
      by_cases hpath : d.locate p = .error .longName
      · cases (load_of_longName hpath).symm.trans h
      · cases (load_of_noFile hpath hfile).symm.trans h
    | some bytes =>
      rw [load_of_file hfile] at h
      cases hcontents : ofContents bytes with
      | error e =>
        rw [hcontents] at h
        cases h
      | ok found =>
        rw [hcontents] at h
        cases h
        obtain ⟨s, v, rfl, hread, hv⟩ := ofContents_eq_some_iff.mp hcontents
        exact ⟨s, v, hfile, hread, hv⟩
  · rintro ⟨s, v, hfile, hread, hv⟩
    rw [load_of_file hfile, ofContents_eq_some_iff.mpr ⟨s, v, rfl, hread, hv⟩]
    rfl

theorem load_eq_error_iff : load d p = .error b ↔ Breaks d p b := by
  constructor
  · intro h
    by_cases hpath : d.locate p = .error .longName
    · cases (load_of_longName hpath).symm.trans h
      exact .longName hpath
    · cases hfile : d.read? p with
      | none => cases (load_of_noFile hpath hfile).symm.trans h
      | some bytes =>
        rw [load_of_file hfile] at h
        cases hcontents : ofContents bytes with
        | ok found =>
          rw [hcontents] at h
          cases h
        | error e =>
          rw [hcontents] at h
          cases h
          rcases ofContents_eq_error_iff.mp hcontents with
            ⟨flaw, hdecode, rfl⟩ | ⟨s, rfl, hread, hform⟩
          · exact .noText hfile (decodeUtf8?_eq_error hdecode) hdecode
          · cases e with
            | wideNumber signal => exact .wideNumber hfile hread
            | tooDeep isList => exact .tooDeep hfile hread
            | form | longNumber | encoding => cases hform
  · intro h
    cases h with
    | longName hpath => exact load_of_longName hpath
    | noText hfile _ hdecode =>
      rw [load_of_file hfile, ofContents_eq_error_iff.mpr (.inl ⟨_, hdecode, rfl⟩)]
      rfl
    | wideNumber hfile hread | tooDeep hfile hread =>
      rw [load_of_file hfile, ofContents_eq_error_iff.mpr (.inr ⟨_, rfl, hread, rfl⟩)]
      rfl

/-- What loading ends in. -/
structure LoadRules (d : Disk) (p : Path) : Prop where
  /-- A document is brought exactly if the file holds it. -/
  document : ∀ document, load d p = .ok (some document) ↔ Holds d p document
  /-- These troubles are not foreseen, and no others are. -/
  broken : ∀ b, load d p = .error b ↔ Breaks d p b
  /-- Without them there is a document or none. -/
  total : (∃ found, load d p = .ok found) ↔ ∀ b, ¬ Breaks d p b

/-- **Loading**: from any disk and any path. -/
theorem loadRules_load (d : Disk) (p : Path) : LoadRules d p where
  document _ := load_eq_some_iff
  broken _ := load_eq_error_iff
  total := by
    simp only [← load_eq_error_iff]
    cases load d p <;> simp

/-- The byte `0xff` is no text: loading breaks on it, where a file that holds no document should
    bring none. -/
theorem load_breaks_on_byte :
    let d : Disk := ⟨[(["rates.json"], .file [0xff])]⟩
    (∀ document, ¬ Holds d ⟨"", ["rates.json"]⟩ document) ∧
      load d ⟨"", ["rates.json"]⟩ =
        .error (.document (.encoding ⟨.utf8, 0, [0xff], .startByte⟩)) := by
  intro d
  have hload : load d ⟨"", ["rates.json"]⟩ =
      .error (.document (.encoding ⟨.utf8, 0, [0xff], .startByte⟩)) := by
    decide +kernel
  refine ⟨fun document hholds => ?_, hload⟩
  cases hload.symm.trans (load_eq_some_iff.mpr hholds)

-- Loading breaks on a number with a power of ten out of every range as well.
example :
    load ⟨[(["rates.json"], .file (Text.encodeUtf8 "[1e9999999999999999999]".toList))]⟩
        ⟨"", ["rates.json"]⟩ =
      .error (.document (.wideNumber .invalidOperation)) := by
  decide +kernel

end Cambio.RateFile
