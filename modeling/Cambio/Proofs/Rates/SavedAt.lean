import Cambio.Conversion.Refresh
import Cambio.Proofs.Calendar.Offset
import Cambio.Proofs.Rates.Fetched

/-!
# The time of a rate file

The time of a rate file is the instant of its text, and none if the text is no date with a time. An
offset can lead out of the calendar, though; then there is no time either, but loading the file
breaks instead of taking its rates for outdated.

## Main definitions

- `RateDocument.SavedAtRules` — what the text for the time of a document says
- `Converter.LoadFileRules` — what comes of a document that is loaded

## Main statements

- `RateDocument.savedAtRules` — every text
- `Converter.savedAtRules_loadFile` — and every rate file
-/

namespace Cambio

open Moment (InCalendar)

namespace RateDocument

/-- What the text for the time of a document says. -/
structure SavedAtRules (document : RateDocument) : Prop where
  /-- Nothing, if it is no date with a time. -/
  unreadable : document.savedAt = .unreadable ↔ Stamp.parse? document.timestamp.toList = none
  /-- Its instant, in universal time. -/
  read : ∀ moment, document.savedAt = .at moment ↔
    ∃ stamp, Stamp.parse? document.timestamp.toList = some stamp ∧ InCalendar stamp.instant ∧
      (moment.micros : Int) = stamp.instant
  /-- The instant may be out of the calendar. -/
  outOfRange : document.savedAt = .outOfRange ↔
    ∃ stamp, Stamp.parse? document.timestamp.toList = some stamp ∧ ¬ InCalendar stamp.instant
  /-- It is less than a day away from the clock, which is not, and without an offset it is the
      clock. -/
  clock : ∀ stamp, Stamp.parse? document.timestamp.toList = some stamp →
    InCalendar stamp.clock.micros ∧
      ∀ a, stamp.ahead = some a → a.natAbs < Moment.microsPerDay
  /-- Every text in standard form is read as what it says. -/
  standard : ∀ stamp : Stamp, stamp.IsStandard → document.timestamp.toList = stamp.isoText →
    Stamp.parse? document.timestamp.toList = some stamp

variable {document : RateDocument}

theorem savedAt_of_parse? {stamp : Stamp}
    (h : Stamp.parse? document.timestamp.toList = some stamp) :
    document.savedAt = match stamp.moment? with
      | some moment => .at moment
      | none => .outOfRange := by
  cases hmoment : stamp.moment? <;> simp [savedAt, h, hmoment]

theorem savedAt_eq_unreadable_iff :
    document.savedAt = .unreadable ↔ Stamp.parse? document.timestamp.toList = none := by
  cases hparse : Stamp.parse? document.timestamp.toList with
  | none =>
    rw [savedAt, hparse]
    exact ⟨fun _ => rfl, fun _ => rfl⟩
  | some stamp =>
    rw [savedAt_of_parse? hparse]
    cases stamp.moment? <;> exact ⟨nofun, nofun⟩

theorem savedAt_eq_at_iff {moment : Moment} :
    document.savedAt = .at moment ↔
      ∃ stamp, Stamp.parse? document.timestamp.toList = some stamp ∧ InCalendar stamp.instant ∧
        (moment.micros : Int) = stamp.instant := by
  constructor
  · intro h
    cases hparse : Stamp.parse? document.timestamp.toList with
    | none => cases (savedAt_eq_unreadable_iff.mpr hparse).symm.trans h
    | some stamp =>
      rw [savedAt_of_parse? hparse] at h
      cases hmoment : stamp.moment? with
      | none =>
        rw [hmoment] at h
        cases h
      | some m =>
        rw [hmoment] at h
        cases h
        have hclock := (Stamp.bounds_of_parse? hparse).1
        exact ⟨stamp, rfl, (Stamp.moment?_eq_some_iff hclock).mp hmoment⟩
  · rintro ⟨stamp, hparse, hinstant⟩
    have hclock := (Stamp.bounds_of_parse? hparse).1
    rw [savedAt_of_parse? hparse, (Stamp.moment?_eq_some_iff hclock).mpr hinstant]

theorem savedAt_eq_outOfRange_iff :
    document.savedAt = .outOfRange ↔
      ∃ stamp, Stamp.parse? document.timestamp.toList = some stamp ∧
        ¬ InCalendar stamp.instant := by
  constructor
  · intro h
    cases hparse : Stamp.parse? document.timestamp.toList with
    | none => cases (savedAt_eq_unreadable_iff.mpr hparse).symm.trans h
    | some stamp =>
      rw [savedAt_of_parse? hparse] at h
      cases hmoment : stamp.moment? with
      | none => exact ⟨stamp, rfl,
          (Stamp.moment?_eq_none_iff (Stamp.bounds_of_parse? hparse).1).mp hmoment⟩
      | some m =>
        rw [hmoment] at h
        cases h
  · rintro ⟨stamp, hparse, hinstant⟩
    have hclock := (Stamp.bounds_of_parse? hparse).1
    rw [savedAt_of_parse? hparse, (Stamp.moment?_eq_none_iff hclock).mpr hinstant]

theorem savedAtRules (document : RateDocument) : SavedAtRules document where
  unreadable := savedAt_eq_unreadable_iff
  read _ := savedAt_eq_at_iff
  outOfRange := savedAt_eq_outOfRange_iff
  clock _ h := Stamp.bounds_of_parse? h
  standard stamp hform htext := by
    rw [htext]
    exact Stamp.parse?_standard hform

end RateDocument

namespace Converter

variable {c : Converter} {d : Disk} {path : Path} {document : RateDocument}

/-- The converter whose cache has had a book merged into it, and how many rates that added. -/
def mergedAt (c : Converter) (book : RateBook) (moment : Moment) : Nat × Converter :=
  ((c.cache.merge book moment).1, { c with cache := (c.cache.merge book moment).2 })

/-- What comes of a document that is loaded from the rate file. -/
structure LoadFileRules (c : Converter) (d : Disk) (document : RateDocument) : Prop where
  /-- Its rates are merged as of the time that its text says. -/
  merged : ∀ moment, document.savedAt = .at moment →
    c.loadFile d = .ok (c.mergedAt document.rates moment)
  /-- Without a time they are merged all the same, and tables that were not there are outdated from
      the start. -/
  outdated : document.savedAt = .unreadable →
    c.loadFile d = .ok (c.mergedAt document.rates .earliest) ∧
      ∀ base now maxAge, c.cache.slot? base = none → maxAge < now.micros →
        (c.mergedAt document.rates .earliest).2.cache.isStale base now maxAge = true
  /-- Only a time out of the calendar breaks it. -/
  broken : ∀ b, c.loadFile d = .error b ↔ b = .date ∧ document.savedAt = .outOfRange

theorem loadFile_of_load (hstore : c.store = some path)
    (hload : RateFile.load d path = .ok (some document)) :
    c.loadFile d = (fetchTime document).map (c.mergedAt document.rates) := by
  unfold mergedAt
  simp only [loadFile, hstore, hload]

theorem isStale_mergedAt_earliest {base : String} {now : Moment} {maxAge : Int} (book : RateBook)
    (habsent : c.cache.slot? base = none) (hage : maxAge < now.micros) :
    (c.mergedAt book .earliest).2.cache.isStale base now maxAge = true := by
  rw [RateCache.isStale_iff]
  intro fetched hfetched
  have hnone : c.cache.fetchedAt? base = none := by rw [RateCache.fetchedAt?, habsent]; rfl
  rw [mergedAt, RateCache.fetchedAt?_merge, hnone, Option.none_or] at hfetched
  split at hfetched
  · cases hfetched
    simpa [Moment.microsSince, Moment.earliest] using hage
  · cases hfetched

theorem loadFileRules (hstore : c.store = some path)
    (hload : RateFile.load d path = .ok (some document)) : LoadFileRules c d document := by
  have hfile := loadFile_of_load hstore hload
  constructor
  · intro moment hsaved
    rw [hfile, fetchTime, hsaved]
    rfl
  · intro hsaved
    refine ⟨by rw [hfile, fetchTime, hsaved]; rfl, fun base now maxAge => ?_⟩
    exact isStale_mergedAt_earliest document.rates
  · intro b
    rw [hfile, fetchTime]
    cases document.savedAt with
    | unreadable | «at» => exact ⟨nofun, nofun⟩
    | outOfRange => exact ⟨fun h => by cases h; exact ⟨rfl, rfl⟩, fun h => by rw [h.1]; rfl⟩

/-- A converter without rates that keeps them in a file. -/
def keepingFile : Converter :=
  .ofSettings Settings.default (.ofConfig Settings.Service.default.client)
    (some ⟨"", ["rates.json"]⟩) .empty

/-- A rate file with one rate and a text for its time. -/
def fileSavedAt (timestamp : String) : Disk :=
  ⟨[(["rates.json"], .file (RateFile.contents
    ⟨timestamp, [("GBP", [("EUR", RateTable.withPlaces 12 1)])]⟩))]⟩

end Converter

end Cambio
