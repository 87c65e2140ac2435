import Cambio.Proofs.Conversion.History

/-!
# After a restart

A rate file has one time for all of its tables, the time at which it was written. A converter that
loads the file takes that for the time at which each of them was fetched, so a table counts as old
as the last refresh of any table. Only the tables that were fetched no earlier are as stale as they
were for the converter that wrote the file.

## Main definitions

- `Converter.lastSave?` — what a run has saved last
- `Converter.RestartRules` — the tables of a converter that loads the file of another one

## Main statements

- `Converter.restartRules_run` — after every run that has saved
-/

namespace Cambio.Converter

open RateFile (Saved)

/-- What a run has saved last, if it has saved anything. -/
def lastSave? (w : Converter × Outside) (ops : List Operation) : Option Saved :=
  Holdings.lastSave? w.1.savePath? (holdings w) (history w ops)

/-- A converter wrote a rate file, which a second one has loaded. -/
structure RestartRules (first : Converter) (saved : Saved) (second restarted : Converter) :
    Prop where
  /-- The first one has every table of the file. -/
  known : ∀ base, Text.upperString base ∈ Entries.names saved.book →
    ∃ fetched, first.cache.fetchedAt? base = some fetched
  /-- A table that the second one did not have counts as fetched when the file was written. -/
  fetched : ∀ base, second.cache.slot? base = none →
    restarted.cache.fetchedAt? base =
      if Text.upperString base ∈ Entries.names saved.book then some saved.moment else none
  /-- Whenever it is stale for the first one it is stale after the restart, if it was fetched no
      earlier than the file was written, and only then. -/
  stale : ∀ base, second.cache.slot? base = none → ∀ now,
    (∀ maxAge, first.cache.isStale base now maxAge = true →
        restarted.cache.isStale base now maxAge = true) ↔
      (Text.upperString base ∈ Entries.names saved.book →
        ∀ fetched, first.cache.fetchedAt? base = some fetched →
          saved.moment.micros ≤ fetched.micros)

variable {first second restarted : Converter} {o : Outside} {ops : List Operation} {path : Path}
  {saved : Saved}

/-! ## The time of a table -/

theorem isSome_tableOf?_iff {book : RateBook} (hbook : book.IsSound) {base : String} :
    (RateCache.tableOf? base book).isSome = true ↔ base ∈ Entries.names book := by
  have hbases : RateCache.basesOf book = Entries.names book :=
    List.map_congr_left hbook.bases.capitals
  rw [RateCache.isSome_tableOf?_iff, hbases]

theorem names_of_sameRates {book other : RateBook} (h : book.SameRates other) :
    Entries.names other = Entries.names book := by
  induction h with
  | nil => rfl
  | cons hentry _ ih => exact congrArg₂ List.cons hentry.1 ih

/-- Of two times the later one is stale whenever the earlier one is, and only then. -/
theorem microsSince_le_iff {now a b : Moment} :
    (∀ maxAge, maxAge < now.microsSince a → maxAge < now.microsSince b) ↔ b.micros ≤ a.micros := by
  unfold Moment.microsSince
  constructor
  · intro h
    have hlast := h ((now.micros : Int) - a.micros - 1) (by omega)
    omega
  · intro h maxAge hage
    omega

/-! ## After a run -/

theorem stale_iff {base : String} {now : Moment}
    (hknown : Text.upperString base ∈ Entries.names saved.book →
      ∃ fetched, first.cache.fetchedAt? base = some fetched)
    (hfetched : restarted.cache.fetchedAt? base =
      if Text.upperString base ∈ Entries.names saved.book then some saved.moment else none) :
    (∀ maxAge, first.cache.isStale base now maxAge = true →
        restarted.cache.isStale base now maxAge = true) ↔
      (Text.upperString base ∈ Entries.names saved.book →
        ∀ fetched, first.cache.fetchedAt? base = some fetched →
          saved.moment.micros ≤ fetched.micros) := by
  simp only [RateCache.isStale_iff, hfetched]
  by_cases hmem : Text.upperString base ∈ Entries.names saved.book
  · obtain ⟨fetched, hfirst⟩ := hknown hmem
    simp only [hmem, hfirst, if_true, Option.some.injEq, forall_eq', forall_const]
    exact microsSince_le_iff
  · simp [hmem]

/-- **After a restart** every table that was not there yet counts as fetched when the rate file was
    last written. So it is stale whenever it was for the converter that wrote the file exactly if
    that had fetched it no earlier. -/
theorem restartRules_run (hpath : first.savePath? = some path) (hsound : first.cache.IsSound)
    (hsaved : lastSave? (first, o) ops = some saved) (hjoined : saved.book.IsJoined)
    (hmoment : saved.moment.micros < Moment.dayLimit * Moment.microsPerDay)
    (hstore : second.store = some path) :
    ∃ added restarted,
      second.loadFile (run (first, o) ops).2.disk = .ok (added, restarted) ∧
        RestartRules (run (first, o) ops).1 saved second restarted := by
  obtain ⟨-, -, hholdings, hwrites⟩ := tracks_run (first, o) ops
  rw [lastSave?, hpath] at hsaved
  rw [hpath] at hholdings
  have hstart : (holdings (first, o)).cache.IsSound := hsound.of_slots_eq rfl
  -- The file is the one that was saved last, so it is loaded with that book and that time.
  have hkeeps := Holdings.keeps_lastSave? hstart hwrites hsaved hjoined hmoment
  rw [← hholdings] at hkeeps
  change RateFile.Keeps (run (first, o) ops).2.disk path saved at hkeeps
  obtain ⟨document, hload, hrates, hsavedAt⟩ := hkeeps.loads
  have hnames : Entries.names document.rates = Entries.names saved.book := names_of_sameRates hrates
  have hfile : second.loadFile (run (first, o) ops).2.disk =
      .ok (second.mergedAt document.rates saved.moment) := by
    rw [loadFile_of_load hstore hload, fetchTime, hsavedAt]
    rfl
  -- No call takes a table away, so all that was saved is still there.
  have hknown (base : String) (hmem : Text.upperString base ∈ Entries.names saved.book) :
      ∃ fetched, (run (first, o) ops).1.cache.fetchedAt? base = some fetched := by
    have hsome := Holdings.isSome_fetchedAt?_of_lastSave? hsaved hmem
    rw [← hholdings] at hsome
    exact Option.isSome_iff_exists.mp hsome
  have hfetched (base : String) (habsent : second.cache.slot? base = none) :
      (second.mergedAt document.rates saved.moment).2.cache.fetchedAt? base =
        if Text.upperString base ∈ Entries.names saved.book then some saved.moment else none := by
    have hnone : second.cache.fetchedAt? base = none := by
      rw [RateCache.fetchedAt?, habsent]
      rfl
    rw [mergedAt, RateCache.fetchedAt?_merge, hnone, Option.none_or, ← hnames]
    simp only [isSome_tableOf?_iff (RateFile.isSound_of_load hload)]
  refine ⟨_, _, hfile, hknown, hfetched, fun base habsent now => ?_⟩
  exact stale_iff (hknown base) (hfetched base habsent)

/-! ## Two tables of one file -/

/-- The service brings the rates of the first request at noon, and those of the second an hour
    later. -/
def hourBetween : Outside :=
  let answer (body : String) : Channel.Answer := .status 200 (Text.encodeUtf8 body.toList)
  ⟨⟨⟨63840916800000000⟩,
    [⟨.zero, answer "\x7b\"data\":\x7b\"USD\":1.1\x7d\x7d"⟩,
      ⟨.ofNat 3600, answer "\x7b\"data\":\x7b\"USD\":1.3\x7d\x7d"⟩], [], []⟩, .empty⟩

/-- Two refreshes an hour apart. -/
def eurosThenPounds : List Operation :=
  [.refresh "EUR", .refresh "GBP"]

/-- What the second refresh saves: both tables, with its own time. -/
def savedAtOne : Saved where
  moment := ⟨63840920400000000⟩
  book := [
    ("EUR", [("USD", RateTable.withPlaces 11 1), ("EUR", .one)]),
    ("GBP", [("USD", RateTable.withPlaces 13 1), ("GBP", .one)])]

/-- A restart after that is safe for pounds, while euros count as fetched an hour late. -/
theorem restartRules_run_hour :
    ∃ added restarted,
      keepingFile.loadFile (run (keepingFile, hourBetween) eurosThenPounds).2.disk =
        .ok (added, restarted) ∧
      (∀ now maxAge,
        (run (keepingFile, hourBetween) eurosThenPounds).1.cache.isStale "GBP" now maxAge = true →
          restarted.cache.isStale "GBP" now maxAge = true) ∧
      (run (keepingFile, hourBetween) eurosThenPounds).1.cache.fetchedAt? "EUR" =
        some ⟨63840916800000000⟩ ∧
      restarted.cache.fetchedAt? "EUR" = some ⟨63840920400000000⟩ := by
  have hpath : keepingFile.savePath? = some ⟨"", ["rates.json"]⟩ := by decide +kernel
  have hstore : keepingFile.store = some ⟨"", ["rates.json"]⟩ := by decide +kernel
  have hsound : keepingFile.cache.IsSound := RateCache.IsSound.empty
  have hsaved : lastSave? (keepingFile, hourBetween) eurosThenPounds = some savedAtOne := by
    decide +kernel
  have hjoined : savedAtOne.book.IsJoined := by decide +kernel
  have hmoment : savedAtOne.moment.micros < Moment.dayLimit * Moment.microsPerDay := by
    show 63840920400000000 < 3652059 * 86400000000
    omega
  have heuros : (run (keepingFile, hourBetween) eurosThenPounds).1.cache.fetchedAt? "EUR" =
      some ⟨63840916800000000⟩ := by decide +kernel
  have hpounds : (run (keepingFile, hourBetween) eurosThenPounds).1.cache.fetchedAt? "GBP" =
      some ⟨63840920400000000⟩ := by decide +kernel
  have hnoEuros : keepingFile.cache.slot? "EUR" = none := by decide +kernel
  have hnoPounds : keepingFile.cache.slot? "GBP" = none := by decide +kernel
  have hkept : Text.upperString "EUR" ∈ Entries.names savedAtOne.book := by decide +kernel
  obtain ⟨added, restarted, hload, hrules⟩ :=
    restartRules_run hpath hsound hsaved hjoined hmoment hstore
  refine ⟨added, restarted, hload, fun now => ?_, heuros, ?_⟩
  · refine (hrules.stale "GBP" hnoPounds now).mpr fun _ fetched hfetched => ?_
    rw [hpounds, Option.some.injEq] at hfetched
    exact Nat.le_of_eq (congrArg Moment.micros hfetched)
  · rw [hrules.fetched "EUR" hnoEuros, if_pos hkept]
    rfl

/-- At half past one euros are older than an hour, but not after a restart. -/
theorem not_isStale_of_restart :
    let w := run (keepingFile, hourBetween) eurosThenPounds
    let now : Moment := ⟨63840922200000000⟩
    let hour : Int := 3600000000
    keepingFile.cache.slot? "EUR" = none ∧ w.1.cache.isStale "EUR" now hour = true ∧
      (keepingFile.loadFile w.2.disk).map (fun r => r.2.cache.isStale "EUR" now hour) =
        .ok false := by
  decide +kernel

end Cambio.Converter
