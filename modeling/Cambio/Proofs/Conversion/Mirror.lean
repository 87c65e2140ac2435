import Cambio.Proofs.Conversion.Fetches
import Cambio.Proofs.Conversion.Invariant
import Cambio.Proofs.Conversion.Restart
import Cambio.Proofs.Rates.Writable

/-!
# The rate file mirrors the tables

A converter that keeps its rates under a path that can be written to changes the file with every
fetch that succeeds, and with nothing else. So until the first such fetch the disk is what it was,
and from then on the file is read back with the tables as they were right after the last one, and
with its time, unless a code keeps both halves of a pair.

## Main definitions

- `Converter.success?`, `Converter.lastSuccess?` — the converter right after a fetch that succeeds
- `Converter.Mirrors` — the rate file after some fetches

## Main statements

- `Converter.Mirrors.refresh` — one fetch
- `Converter.fileRules_run` — every run
-/

namespace Cambio.Converter

open RateFile (IsWritable)

/-- The converter right after a fetch, if it succeeded. -/
def success? (f : Fetched) : Option Converter :=
  match f.1 with
  | .done _ => some f.2.1
  | _ => none

/-- The converter right after the last fetch that succeeded. -/
def lastSuccess? (log : List Fetched) : Option Converter :=
  log.reverse.findSome? success?

/-- The rate file after some fetches, of which the last successful one left `d`. -/
structure MirrorsLast (path : Path) (d : Converter) (w : Converter × Outside) : Prop where
  sound : w.1.cache.IsSound
  /-- No later refresh has changed the time, and the file has it too. -/
  kept : ∃ moment, d.cache.lastUpdated = some moment ∧ w.1.cache.lastUpdated = some moment ∧
    (d.cache.book.IsJoined → moment.micros < Moment.dayLimit * Moment.microsPerDay →
      RateFile.Keeps w.2.disk path ⟨moment, d.cache.book⟩)

/-- The rate file after some fetches, from a disk on. -/
structure Mirrors (path : Path) (start : Disk) (log : List Fetched) (w : Converter × Outside) :
    Prop where
  savePath : w.1.savePath? = some path
  writable : IsWritable w.2.disk path
  built : w.1.cache.IsBuilt
  untouched : lastSuccess? log = none → w.2.disk = start
  mirrored : ∀ d, lastSuccess? log = some d → MirrorsLast path d w

variable {path : Path} {start : Disk} {log : List Fetched} {c : Converter} {o : Outside}
  {w after : Converter × Outside} {base : String} {moment : Moment} {book : RateBook}

theorem lastSuccess?_append (log : List Fetched) (f : Fetched) :
    lastSuccess? (log ++ [f]) = (success? f).or (lastSuccess? log) := by
  rw [lastSuccess?, List.reverse_append, List.reverse_singleton, List.singleton_append,
    List.findSome?_cons, ← lastSuccess?]
  cases success? f <;> rfl

/-! ## Steps without a fetch -/

theorem Mirrors.of_same (h : Mirrors path start log w) (htracks : Tracks w after []) :
    Mirrors path start log after := by
  have hslots : after.1.cache.slots = w.1.cache.slots :=
    congrArg (fun h => h.cache.slots) htracks.holdings
  have hlast : after.1.cache.lastUpdated = w.1.cache.lastUpdated :=
    congrArg (fun h => h.cache.lastUpdated) htracks.holdings
  have hdisk : after.2.disk = w.2.disk := congrArg Holdings.disk htracks.holdings
  refine ⟨(savePath?_congr htracks.settings htracks.store).trans h.savePath, ?_,
    h.built.of_slots_eq hslots, fun hnone => hdisk.trans (h.untouched hnone), fun d hd => ?_⟩
  · rw [hdisk]
    exact h.writable
  · obtain ⟨hsound, hkept⟩ := h.mirrored d hd
    refine ⟨hsound.of_slots_eq hslots, ?_⟩
    rw [hlast, hdisk]
    exact hkept

/-- A merge leaves the disk and the time of the last refresh alone. -/
theorem Mirrors.merged (h : Mirrors path start log (c, o)) {book : RateBook}
    (hbook : book.IsSound) (moment : Moment) :
    Mirrors path start log ((c.mergedAt book moment).2, o) := by
  have hwrite : (RateCache.Write.merge book moment).IsSound := fun entry hentry =>
    (hbook.tables entry hentry).rates
  refine ⟨h.savePath, h.writable, h.built.write hwrite, h.untouched, fun d hd => ?_⟩
  obtain ⟨hsound, hkept⟩ := h.mirrored d hd
  exact ⟨hsound.write hwrite, hkept⟩

theorem Mirrors.loadFile (h : Mirrors path start log (c, o)) :
    Mirrors path start log (((c.loadFile o.disk).map Prod.snd).toOption.getD c, o) := by
  have hloading := loading c o.disk
  generalize c.loadFile o.disk = loaded, c.loadWrites o.disk = xs at hloading
  cases hloading with
  | absent | broken => exact h
  | merged moment hsound => exact h.merged hsound moment

/-! ## Fetches -/

/-- Sound tables are saved, and the file has them. -/
theorem keeps_save {d : Disk} (hwritable : IsWritable d path) (hbook : book.IsSound)
    (moment : Moment) :
    ∃ written, RateFile.save d path (String.ofList moment.isoText) book = (written, .ok true) ∧
      (book.IsJoined → moment.micros < Moment.dayLimit * Moment.microsPerDay →
        RateFile.Keeps written path ⟨moment, book⟩) := by
  obtain ⟨made, hmade, hroom⟩ := RateFile.isWritable_iff.mp hwritable
  obtain ⟨written, target, hsave, hlocate, hwrote⟩ :=
    RateFile.save_of_hasRoom hmade hroom (hbook.ofBook (String.ofList moment.isoText))
  refine ⟨written, hsave, fun hjoined hmoment => ⟨⟨target, hwrote.locate_eq hlocate⟩, ?_⟩⟩
  exact RateFile.loadsBack_of_wrote hmoment (hbook.isTidy hjoined) hlocate hwrote

/-- The cache after fetched rates were taken over. -/
def cacheAfter (c : Converter) (base : String) (rates : RateTable) (now : Moment) : RateCache :=
  c.cache.refresh base rates c.settings.rates.minEntries now

theorem takeRates_of_save {rates : RateTable} {saved : Disk × Except Breakdown Bool}
    (hpath : c.savePath? = some path)
    (hsave : RateFile.save o.disk path (String.ofList o.now.isoText)
      (c.cacheAfter base rates o.now).book = saved) :
    (c.takeRates base rates o).2 =
        ({ c with cache := c.cacheAfter base rates o.now }, { o with disk := saved.1 }) ∧
      success? (c.takeRates base rates o) =
        match saved.2 with
        | .ok _ => some { c with cache := c.cacheAfter base rates o.now }
        | .error _ => none := by
  have hpath' : ({ c with cache := c.cacheAfter base rates o.now } : Converter).savePath? =
      some path := hpath
  obtain ⟨disk, result⟩ := saved
  unfold cacheAfter at hsave hpath' ⊢
  unfold takeRates
  simp only [hpath', hsave]
  cases result <;> exact ⟨rfl, rfl⟩

/-- Rates that are taken over are saved exactly if all rates are usable after that, and once they
    were they are for good. -/
theorem Mirrors.takeRates (h : Mirrors path start log (c, o)) {rates : RateTable}
    (hrates : ∀ entry ∈ rates, entry.2.IsRate) (base : String) :
    Mirrors path start (log ++ [c.takeRates base rates o]) (c.takeRates base rates o).2 := by
  have hwrite : (RateCache.Write.refresh base rates c.settings.rates.minEntries o.now).IsSound :=
    hrates
  have hbuilt : (c.cacheAfter base rates o.now).IsBuilt := h.built.write hwrite
  cases hdocument : RateDocument.ofBook (String.ofList o.now.isoText)
      (c.cacheAfter base rates o.now).book with
  | error report =>
    have hsave := RateFile.save_of_ofBook_error (d := o.disk) (p := path) hdocument
    obtain ⟨hafter, hfailed⟩ := takeRates_of_save h.savePath hsave
    have hlast := lastSuccess?_append log (c.takeRates base rates o)
    rw [hfailed, Option.none_or] at hlast
    rw [hafter]
    refine ⟨h.savePath, h.writable, hbuilt, fun hnone => ?_, fun d hd => ?_⟩
    · exact h.untouched (hlast ▸ hnone)
    · -- After a success all rates are usable, so the tables would have made a document.
      have hsound : (c.cacheAfter base rates o.now).IsSound :=
        (h.mirrored d (hlast ▸ hd)).sound.write hwrite
      rw [hsound.book.ofBook] at hdocument
      cases hdocument
  | ok document =>
    have hsound := hbuilt.isSound (RateBook.isUsable_of_ofBook hdocument)
    obtain ⟨written, hsave, hkeeps⟩ := keeps_save h.writable hsound.book o.now
    obtain ⟨hafter, hdone⟩ := takeRates_of_save h.savePath hsave
    have hlast := lastSuccess?_append log (c.takeRates base rates o)
    rw [hdone, Option.some_or] at hlast
    have hwritable := h.writable.save (String.ofList o.now.isoText)
      (c.cacheAfter base rates o.now).book
    rw [hsave] at hwritable
    rw [hafter]
    refine ⟨h.savePath, hwritable, hbuilt, fun hnone => ?_, fun d hd => ?_⟩
    · rw [hlast] at hnone
      cases hnone
    · rw [hlast] at hd
      cases hd
      exact ⟨hsound, o.now, rfl, rfl, hkeeps⟩

theorem Mirrors.refresh (h : Mirrors path start log (c, o)) (base : String) :
    Mirrors path start (log ++ [c.refresh base o]) (c.refresh base o).2 := by
  have hasked : Mirrors path start log
      ({ c with client := (c.fetch base o).2.1 }, { o with channel := (c.fetch base o).2.2 }) :=
    h.of_same (.of_same rfl rfl rfl rfl rfl)
  rw [refresh_eq]
  cases hanswer : (c.fetch base o).1 with
  | done rates => exact hasked.takeRates (Client.isSound_of_rates hanswer).rates _
  | fault | breakdown | pending =>
    have hlast (f : Fetched) (hf : success? f = none) :
        lastSuccess? (log ++ [f]) = lastSuccess? log := by
      rw [lastSuccess?_append, hf, Option.none_or]
    refine ⟨hasked.savePath, hasked.writable, hasked.built, fun hnone => ?_, fun d hd => ?_⟩
    · rw [hlast _ rfl] at hnone
      exact hasked.untouched hnone
    · rw [hlast _ rfl] at hd
      exact hasked.mirrored d hd

/-- Over sound tables all that is fetched can be saved. -/
theorem success?_refresh (hpath : c.savePath? = some path) (hwritable : IsWritable o.disk path)
    (hsound : c.cache.IsSound) {rates : RateTable} (hdone : (c.fetch base o).1 = .done rates) :
    (success? (c.refresh base o)).isSome := by
  let d : Converter := { c with client := (c.fetch base o).2.1 }
  let p : Outside := { o with channel := (c.fetch base o).2.2 }
  have hwrite : (RateCache.Write.refresh (Text.upperString base) rates
      c.settings.rates.minEntries p.now).IsSound := (Client.isSound_of_rates hdone).rates
  have hafter : (d.cacheAfter (Text.upperString base) rates p.now).IsSound := hsound.write hwrite
  obtain ⟨written, hsave, -⟩ := keeps_save hwritable hafter.book p.now
  have hpath' : d.savePath? = some path := hpath
  have hsuccess := (takeRates_of_save (o := p) hpath' hsave).2
  rw [refresh_eq, hdone]
  change (success? (d.takeRates (Text.upperString base) rates p)).isSome
  rw [hsuccess]
  rfl

theorem isInvariant_mirrors (path : Path) (start : Disk) : IsInvariant (Mirrors path start) where
  rests := Mirrors.of_same
  loads := Mirrors.loadFile
  fetches := Mirrors.refresh

/-! ## Runs -/

theorem mirrors_nil (hpath : w.1.savePath? = some path) (hwritable : IsWritable w.2.disk path)
    (hbuilt : w.1.cache.IsBuilt) : Mirrors path w.2.disk [] w := by
  refine ⟨hpath, hwritable, hbuilt, fun _ => rfl, fun d hd => ?_⟩
  rw [show lastSuccess? [] = none from rfl] at hd
  cases hd

/-- An operation without a fetch that succeeds leaves the disk as it is. -/
theorem disk_of_lastSuccess?_eq_none (hpath : w.1.savePath? = some path)
    (hwritable : IsWritable w.2.disk path) (hbuilt : w.1.cache.IsBuilt) {op : Operation}
    (hnone : lastSuccess? (fetches w op) = none) : (perform w op).2.disk = w.2.disk := by
  have hafter := (isInvariant_mirrors path w.2.disk).perform (mirrors_nil hpath hwritable hbuilt) op
  exact hafter.untouched hnone

/-- What becomes of the rate file of a converter, `w` being a run of it. -/
structure FileRules (path : Path) (c : Converter) (o : Outside) (ops : List Operation)
    (w : Converter × Outside) : Prop where
  /-- Before the first fetch that succeeds the disk is what it was. -/
  untouched : lastSuccess? (fetchesOfRun (c, o) ops) = none → w.2.disk = o.disk
  /-- After it the time of the last one is that of the cache, and the file is read back with this
      time and the tables right after that fetch. -/
  mirrored : ∀ d, lastSuccess? (fetchesOfRun (c, o) ops) = some d →
    ∃ moment, d.cache.lastUpdated = some moment ∧ w.1.cache.lastUpdated = some moment ∧
      (d.cache.book.IsJoined → moment.micros < Moment.dayLimit * Moment.microsPerDay →
        RateFile.Keeps w.2.disk path ⟨moment, d.cache.book⟩)
  /-- Whatever brings no rates leaves the disk as it is. -/
  still : ∀ op, lastSuccess? (fetches w op) = none → (perform w op).2.disk = w.2.disk
  /-- Over sound tables every fetch succeeds that brings rates. -/
  succeeds : c.cache.IsSound → ∀ base table, (w.1.fetch base w.2).1 = .done table →
    (success? (w.1.refresh base w.2)).isSome

/-- **The rate file mirrors the tables** of every run that keeps its rates under a path that can be
    written to, unless a code keeps both halves of a pair. -/
theorem fileRules_run (hpath : c.savePath? = some path) (hwritable : IsWritable o.disk path)
    (hbuilt : c.cache.IsBuilt) (ops : List Operation) :
    FileRules path c o ops (run (c, o) ops) := by
  have hstart : Mirrors path o.disk [] (c, o) := mirrors_nil (w := (c, o)) hpath hwritable hbuilt
  have hrun := (isInvariant_mirrors path o.disk).run hstart ops
  rw [List.nil_append] at hrun
  refine ⟨hrun.untouched, fun d hd => (hrun.mirrored d hd).kept, fun op hnone => ?_, ?_⟩
  · exact disk_of_lastSuccess?_eq_none hrun.savePath hrun.writable hrun.built hnone
  · intro hsound base table hdone
    have hafter := (tracks_run (c, o) ops).isSound hsound
    exact success?_refresh hrun.savePath hrun.writable hafter hdone

/-- Two fetches an hour apart, and a merge of the file that they wrote. -/
theorem fileRules_run_hour :
    let p : Path := ⟨"", ["rates.json"]⟩
    keepingFile.savePath? = some p ∧ IsWritable hourBetween.disk p ∧ keepingFile.cache.IsBuilt ∧
      RateFile.Keeps (run (keepingFile, hourBetween) eurosThenPounds).2.disk p savedAtOne ∧
      (run (keepingFile, hourBetween) eurosThenPounds).1.cache.lastUpdated =
        some savedAtOne.moment ∧
      (perform (run (keepingFile, hourBetween) eurosThenPounds) .loadFile).2.disk =
        (run (keepingFile, hourBetween) eurosThenPounds).2.disk := by
  intro p
  have hpath : keepingFile.savePath? = some p := by decide +kernel
  have hwritable : IsWritable hourBetween.disk p := by
    have hsave : (RateFile.save hourBetween.disk p "" []).2 = .ok true := by decide +kernel
    exact RateFile.isWritable_of_save hsave
  have hbuilt : keepingFile.cache.IsBuilt := RateCache.IsSound.empty.isBuilt
  have hrules := fileRules_run (o := hourBetween) hpath hwritable hbuilt eurosThenPounds
  have hsuccess : (lastSuccess? (fetchesOfRun (keepingFile, hourBetween) eurosThenPounds)).map
      (fun d => (d.cache.book, d.cache.lastUpdated)) =
        some (savedAtOne.book, some savedAtOne.moment) := by decide +kernel
  obtain ⟨d, hd, hlast⟩ := Option.map_eq_some_iff.mp hsuccess
  obtain ⟨hbook, htime⟩ := Prod.mk.inj hlast
  obtain ⟨moment, hmoment, hnow, hkeeps⟩ := hrules.mirrored d hd
  have hsame : savedAtOne.moment = moment := Option.some.inj (htime.symm.trans hmoment)
  subst hsame
  rw [hbook] at hkeeps
  have hjoined : savedAtOne.book.IsJoined := by decide +kernel
  have hcalendar : savedAtOne.moment.micros < Moment.dayLimit * Moment.microsPerDay := by
    show 63840920400000000 < 3652059 * 86400000000
    omega
  exact ⟨hpath, hwritable, hbuilt, hkeeps hjoined hcalendar, hnow, hrules.still .loadFile rfl⟩

/-! ## Halves of a pair -/

/-- The rate service brings a rate under a code of two halves, which stand side by side as three
    bytes each. -/
def bringingHalves : Outside :=
  ⟨⟨⟨63840916800000000⟩,
    [⟨.zero, .status 200 [0x7b, 0x22, 0x64, 0x61, 0x74, 0x61, 0x22, 0x3a, 0x7b, 0x22, 0xed, 0xa0,
      0xbd, 0xed, 0xb8, 0x80, 0x22, 0x3a, 0x31, 0x2e, 0x35, 0x7d, 0x7d]⟩], [], []⟩, .empty⟩

/-- The cache has the two halves and the file the character that they are halves of, so loading the
    file adds a rate. -/
theorem not_keeps_of_halves :
    let p : Path := ⟨"", ["rates.json"]⟩
    let w := run (keepingFile, bringingHalves) [.refresh "EUR"]
    ∃ d, lastSuccess? (fetchesOfRun (keepingFile, bringingHalves) [.refresh "EUR"]) = some d ∧
      (∀ moment, ¬ RateFile.Keeps w.2.disk p ⟨moment, d.cache.book⟩) ∧
        (w.1.loadFile w.2.disk).map Prod.fst = .ok 1 := by
  intro p w
  let halves := String.ofList [Char.ofNat 0x10d83d, Char.ofNat 0x10de00]
  have hsuccess : (lastSuccess? (fetchesOfRun (keepingFile, bringingHalves)
      [.refresh "EUR"])).map (fun d => d.cache.book) =
        some [("EUR", [(halves, .finite false 15 (-1)), ("EUR", .one)])] := by decide +kernel
  have hload : (RateFile.load w.2.disk p).map (Option.map RateDocument.rates) =
      .ok (some [("EUR", [("😀", .finite false 15 (-1)), ("EUR", .one)])]) := by decide +kernel
  obtain ⟨d, hd, hbook⟩ := Option.map_eq_some_iff.mp hsuccess
  refine ⟨d, hd, fun moment hkeeps => ?_, by decide +kernel⟩
  obtain ⟨document, hdocument, hrates, -⟩ := hkeeps.loads
  rw [hdocument] at hload
  have hread : document.rates = [("EUR", [("😀", .finite false 15 (-1)), ("EUR", .one)])] := by
    simpa [Except.map] using hload
  rw [hbook, hread] at hrates
  obtain ⟨⟨-, htable⟩, -⟩ := List.forall₂_cons.mp hrates
  obtain ⟨⟨hcode, -⟩, -⟩ := List.forall₂_cons.mp htable
  exact absurd hcode (by decide +kernel)

end Cambio.Converter
