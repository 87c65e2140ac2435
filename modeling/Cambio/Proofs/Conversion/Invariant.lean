import Cambio.Proofs.Conversion.History
import Cambio.Proofs.Rates.InOrder

/-!
# Rates in order

A converter that starts from the default rates keeps its rates in order: whatever the rate service
answers and whatever the rate file holds, all cached rates are finite and above zero, every base
currency has itself at one and a time, and the time of the last refresh is that of the base
currency refreshed last. So no quotient of rates divides by zero, and the document of a save is
never refused.

## Main definitions

- `Converter.runAmid`, `Converter.historyAmid` — a run amid changing surroundings, and its calls
- `Converter.RatesInOrder` — what holds of the rates of a converter

## Main statements

- `Converter.inOrder_perform`, `Converter.inOrder_runAmid` — the cache after a step and a run
- `Converter.ratesInOrder_runAmid` — every converter that starts from the default rates
-/

namespace Cambio.Converter

open RateCache (Write)

variable {c : Converter} {o : Outside} {base : String} {bases : List String} {xs : List Write}
  {x : Write} {op : Operation}

/-! ## Calls of the program -/

theorem isLater_refresh (base : String) (table : List (String × Decimal)) (minEntries : Int)
    (now : Moment) : (Write.refresh base table minEntries now).IsLater :=
  nofun

theorem isLater_merge (book : List (String × RateTable)) (now : Moment) :
    (Write.merge book now).IsLater :=
  nofun

theorem isLater_fetchWrites (hx : x ∈ c.fetchWrites base o) : x.IsLater := by
  unfold fetchWrites at hx
  split at hx
  · rw [List.mem_singleton.mp hx]
    exact isLater_refresh _ _ _ _
  · cases hx

theorem isLater_convertWrites (hx : x ∈ c.convertWrites o) : x.IsLater := by
  unfold convertWrites at hx
  split at hx
  · cases hx
  · split at hx
    · exact isLater_fetchWrites hx
    · cases hx

theorem isLater_loadWrites {d : Disk} (hx : x ∈ c.loadWrites d) : x.IsLater := by
  have hloading := loading c d
  generalize c.loadFile d = loaded, c.loadWrites d = xs at hloading hx
  cases hloading with
  | absent | broken => cases hx
  | merged moment =>
    rw [List.mem_singleton.mp hx]
    exact isLater_merge _ moment

theorem isLater_fetchEachWrites (hx : x ∈ c.fetchEachWrites o bases) : x.IsLater := by
  induction bases generalizing c o with
  | nil => cases hx
  | cons base rest ih =>
    rw [fetchEachWrites] at hx
    rcases List.mem_append.mp hx with hfirst | hrest
    · exact isLater_fetchWrites hfirst
    · split at hrest
      · exact ih hrest
      · exact ih hrest
      · cases hrest

theorem isLater_fetchMajorsWrites (hx : x ∈ c.fetchMajorsWrites o) : x.IsLater := by
  unfold fetchMajorsWrites at hx
  split at hx
  · cases hx
  · rcases List.mem_append.mp hx with hfirst | hrest
    · exact isLater_fetchWrites hfirst
    · unfold laterWrites at hrest
      split at hrest
      · exact isLater_fetchEachWrites hrest
      · exact isLater_fetchEachWrites hrest
      · cases hrest

theorem isLater_warmUpWrites (hx : x ∈ c.warmUpWrites o) : x.IsLater := by
  unfold warmUpWrites at hx
  split at hx
  · split at hx
    · rcases List.mem_append.mp hx with hload | hfetch
      · exact isLater_loadWrites hload
      · exact isLater_fetchMajorsWrites hfetch
    · cases hx
  · exact isLater_fetchMajorsWrites hx

/-- No operation sets the cache up anew. -/
theorem isLater_writes {w : Converter × Outside} (hx : x ∈ writes w op) : x.IsLater := by
  cases op with
  | convert => exact isLater_convertWrites hx
  | refresh base => exact isLater_fetchWrites hx
  | loadFile => exact isLater_loadWrites hx
  | warmUp => exact isLater_warmUpWrites hx
  | selectFrom | selectTo | swap | enterAmount | reportError | resolve | meanwhile => cases hx

/-! ## Steps and runs -/

/-- Does one thing after the other. Between them time passes, files change and the rate service
    gets other answers to give. -/
def runAmid (c : Converter) (steps : List (Outside × Operation)) : Converter :=
  steps.foldl (fun c step => (perform (c, step.1) step.2).1) c

/-- The calls of such a run that write to the cache. -/
def historyAmid (c : Converter) : List (Outside × Operation) → List Write
  | [] => []
  | (o, op) :: steps => writes (c, o) op ++ historyAmid (perform (c, o) op).1 steps

/-- Calls change tables and times in the same way, whatever has been counted. -/
theorem bare_foldl_write (cache : RateCache) (xs : List Write) :
    (xs.foldl RateCache.write cache).bare =
      xs.foldl (fun cache x => (cache.write x).bare) cache.bare := by
  refine (List.foldl_hom RateCache.bare fun cache x => ?_).symm
  cases x <;> rfl

theorem cache_foldl_write (path? : Option Path) (h : Holdings) (xs : List Write) :
    (xs.foldl (Holdings.write path?) h).cache =
      xs.foldl (fun cache x => (cache.write x).bare) h.cache :=
  (List.foldl_hom Holdings.cache fun _ _ => rfl).symm

theorem bare_perform (c : Converter) (o : Outside) (op : Operation) :
    (perform (c, o) op).1.cache.bare =
      ((writes (c, o) op).foldl RateCache.write c.cache).bare := by
  have hcache := congrArg Holdings.cache (tracks_perform (c, o) op).holdings
  rw [cache_foldl_write] at hcache
  rw [bare_foldl_write]
  exact hcache

/-- The tables of a converter are those that the calls of its run leave. -/
theorem bare_runAmid (c : Converter) (steps : List (Outside × Operation)) :
    (runAmid c steps).cache.bare =
      ((historyAmid c steps).foldl RateCache.write c.cache).bare := by
  induction steps generalizing c with
  | nil => rfl
  | cons step steps ih =>
    rw [historyAmid, List.foldl_append, bare_foldl_write, ← bare_perform, ← bare_foldl_write]
    exact ih _

theorem inOrder_foldl (path? : Option Path) {h : Holdings} {ys : List Write}
    (horder : h.cache.InOrder xs) (hys : ∀ y ∈ ys, y.IsSound ∧ y.IsLater) :
    (ys.foldl (Holdings.write path?) h).cache.InOrder (xs ++ ys) := by
  induction ys generalizing h xs with
  | nil =>
    rw [List.append_nil]
    exact horder
  | cons y ys ih =>
    obtain ⟨⟨hsound, hlater⟩, hrest⟩ := List.forall_mem_cons.mp hys
    have hwritten : (h.write path? y).cache.InOrder (xs ++ [y]) :=
      (horder.write hsound hlater).of_same rfl rfl
    rw [List.foldl_cons, List.append_cons]
    exact ih hwritten hrest

/-- Every operation keeps the cache in order. -/
theorem inOrder_perform (h : c.cache.InOrder xs) (o : Outside) (op : Operation) :
    (perform (c, o) op).1.cache.InOrder (xs ++ writes (c, o) op) := by
  obtain ⟨-, -, hholdings, hsound⟩ := tracks_perform (c, o) op
  have hstart : (holdings (c, o)).cache.InOrder xs := h.of_same rfl rfl
  have hafter := inOrder_foldl c.savePath? hstart fun x hx => ⟨hsound x hx, isLater_writes hx⟩
  rw [← hholdings] at hafter
  exact hafter.of_same rfl rfl

/-- So does every run. -/
theorem inOrder_runAmid (h : c.cache.InOrder xs) (steps : List (Outside × Operation)) :
    (runAmid c steps).cache.InOrder (xs ++ historyAmid c steps) := by
  induction steps generalizing c xs with
  | nil =>
    rw [historyAmid, List.append_nil]
    exact h
  | cons step steps ih =>
    rw [historyAmid, ← List.append_assoc]
    exact ih (inOrder_perform h step.1 step.2)

/-! ## Documents that are saved -/

theorem save_ne_record {book : RateBook} (h : book.IsSound) (d : Disk) (p : Path)
    (timestamp : String) (report : Schema.Report) :
    (RateFile.save d p timestamp book).2 ≠ .error (.record report) := by
  have hrefused (trouble : Disk.Trouble) :
      RateFile.refused trouble ≠ .error (.record report) := by
    unfold RateFile.refused
    split <;> simp
  rw [RateFile.save, RateFile.saveTrying, h.ofBook]
  dsimp only
  split
  · exact hrefused _
  · split
    · simp
    · exact hrefused _

/-- What breaks a request is no document that the program made itself. -/
theorem fetch_ne_record (c : Converter) (base : String) (o : Outside) (report : Schema.Report) :
    (c.fetch base o).1 ≠ .breakdown (.record report) := by
  intro hbreaks
  cases Client.rates_eq_breakdown_iff.mp hbreaks with
  | answer last hlast breaks =>
    generalize last.answer = answer at breaks
    cases breaks

theorem takeRates_ne_record (h : c.cache.IsSound) {rates : RateTable}
    (hrates : ∀ entry ∈ rates, entry.2.IsRate) (base : String) (o : Outside)
    (report : Schema.Report) :
    (c.takeRates base rates o).1 ≠ .breakdown (.record report) := by
  have hsound : (c.cache.refresh base rates c.settings.rates.minEntries o.now).book.IsSound :=
    (h.write (w := .refresh base rates c.settings.rates.minEntries o.now) hrates).book
  unfold takeRates
  dsimp only
  split
  · nofun
  · next path _ =>
    have hsaved := save_ne_record hsound o.disk path (String.ofList o.now.isoText) report
    split
    · nofun
    · next b hb =>
      rw [hb] at hsaved
      exact fun hrecord => hsaved (by cases hrecord; rfl)

theorem refresh_ne_record (h : c.cache.IsSound) (base : String) (o : Outside)
    (report : Schema.Report) : (c.refresh base o).1 ≠ .breakdown (.record report) := by
  have hfetch := fetch_ne_record c base o report
  rw [refresh_eq]
  cases hanswer : (c.fetch base o).1 with
  | done rates =>
    have hrates := (Client.isSound_of_rates hanswer).rates
    exact takeRates_ne_record (c := { c with client := (c.fetch base o).2.1 }) h hrates _ _ report
  | breakdown b =>
    rw [hanswer] at hfetch
    exact hfetch
  | fault | pending => nofun

theorem Tracks.isSound {w after : Converter × Outside} (h : Tracks w after xs)
    (hsound : w.1.cache.IsSound) : after.1.cache.IsSound := by
  have hfold {h : Holdings} {xs : List Write} (hstart : h.cache.IsSound)
      (hxs : ∀ x ∈ xs, x.IsSound) :
      (xs.foldl (Holdings.write w.1.savePath?) h).cache.IsSound := by
    induction xs generalizing h with
    | nil => exact hstart
    | cons x xs ih =>
      obtain ⟨hx, hrest⟩ := List.forall_mem_cons.mp hxs
      exact ih (Holdings.isSound_write hstart hx) hrest
  have hstart : (Converter.holdings w).cache.IsSound := hsound.of_slots_eq rfl
  have hafter := hfold hstart h.sound
  rw [← h.holdings] at hafter
  exact hafter.of_slots_eq rfl

theorem afterFetch_ne_record {w : Service.Result RateTable × Converter × Outside}
    {rest : List String} {report : Schema.Report} (hw : w.1 ≠ .breakdown (.record report))
    (hrest : (w.2.1.fetchEach w.2.2 rest).1 ≠ .broken (.record report)) :
    (afterFetch w rest).1 ≠ .broken (.record report) := by
  obtain ⟨result, d, p⟩ := w
  cases result with
  | done | fault => exact hrest
  | breakdown b => exact fun hrecord => hw (by cases hrecord; rfl)
  | pending => nofun

theorem fetchEach_ne_record (h : c.cache.IsSound) (o : Outside) (bases : List String)
    (report : Schema.Report) : (c.fetchEach o bases).1 ≠ .broken (.record report) := by
  induction bases generalizing c o with
  | nil => nofun
  | cons base rest ih =>
    rw [fetchEach_cons]
    refine afterFetch_ne_record (refresh_ne_record h base _ report) (ih ?_ _)
    exact (tracks_refresh c base (o.pause c.settings.rates.pause)).isSound h

theorem fetchMajors_ne_record (h : c.cache.IsSound) (o : Outside) (report : Schema.Report) :
    (c.fetchMajors o).1 ≠ .broken (.record report) := by
  cases hmajors : c.settings.rates.majors with
  | nil =>
    rw [fetchMajors, hmajors]
    simp
  | cons first rest =>
    rw [fetchMajors_cons hmajors]
    refine afterFetch_ne_record (refresh_ne_record h first o report) ?_
    exact fetchEach_ne_record ((tracks_refresh c first o).isSound h) _ rest report

theorem loadFile_ne_record (c : Converter) (d : Disk) (report : Schema.Report) :
    c.loadFile d ≠ .error (.record report) := by
  have hload (path : Path) : RateFile.load d path ≠ .error (.record report) := by
    unfold RateFile.load
    split
    · nofun
    · next bytes _ =>
      cases RateFile.ofContents bytes <;> nofun
    · nofun
  have htime (document : RateDocument) (f : Moment → Nat × Converter) :
      (fetchTime document).map f ≠ .error (.record report) := by
    unfold fetchTime
    cases document.savedAt <;> nofun
  unfold loadFile
  split
  · nofun
  · next path _ =>
    have hpath := hload path
    split
    · next b hb =>
      rw [hb] at hpath
      exact fun hrecord => hpath (by cases hrecord; rfl)
    · nofun
    · exact htime _ _

theorem warmUp_ne_record (h : c.cache.IsSound) (o : Outside) (report : Schema.Report) :
    (c.warmUp o).1 ≠ .broken (.record report) := by
  have hfile := loadFile_ne_record c o.disk report
  have hafter := (tracks_loadFile c o).isSound h
  unfold warmUp
  split
  · split
    · next loaded =>
      rw [loaded] at hafter
      exact fetchMajors_ne_record hafter o report
    · next b hb =>
      rw [hb] at hfile
      exact fun hrecord => hfile (by cases hrecord; rfl)
  · exact fetchMajors_ne_record h o report

/-! ## What follows -/

/-- What holds of the rates of a converter after some calls. -/
structure RatesInOrder (xs : List Write) (c : Converter) : Prop where
  rates : ∀ entry ∈ c.cache.slots, ∀ rate ∈ entry.2.rates,
    rate.2.isFinite = true ∧ 0 < rate.2.value
  /-- Every base currency has itself at one, and a time. -/
  selves : ∀ entry ∈ c.cache.slots,
    c.cache.rate? entry.1 entry.1 = some .one ∧
      c.cache.fetchedAt? entry.1 = some entry.2.fetchedAt
  unrefreshed : RateCache.lastRefreshed? xs = none → c.cache.lastUpdated = none
  refreshed : ∀ base, RateCache.lastRefreshed? xs = some base →
    ∃ fetched, c.cache.fetchedAt? base = some fetched ∧ c.cache.lastUpdated = some fetched
  /-- No divisor is zero, so each quotient over a reference currency that has both rates is taken,
      and it is finite or too large. -/
  quotients : ∀ fromCode hub toCode table divisor dividend,
    Entries.get? hub (c.tables fromCode) = some table →
    Entries.get? (Text.upperString fromCode) table = some divisor →
    Entries.get? toCode table = some dividend →
      divisor.isZero = false ∧ Decimal.IsBounded (dividend.div divisor) ∧
        Resolution.cross? (c.tables fromCode) hub (Text.upperString fromCode) toCode =
          some (dividend.div divisor)
  resolves : ∀ fromCode toCode, Resolution.IsBounded (c.resolve fromCode toCode).1
  /-- The tables make a document as they stand. -/
  documents : ∀ timestamp,
    RateDocument.ofBook timestamp c.cache.book = .ok ⟨timestamp, c.cache.book⟩
  /-- So do those of every save that follows. -/
  refreshes : ∀ base o report, (c.refresh base o).1 ≠ .breakdown (.record report)
  warmsUp : ∀ o report, (c.warmUp o).1 ≠ .broken (.record report)

theorem isUsable_of_isSound {cache : RateCache} (h : cache.IsSound) : cache.IsUsable :=
  fun entry hentry rate hrate => ((h.tables entry hentry).rates rate hrate).positive

theorem cross?_of_isUsable {book : RateBook} (hbook : book.IsUsable) {hub fromCode toCode : String}
    {table : RateTable} {divisor dividend : Decimal} (htable : Entries.get? hub book = some table)
    (hdivisor : Entries.get? fromCode table = some divisor)
    (hdividend : Entries.get? toCode table = some dividend) :
    divisor.isZero = false ∧ Decimal.IsBounded (dividend.div divisor) ∧
      Resolution.cross? book hub fromCode toCode = some (dividend.div divisor) := by
  have husable : RateTable.IsUsable table := hbook _ (Entries.mem_of_get? htable)
  have hzero := Decimal.isZero_of_isPositive (husable.get? hdivisor)
  have hcross : Resolution.cross? book hub fromCode toCode = some (dividend.div divisor) := by
    simp [Resolution.cross?, htable, hdivisor, hdividend, hzero]
  exact ⟨hzero, Resolution.isBounded_cross? hbook hcross, hcross⟩

theorem ratesInOrder_of_inOrder (h : c.cache.InOrder xs) : RatesInOrder xs c := by
  have husable := isUsable_of_isSound h.sound
  constructor
  · intro entry hentry rate hrate
    have hpositive := husable entry hentry rate hrate
    exact ⟨Decimal.isFinite_of_isPositive hpositive, Decimal.value_pos_of_isPositive hpositive⟩
  · exact fun entry hentry => ⟨h.rate?_self hentry, h.fetchedAt? hentry⟩
  · intro hnone
    rw [h.lastUpdated, hnone, Option.bind_none]
  · intro base hbase
    obtain ⟨fetched, hfetched⟩ := Option.isSome_iff_exists.mp (h.refreshed base hbase)
    exact ⟨fetched, hfetched, by rw [h.lastUpdated, hbase, Option.bind_some, hfetched]⟩
  · intro fromCode hub toCode table divisor dividend
    exact cross?_of_isUsable (husable.lookUpAll _)
  · exact isBounded_resolve husable
  · exact h.sound.book.ofBook
  · exact refresh_ne_record h.sound
  · exact warmUp_ne_record h.sound

theorem inOrder_baselineCache (now : Moment) : (baselineCache now).InOrder [] := by
  have hbaseline : ∀ entry ∈ RateTable.baseline, entry.2.IsRate := by decide +kernel
  exact RateCache.inOrder_seed hbaseline now

/-- **Rates stay in order** from the default rates on, whatever is asked of the converter, whatever
    the rate service answers and whatever the rate file holds. -/
theorem ratesInOrder_runAmid (settings : Settings) (client : Client) (store : Option Path)
    (now : Moment) (steps : List (Outside × Operation)) :
    let start := Converter.ofSettings settings client store (baselineCache now)
    (runAmid start steps).cache.bare =
        ((historyAmid start steps).foldl RateCache.write (baselineCache now)).bare ∧
      RatesInOrder (historyAmid start steps) (runAmid start steps) := by
  intro start
  have hstart : start.cache.InOrder [] := inOrder_baselineCache now
  have hafter := inOrder_runAmid hstart steps
  rw [List.nil_append] at hafter
  exact ⟨bare_runAmid start steps, ratesInOrder_of_inOrder hafter⟩

end Cambio.Converter
