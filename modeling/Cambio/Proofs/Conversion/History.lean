import Cambio.Proofs.Conversion.Disruption
import Cambio.Proofs.Rates.Holdings
import Cambio.Proofs.Rates.SavedAt
import Cambio.Proofs.Session.Step

/-!
# What writes to the tables of a converter

All that is asked of a converter comes down to calls that write to its cache: a refresh for each
request that brings rates, and a merge for each rate file that is loaded. Of these calls, in their
order, the tables, the time of the last refresh and the rate file are a fold. Everything else that
is asked of the converter leaves them alone.

## Main definitions

- `Converter.Operation`, `Converter.run` — what is asked of a converter, and a whole run
- `Converter.writes`, `Converter.history` — the calls that write, of an operation and of a run
- `Converter.Tracks` — how tables and file follow from calls that write

## Main statements

- `Converter.tracks_perform` — every operation
- `Converter.tracks_run` — every run
-/

namespace Cambio.Converter

open RateCache (Write)

/-! ## Runs -/

/-- What is asked of a converter, and what happens meanwhile. -/
inductive Operation where
  | selectFrom (choice : Choice)
  | selectTo (choice : Choice)
  | swap
  | enterAmount (e : Entry)
  | reportError (message : String)
  | resolve (fromCode toCode : String)
  | convert
  | refresh (base : String)
  | loadFile
  | warmUp
  /-- Time passes, the rate service has other answers to come, and the client is used otherwise. -/
  | meanwhile (client : Client) (channel : Channel)

/-- Does what is asked of a converter. What is refused changes nothing. -/
def perform (w : Converter × Outside) : Operation → Converter × Outside
  | .selectFrom choice => ((w.1.selectFrom choice).toOption.getD w.1, w.2)
  | .selectTo choice => ((w.1.selectTo choice).toOption.getD w.1, w.2)
  | .swap => (w.1.swap, w.2)
  | .enterAmount e => ((w.1.enterAmount e).toOption.getD w.1, w.2)
  | .reportError message => (w.1.reportError message, w.2)
  | .resolve fromCode toCode => ((w.1.resolve fromCode toCode).2, w.2)
  | .convert => w.1.convert w.2
  | .refresh base => (w.1.refresh base w.2).2
  | .loadFile => (((w.1.loadFile w.2.disk).map Prod.snd).toOption.getD w.1, w.2)
  | .warmUp => (w.1.warmUp w.2).2
  | .meanwhile client channel => ({ w.1 with client := client }, { w.2 with channel := channel })

/-- Does one thing after the other. -/
def run (w : Converter × Outside) (ops : List Operation) : Converter × Outside :=
  ops.foldl perform w

/-! ## The calls that write -/

/-- The call that follows a fetch, if it brings rates. -/
def fetchWrites (c : Converter) (base : String) (o : Outside) : List Write :=
  match (c.fetch base o).1 with
  | .done table =>
    [.refresh (Text.upperString base) table c.settings.rates.minEntries (c.fetch base o).2.2.now]
  | _ => []

/-- The call of a conversion, which fetches rates if they are stale. -/
def convertWrites (c : Converter) (o : Outside) : List Write :=
  match c.job? with
  | none => []
  | some job => if c.isStale job o.now then c.fetchWrites job.fromCode o else []

/-- The call that follows the loading of the rate file, if there is one. -/
def loadWrites (c : Converter) (d : Disk) : List Write :=
  match c.store.map (RateFile.load d) with
  | some (.ok (some document)) =>
    match fetchTime document with
    | .ok moment => [.merge document.rates moment]
    | .error _ => []
  | _ => []

/-- The calls of the fetches of several currencies, with a pause before each. -/
def fetchEachWrites (c : Converter) (o : Outside) : List String → List Write
  | [] => []
  | base :: rest =>
    c.fetchWrites base (o.pause c.settings.rates.pause) ++
      match c.refresh base (o.pause c.settings.rates.pause) with
      | (.done _, c, o) => c.fetchEachWrites o rest
      | (.fault _, c, o) => c.fetchEachWrites o rest
      | _ => []

/-- The calls of the fetches that are left after one. -/
def laterWrites (w : Service.Result RateTable × Converter × Outside) (rest : List String) :
    List Write :=
  match w with
  | (.done _, c, o) => c.fetchEachWrites o rest
  | (.fault _, c, o) => c.fetchEachWrites o rest
  | _ => []

/-- The calls of the fetches of the major currencies. -/
def fetchMajorsWrites (c : Converter) (o : Outside) : List Write :=
  match c.settings.rates.majors with
  | [] => []
  | base :: rest => c.fetchWrites base o ++ laterWrites (c.refresh base o) rest

/-- The calls of a warm-up. -/
def warmUpWrites (c : Converter) (o : Outside) : List Write :=
  if c.settings.rates.isPersistent && c.settings.rates.loadsAtStart then
    match c.loadFile o.disk with
    | .ok (_, d) => c.loadWrites o.disk ++ d.fetchMajorsWrites o
    | .error _ => []
  else c.fetchMajorsWrites o

/-- The calls of an operation that write to the cache. -/
def writes (w : Converter × Outside) : Operation → List Write
  | .convert => w.1.convertWrites w.2
  | .refresh base => w.1.fetchWrites base w.2
  | .loadFile => w.1.loadWrites w.2.disk
  | .warmUp => w.1.warmUpWrites w.2
  | _ => []

/-- The calls of a run that write to the cache. -/
def history (w : Converter × Outside) : List Operation → List Write
  | [] => []
  | op :: ops => writes w op ++ history (perform w op) ops

/-- The tables and the disk of a converter. -/
def holdings (w : Converter × Outside) : Holdings :=
  ⟨w.1.cache.bare, w.2.disk⟩

/-- The tables and the file after some calls follow from these, whose rates are sound. -/
structure Tracks (w after : Converter × Outside) (xs : List Write) : Prop where
  settings : after.1.settings = w.1.settings
  store : after.1.store = w.1.store
  holdings : holdings after = xs.foldl (Holdings.write w.1.savePath?) (holdings w)
  sound : ∀ x ∈ xs, x.IsSound

variable {w after later : Converter × Outside} {c d : Converter} {o : Outside} {xs ys : List Write}

theorem savePath?_congr (hsettings : d.settings = c.settings) (hstore : d.store = c.store) :
    d.savePath? = c.savePath? := by
  rw [savePath?, savePath?, hsettings, hstore]

namespace Tracks

theorem refl (w : Converter × Outside) : Tracks w w [] :=
  ⟨rfl, rfl, rfl, nofun⟩

theorem trans (h : Tracks w after xs) (h' : Tracks after later ys) :
    Tracks w later (xs ++ ys) where
  settings := h'.settings.trans h.settings
  store := h'.store.trans h.store
  holdings := by
    rw [List.foldl_append, ← h.holdings, h'.holdings, savePath?_congr h.settings h.store]
  sound := List.forall_mem_append.mpr ⟨h.sound, h'.sound⟩

/-- Nothing is written while the tables and the disk stay as they are. -/
theorem of_same (hsettings : after.1.settings = w.1.settings) (hstore : after.1.store = w.1.store)
    (hslots : after.1.cache.slots = w.1.cache.slots)
    (hlast : after.1.cache.lastUpdated = w.1.cache.lastUpdated)
    (hdisk : after.2.disk = w.2.disk) : Tracks w after [] where
  settings := hsettings
  store := hstore
  holdings := by
    rw [Converter.holdings, Converter.holdings, hdisk, RateCache.bare_congr hslots hlast]
    rfl
  sound := nofun

theorem of_keeps (h : Keeps c d) : Tracks (c, o) (d, o) [] :=
  of_same h.settings h.store h.slots h.lastUpdated rfl

theorem of_selects {choice : Except Fault Converter}
    (h : ∀ d, choice = .ok d → d.settings = c.settings ∧ d.store = c.store ∧ d.cache = c.cache) :
    Tracks (c, o) (choice.toOption.getD c, o) [] := by
  cases choice with
  | error fault => exact .refl _
  | ok d =>
    obtain ⟨hsettings, hstore, hcache⟩ := h d rfl
    exact of_same hsettings hstore (congrArg _ hcache) (congrArg _ hcache) rfl

end Tracks

/-! ## One operation -/

theorem takeRates_store (c : Converter) (base : String) (rates : RateTable) (o : Outside) :
    (c.takeRates base rates o).2.1.settings = c.settings ∧
      (c.takeRates base rates o).2.1.store = c.store := by
  rw [takeRates_converter]
  exact ⟨rfl, rfl⟩

/-- Rates that are taken over are written to the cache, and to the file if they are kept there. -/
theorem holdings_takeRates (c : Converter) (base : String) (rates : RateTable) (o : Outside) :
    holdings (c.takeRates base rates o).2 =
      (holdings (c, o)).write c.savePath?
        (.refresh base rates c.settings.rates.minEntries o.now) := by
  have hsame : ({ c with cache := c.cache.refresh base rates c.settings.rates.minEntries o.now } :
      Converter).savePath? = c.savePath? := rfl
  simp only [takeRates, hsame]
  cases c.savePath? with
  | none => rfl
  | some path =>
    dsimp only
    split <;> rfl

theorem tracks_refresh (c : Converter) (base : String) (o : Outside) :
    Tracks (c, o) (c.refresh base o).2 (c.fetchWrites base o) := by
  rw [refresh_eq, fetchWrites]
  cases hfetch : (c.fetch base o).1 with
  | done table =>
    have hsound := (Client.isSound_of_rates hfetch).rates
    obtain ⟨hsettings, hstore⟩ := takeRates_store { c with client := (c.fetch base o).2.1 }
      (Text.upperString base) table { o with channel := (c.fetch base o).2.2 }
    refine ⟨hsettings, hstore, ?_, List.forall_mem_singleton.mpr hsound⟩
    exact holdings_takeRates _ _ _ _
  | fault | breakdown | pending => exact .of_same rfl rfl rfl rfl rfl

theorem tracks_convert (c : Converter) (o : Outside) :
    Tracks (c, o) (c.convert o) (c.convertWrites o) := by
  unfold convert convertWrites
  cases c.job? with
  | none => exact .of_same rfl rfl rfl rfl rfl
  | some job =>
    dsimp only
    split
    · have hrefresh := tracks_refresh c job.fromCode o
      generalize c.refresh job.fromCode o = refreshed at hrefresh
      obtain ⟨result, d, p⟩ := refreshed
      have hconclude : Tracks (d, p) (d.conclude job result, p) [] := by
        cases result with
        | done | fault => exact .of_keeps (keeps_finish d job)
        | breakdown | pending => exact .of_same rfl rfl rfl rfl rfl
      simpa using hrefresh.trans hconclude
    · exact .of_keeps (keeps_finish c job)

/-- The ways in which the loading of the rate file ends, each with the calls that write. -/
inductive Loading (c : Converter) : Except Breakdown (Nat × Converter) → List Write → Prop
  | absent : Loading c (.ok (0, c)) []
  | merged {book : RateBook} (moment : Moment) (sound : book.IsSound) :
    Loading c (.ok (c.mergedAt book moment)) [.merge book moment]
  | broken (b : Breakdown) : Loading c (.error b) []

theorem loading (c : Converter) (d : Disk) : Loading c (c.loadFile d) (c.loadWrites d) := by
  unfold loadWrites
  cases hstore : c.store with
  | none =>
    simp only [loadFile, hstore]
    exact .absent
  | some path =>
    rw [Option.map_some]
    cases hload : RateFile.load d path with
    | error b =>
      simp only [loadFile, hstore, hload]
      exact .broken b
    | ok found =>
      cases found with
      | none =>
        simp only [loadFile, hstore, hload]
        exact .absent
      | some document =>
        rw [loadFile_of_load hstore hload]
        dsimp only
        cases fetchTime document with
        | error b => exact .broken b
        | ok moment => exact .merged moment (RateFile.isSound_of_load hload)

/-- Loading the rate file merges its book, if there is one. A loading that breaks changes
    nothing. -/
theorem tracks_loadFile (c : Converter) (o : Outside) :
    Tracks (c, o) (((c.loadFile o.disk).map Prod.snd).toOption.getD c, o)
      (c.loadWrites o.disk) := by
  have hloading := loading c o.disk
  generalize c.loadFile o.disk = loaded, c.loadWrites o.disk = xs at hloading
  cases hloading with
  | absent | broken => exact .refl _
  | merged moment hsound =>
    refine ⟨rfl, rfl, rfl, List.forall_mem_singleton.mpr fun entry hentry => ?_⟩
    exact (hsound.tables entry hentry).rates

theorem tracks_fetchEach (c : Converter) (o : Outside) (bases : List String) :
    Tracks (c, o) (c.fetchEach o bases).2 (c.fetchEachWrites o bases) := by
  induction bases generalizing c o with
  | nil => exact .refl _
  | cons base rest ih =>
    have hpause : Tracks (c, o) (c, o.pause c.settings.rates.pause) [] :=
      .of_same rfl rfl rfl rfl rfl
    have hrefresh := hpause.trans (tracks_refresh c base (o.pause c.settings.rates.pause))
    unfold fetchEach fetchEachWrites
    generalize c.refresh base (o.pause c.settings.rates.pause) = refreshed at hrefresh ⊢
    obtain ⟨result, d, p⟩ := refreshed
    cases result with
    | done | fault => exact hrefresh.trans (ih d p)
    | breakdown | pending => simpa using hrefresh

theorem tracks_fetchMajors (c : Converter) (o : Outside) :
    Tracks (c, o) (c.fetchMajors o).2 (c.fetchMajorsWrites o) := by
  unfold fetchMajors fetchMajorsWrites
  cases c.settings.rates.majors with
  | nil => exact .refl _
  | cons base rest =>
    have hrefresh := tracks_refresh c base o
    dsimp only
    generalize c.refresh base o = refreshed at hrefresh ⊢
    obtain ⟨result, d, p⟩ := refreshed
    cases result with
    | done | fault => exact hrefresh.trans (tracks_fetchEach d p rest)
    | breakdown | pending => simpa [laterWrites] using hrefresh

theorem tracks_warmUp (c : Converter) (o : Outside) :
    Tracks (c, o) (c.warmUp o).2 (c.warmUpWrites o) := by
  have hload := tracks_loadFile c o
  unfold warmUp warmUpWrites
  split
  · cases hloaded : c.loadFile o.disk with
    | error b => exact .refl _
    | ok loaded =>
      rw [hloaded] at hload
      exact hload.trans (tracks_fetchMajors loaded.2 o)
  · exact tracks_fetchMajors c o

/-- The tables and the file after an operation follow from the calls that it makes. -/
theorem tracks_perform (w : Converter × Outside) (op : Operation) :
    Tracks w (perform w op) (writes w op) := by
  obtain ⟨c, o⟩ := w
  cases op with
  | selectFrom choice =>
    refine .of_selects fun d hd => ?_
    obtain ⟨x, -, rfl⟩ := selectFrom_eq_ok hd
    exact ⟨rfl, rfl, rfl⟩
  | selectTo choice =>
    refine .of_selects fun d hd => ?_
    obtain ⟨x, -, rfl⟩ := selectTo_eq_ok hd
    exact ⟨rfl, rfl, rfl⟩
  | enterAmount e =>
    refine .of_selects fun d hd => ?_
    obtain ⟨amount, -, rfl⟩ := enterAmount_eq_ok hd
    exact ⟨rfl, rfl, rfl⟩
  | swap | reportError | meanwhile => exact .of_same rfl rfl rfl rfl rfl
  | resolve fromCode toCode => exact .of_keeps (keeps_resolve c fromCode toCode)
  | convert => exact tracks_convert c o
  | refresh base => exact tracks_refresh c base o
  | loadFile => exact tracks_loadFile c o
  | warmUp => exact tracks_warmUp c o

/-- **Runs**: the tables and the file after a run follow from its calls, in their order. -/
theorem tracks_run (w : Converter × Outside) (ops : List Operation) :
    Tracks w (run w ops) (history w ops) := by
  induction ops generalizing w with
  | nil => exact .refl w
  | cons op ops ih => exact (tracks_perform w op).trans (ih (perform w op))

end Cambio.Converter
