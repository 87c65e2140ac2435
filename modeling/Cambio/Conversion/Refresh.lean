import Cambio.Conversion.Converter
import Cambio.Conversion.Outside
import Cambio.Rates.Store

/-!
# Bringing in rates

Rates come from the rate service and from the rate file. Fetched rates replace those of the cache
and are written to the file; rates from the file only fill gaps.

## Main definitions

- `Converter.takeRates`, `Converter.takeAnswer` — taking over what was fetched
- `Converter.refresh` — fetches the rates of a currency
- `Converter.loadFile` — fills gaps from the rate file
-/

namespace Cambio.Converter

/-- The path at which rates are kept after every refresh. -/
def savePath? (c : Converter) : Option Path :=
  if c.settings.rates.isPersistent then c.store else none

/-- Takes over the fetched rates of a currency and writes all rates to the file. -/
def takeRates (c : Converter) (base : String) (rates : RateTable) (o : Outside) :
    Service.Result RateTable × Converter × Outside :=
  let c := { c with cache := c.cache.refresh base rates c.settings.rates.minEntries o.now }
  let table := ((c.cache.slot? base).map RateCache.Slot.rates).getD []
  match c.savePath? with
  | none => (.done table, c, o)
  | some path =>
    let (disk, saved) := RateFile.save o.disk path (String.ofList o.now.isoText) c.cache.book
    let o := { o with disk := disk }
    match saved with
    | .ok _ => (.done table, c, o)
    | .error b => (.breakdown b, c, o)

/-- Takes over the answer to a request for the rates of a currency. Only rates change the cache. -/
def takeAnswer (c : Converter) (base : String) (answer : Service.Result RateTable) (o : Outside) :
    Service.Result RateTable × Converter × Outside :=
  match answer with
  | .done rates => c.takeRates base rates o
  | .fault f => (.fault f, c, o)
  | .breakdown b => (.breakdown b, c, o)
  | .pending => (.pending, c, o)

/-- Fetches the rates of a currency and takes them over. -/
def refresh (c : Converter) (base : String) (o : Outside) :
    Service.Result RateTable × Converter × Outside :=
  let base := Text.upperString base
  let (answer, client, channel) := c.client.rates base (c.catalog.map Currency.code) o.channel
  takeAnswer { c with client := client } base answer { o with channel := channel }

/-- The time at which the rates of a document count as fetched: at the earliest of all times if the
    document does not say. -/
def fetchTime (document : RateDocument) : Except Breakdown Moment :=
  match document.savedAt with
  | .at moment => .ok moment
  | .unreadable => .ok .earliest
  | .outOfRange => .error .date

/-- Fills gaps of the cache from the rate file; tells how many rates were added. -/
def loadFile (c : Converter) (d : Disk) : Except Breakdown (Nat × Converter) :=
  match c.store with
  | none => .ok (0, c)
  | some path =>
    match RateFile.load d path with
    | .error b => .error b
    | .ok none => .ok (0, c)
    | .ok (some document) =>
      (fetchTime document).map fun moment =>
        let (added, cache) := c.cache.merge document.rates moment
        (added, { c with cache := cache })

end Cambio.Converter
