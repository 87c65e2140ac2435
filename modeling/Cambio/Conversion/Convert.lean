import Cambio.Conversion.Refresh

/-!
# Converting

A conversion has two parts. At its start it notes the pair and the amount and fetches rates if
those of the cache are stale. At its end it resolves the rate and multiplies. Faults of the rate
service do not stop it: it goes on with the rates that are there.

## Main definitions

- `Converter.Job` — what a conversion noted at its start
- `Converter.finish`, `Converter.conclude` — the end of a conversion
- `Converter.convert` — a whole conversion
-/

namespace Cambio.Converter

/-- What a conversion noted at its start. -/
structure Job where
  fromCode : String
  toCode : String
  amount : Decimal
  deriving DecidableEq, Repr

/-- The conversion of the present selection, if both currencies are selected. -/
def job? (c : Converter) : Option Job := do
  let fromCurrency ← c.fromCurrency
  let toCurrency ← c.toCurrency
  return ⟨fromCurrency.code, toCurrency.code, c.amount⟩

/-- What is said when no pair is selected. -/
def nothingSelected : String := "No currency selected"

/-- Notes that a conversion failed. -/
def conversionFailed (c : Converter) (b : Breakdown) : Converter :=
  c.reportError s!"Conversion error: {b.message}"

/-- The rates of the currency to convert from are stale. -/
def isStale (c : Converter) (job : Job) (now : Moment) : Bool :=
  c.cache.isStale job.fromCode now c.settings.rates.maxAge

/-- The end of a conversion: resolves the rate and multiplies. -/
def finish (c : Converter) (job : Job) : Converter :=
  match ({ c with error := none } : Converter).resolve job.fromCode job.toCode with
  | (.error b, c) => c.conversionFailed b
  | (.ok r, c) =>
    match job.amount.mul r.rate with
    | .ok converted => { c with converted := converted }
    | .error signal => c.conversionFailed (.arithmetic signal)

/-- The end of a conversion that had to fetch rates first. An answer that never comes leaves the
    conversion under way. -/
def conclude (c : Converter) (job : Job) : Service.Result RateTable → Converter
  | .done _ => c.finish job
  | .fault _ => c.finish job
  | .breakdown b => c.conversionFailed b
  | .pending => c

/-- Converts the amount. -/
def convert (c : Converter) (o : Outside) : Converter × Outside :=
  match c.job? with
  | none => (c.reportError nothingSelected, o)
  | some job =>
    if c.isStale job o.now then
      let (refreshed, c, o) := c.refresh job.fromCode o
      (c.conclude job refreshed, o)
    else (c.finish job, o)

end Cambio.Converter
