import Cambio.Conversion.Refresh

/-!
# The warm-up

When the program starts, it reads the rate file and fetches the rates of the major currencies one
after the other. This goes on in the background. A warm-up whose rates never come stays under way
until it is stopped; what it has brought in by then is kept.

## Main definitions

- `Converter.warmUp` — a whole warm-up
- `Converter.Warming` — how the warm-up of a converter stands
- `Converter.Warming.start`, `Converter.Warming.stop` — the beginning and the end of a warm-up
-/

namespace Cambio.Converter

/-- How the warm-up ended. -/
inductive WarmUp where
  | finished
  | broken (b : Breakdown)
  /-- An answer never came. -/
  | pending
  deriving DecidableEq, Repr

/-- Fetches the rates of several currencies with a pause before each; faults of the service are
    passed over. -/
def fetchEach (c : Converter) (o : Outside) : List String → WarmUp × Converter × Outside
  | [] => (.finished, c, o)
  | base :: rest =>
    match c.refresh base (o.pause c.settings.rates.pause) with
    | (.done _, c, o) => c.fetchEach o rest
    | (.fault _, c, o) => c.fetchEach o rest
    | (.breakdown b, c, o) => (.broken b, c, o)
    | (.pending, c, o) => (.pending, c, o)

/-- Fetches the rates of the major currencies; there is no pause before the first. -/
def fetchMajors (c : Converter) (o : Outside) : WarmUp × Converter × Outside :=
  match c.settings.rates.majors with
  | [] => (.finished, c, o)
  | base :: rest =>
    match c.refresh base o with
    | (.done _, c, o) => c.fetchEach o rest
    | (.fault _, c, o) => c.fetchEach o rest
    | (.breakdown b, c, o) => (.broken b, c, o)
    | (.pending, c, o) => (.pending, c, o)

/-- Reads the rate file, if the settings say so, and fetches the rates of the major currencies. -/
def warmUp (c : Converter) (o : Outside) : WarmUp × Converter × Outside :=
  if c.settings.rates.isPersistent && c.settings.rates.loadsAtStart then
    match c.loadFile o.disk with
    | .ok (_, c) => c.fetchMajors o
    | .error b => (.broken b, c, o)
  else c.fetchMajors o

/-! ## In the background -/

/-- How the warm-up of a converter stands. -/
inductive Warming where
  | idle
  | underWay
  | ended
  | cancelled
  deriving DecidableEq, Repr

namespace Warming

/-- How it stands when a warm-up ended so. -/
def after : WarmUp → Warming
  | .pending => .underWay
  | _ => .ended

/-- Begins a warm-up, unless one is under way, and lets it run as far as it comes. -/
def start (w : Warming) (c : Converter) (o : Outside) : WarmUp × Warming × Converter × Outside :=
  if w = .underWay then (.pending, w, c, o)
  else
    let (result, c, o) := c.warmUp o
    (result, after result, c, o)

/-- Stops a warm-up that is under way. -/
def stop : Warming → Warming
  | .underWay => .cancelled
  | w => w

/-- The last warm-up was stopped before its end, if there was one. -/
def wasCancelled? : Warming → Option Bool
  | .idle => none
  | w => some (w = .cancelled)

end Warming

end Cambio.Converter
