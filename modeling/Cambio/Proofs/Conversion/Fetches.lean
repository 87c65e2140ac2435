import Cambio.Proofs.Conversion.History

/-!
# The fetches of a run

Conversions, refreshes and warm-ups fetch rates one at a time. What holds of the fetches of a run
and of the converter after them needs a look at three steps only: a fetch, the loading of the rate
file, and anything that leaves tables and files alone.

## Main definitions

- `Converter.Fetched`, `Converter.fetches` — a fetch and how it ended, and those of an operation
- `Converter.fetchesOfRun` — the fetches of a run
- `Converter.IsInvariant` — what the three steps keep

## Main statements

- `Converter.IsInvariant.perform`, `Converter.IsInvariant.run` — every operation and every run
  keep it
-/

namespace Cambio.Converter

/-- How a fetch of rates ended, and the converter and the outside right after it. -/
abbrev Fetched := Service.Result RateTable × Converter × Outside

/-- The fetch of a conversion, if it needs one. -/
def convertFetches (c : Converter) (o : Outside) : List Fetched :=
  match c.job? with
  | none => []
  | some job => if c.isStale job o.now then [c.refresh job.fromCode o] else []

/-- The fetches of several currencies with a pause before each, as far as they come. -/
def fetchEachFetches (c : Converter) (o : Outside) : List String → List Fetched
  | [] => []
  | base :: rest =>
    c.refresh base (o.pause c.settings.rates.pause) ::
      match c.refresh base (o.pause c.settings.rates.pause) with
      | (.done _, c, o) => c.fetchEachFetches o rest
      | (.fault _, c, o) => c.fetchEachFetches o rest
      | _ => []

/-- The fetches that are left after one. -/
def laterFetches (f : Fetched) (rest : List String) : List Fetched :=
  match f with
  | (.done _, c, o) => c.fetchEachFetches o rest
  | (.fault _, c, o) => c.fetchEachFetches o rest
  | _ => []

/-- The fetches of the major currencies. -/
def fetchMajorsFetches (c : Converter) (o : Outside) : List Fetched :=
  match c.settings.rates.majors with
  | [] => []
  | base :: rest => c.refresh base o :: laterFetches (c.refresh base o) rest

/-- The fetches of a warm-up. -/
def warmUpFetches (c : Converter) (o : Outside) : List Fetched :=
  if c.settings.rates.isPersistent && c.settings.rates.loadsAtStart then
    match c.loadFile o.disk with
    | .ok (_, d) => d.fetchMajorsFetches o
    | .error _ => []
  else c.fetchMajorsFetches o

/-- The fetches of an operation. -/
def fetches (w : Converter × Outside) : Operation → List Fetched
  | .convert => w.1.convertFetches w.2
  | .refresh base => [w.1.refresh base w.2]
  | .warmUp => w.1.warmUpFetches w.2
  | _ => []

/-- The fetches of a run. -/
def fetchesOfRun (w : Converter × Outside) : List Operation → List Fetched
  | [] => []
  | op :: ops => fetches w op ++ fetchesOfRun (perform w op) ops

/-- What holds of the fetches so far and of the converter after them, and goes on to hold. -/
structure IsInvariant (P : List Fetched → Converter × Outside → Prop) : Prop where
  /-- While tables and files are left alone. -/
  rests : ∀ {log w after}, P log w → Tracks w after [] → P log after
  /-- When the rate file is loaded. -/
  loads : ∀ {log} {c : Converter} {o}, P log (c, o) →
    P log (((c.loadFile o.disk).map Prod.snd).toOption.getD c, o)
  /-- When rates are fetched. -/
  fetches : ∀ {log} {c : Converter} {o}, P log (c, o) → ∀ base,
    P (log ++ [c.refresh base o]) (c.refresh base o).2

namespace IsInvariant

variable {P : List Fetched → Converter × Outside → Prop} {log : List Fetched} {c : Converter}
  {o : Outside} {w : Converter × Outside}

theorem convert (hP : IsInvariant P) (h : P log (c, o)) :
    P (log ++ c.convertFetches o) (c.convert o) := by
  unfold Converter.convert convertFetches
  cases c.job? with
  | none =>
    rw [List.append_nil]
    exact hP.rests h (.of_same rfl rfl rfl rfl rfl)
  | some job =>
    dsimp only
    split
    · have hfetched := hP.fetches h job.fromCode
      refine hP.rests hfetched ?_
      generalize c.refresh job.fromCode o = refreshed
      obtain ⟨result, d, p⟩ := refreshed
      cases result with
      | done | fault => exact .of_keeps (keeps_finish d job)
      | breakdown | pending => exact .of_same rfl rfl rfl rfl rfl
    · rw [List.append_nil]
      exact hP.rests h (.of_keeps (keeps_finish c job))

theorem fetchEach (hP : IsInvariant P) (h : P log (c, o)) (bases : List String) :
    P (log ++ c.fetchEachFetches o bases) (c.fetchEach o bases).2 := by
  induction bases generalizing log c o with
  | nil =>
    rw [fetchEachFetches, List.append_nil]
    exact h
  | cons base rest ih =>
    have hpause : P log (c, o.pause c.settings.rates.pause) :=
      hP.rests h (.of_same rfl rfl rfl rfl rfl)
    have hfetched := hP.fetches hpause base
    unfold Converter.fetchEach fetchEachFetches
    generalize c.refresh base (o.pause c.settings.rates.pause) = refreshed at hfetched ⊢
    rw [List.append_cons]
    obtain ⟨result, d, p⟩ := refreshed
    cases result with
    | done | fault => exact ih hfetched
    | breakdown | pending => simpa using hfetched

theorem fetchMajors (hP : IsInvariant P) (h : P log (c, o)) :
    P (log ++ c.fetchMajorsFetches o) (c.fetchMajors o).2 := by
  unfold Converter.fetchMajors fetchMajorsFetches
  cases c.settings.rates.majors with
  | nil =>
    rw [List.append_nil]
    exact h
  | cons base rest =>
    have hfetched := hP.fetches h base
    dsimp only
    generalize c.refresh base o = refreshed at hfetched ⊢
    rw [List.append_cons]
    obtain ⟨result, d, p⟩ := refreshed
    cases result with
    | done | fault => exact hP.fetchEach hfetched rest
    | breakdown | pending => simpa [laterFetches] using hfetched

theorem warmUp (hP : IsInvariant P) (h : P log (c, o)) :
    P (log ++ c.warmUpFetches o) (c.warmUp o).2 := by
  have hload := hP.loads h
  unfold Converter.warmUp warmUpFetches
  split
  · cases hloaded : c.loadFile o.disk with
    | error b =>
      rw [List.append_nil]
      exact h
    | ok loaded =>
      rw [hloaded] at hload
      exact hP.fetchMajors hload
  · exact hP.fetchMajors h

/-- What the three steps keep every operation keeps. -/
theorem perform (hP : IsInvariant P) (h : P log w) (op : Operation) :
    P (log ++ Converter.fetches w op) (Converter.perform w op) := by
  obtain ⟨c, o⟩ := w
  have hquiet (hnone : Converter.fetches (c, o) op = [])
      (htracks : Tracks (c, o) (Converter.perform (c, o) op) []) :
      P (log ++ Converter.fetches (c, o) op) (Converter.perform (c, o) op) := by
    rw [hnone, List.append_nil]
    exact hP.rests h htracks
  have htracks := tracks_perform (c, o) op
  cases op with
  | convert => exact hP.convert h
  | refresh base => exact hP.fetches h base
  | warmUp => exact hP.warmUp h
  | loadFile =>
    have hload := hP.loads h
    rwa [← List.append_nil log] at hload
  | selectFrom | selectTo | enterAmount | swap | reportError | resolve | meanwhile =>
    exact hquiet rfl htracks

/-- So does every run. -/
theorem run (hP : IsInvariant P) (h : P log w) (ops : List Operation) :
    P (log ++ fetchesOfRun w ops) (Converter.run w ops) := by
  induction ops generalizing log w with
  | nil =>
    rw [fetchesOfRun, List.append_nil]
    exact h
  | cons op ops ih =>
    rw [fetchesOfRun, ← List.append_assoc]
    exact ih (hP.perform h op)

end IsInvariant

end Cambio.Converter
