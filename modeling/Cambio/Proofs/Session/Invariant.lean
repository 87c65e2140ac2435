import Cambio.Proofs.Conversion.Convert
import Cambio.Proofs.Except
import Cambio.Session.Basic

/-!
# What a session keeps

A session changes its converter in five ways only: another currency on either side, an amount, both
currencies exchanged, an entry refused, and a conversion. What each of these keeps holds after every
operation, and it held whenever a property was told meanwhile. The warm-up changes neither the
selection nor the result.

## Main definitions

- `Converter.IsKept` — a property that the changes of a converter keep
- `Session.Throughout` — a property of the converter after an operation and at all its notes, with
  the keypad as it was

## Main statements

- `Converter.sameView_warmUp` — what the warm-up leaves alone
- `Session.throughout_enterAmount`, `Session.throughout_togglePanel` and the others — one for each
  operation
-/

namespace Cambio

/-- A property that the changes of a converter keep, but for amounts that are entered. -/
structure Converter.IsKept (P : Converter → Prop) : Prop where
  fromCurrency : ∀ c x, P c → P { c with fromCurrency := x }
  toCurrency : ∀ c x, P c → P { c with toCurrency := x }
  reportError : ∀ c message, P c → P (c.reportError message)
  convert : ∀ c o, P c → P (c.convert o).1

namespace Converter

/-! ## The warm-up -/

variable {c : Converter} {o : Outside}

theorem sameView_fetchEach (c : Converter) (o : Outside) (bases : List String) :
    SameView c (c.fetchEach o bases).2.1 := by
  induction bases generalizing c o with
  | nil => exact .refl c
  | cons base rest ih =>
    have hrefresh := sameView_refresh c base (o.pause c.settings.rates.pause)
    unfold fetchEach
    generalize c.refresh base (o.pause c.settings.rates.pause) = refreshed at hrefresh ⊢
    obtain ⟨result, d, p⟩ := refreshed
    cases result with
    | done | fault => exact hrefresh.trans (ih d p)
    | breakdown | pending => exact hrefresh

theorem sameView_fetchMajors (c : Converter) (o : Outside) :
    SameView c (c.fetchMajors o).2.1 := by
  unfold fetchMajors
  split
  · exact .refl c
  · next base rest _ =>
    have hrefresh := sameView_refresh c base o
    generalize c.refresh base o = refreshed at hrefresh ⊢
    obtain ⟨result, d, p⟩ := refreshed
    cases result with
    | done | fault => exact hrefresh.trans (sameView_fetchEach d p rest)
    | breakdown | pending => exact hrefresh

theorem sameView_loadFile {d : Disk} {added : Nat} {l : Converter}
    (h : c.loadFile d = .ok (added, l)) : SameView c l := by
  unfold loadFile at h
  split at h
  · cases h
    exact .refl c
  · split at h
    · cases h
    · cases h
      exact .refl c
    · obtain ⟨moment, -, hloaded⟩ := Except.map_eq_ok_iff.mp h
      cases hloaded
      exact ⟨⟨rfl, rfl, rfl, rfl, rfl⟩, rfl, rfl⟩

/-- The warm-up leaves the selection and the result alone. -/
theorem sameView_warmUp (c : Converter) (o : Outside) : SameView c (c.warmUp o).2.1 := by
  unfold warmUp
  split
  · split
    · next hload => exact (sameView_loadFile hload).trans (sameView_fetchMajors _ o)
    · exact .refl c
  · exact sameView_fetchMajors c o

end Converter

namespace Session

/-! ## Operations -/

/-- A property holds of the converter after an operation, and held whenever something was told. The
    keypad is as it was. -/
structure Throughout (k : Keypad) (P : Converter → Prop) (after : Session × List Note) : Prop where
  keypad : after.1.keypad = k
  last : P after.1.converter
  told : ∀ note ∈ after.2, P note.seen.converter

variable {k : Keypad} {P : Converter → Prop} {s : Session}

theorem Throughout.append {before after : Session × List Note} (h : Throughout k P before)
    (h' : Throughout k P after) : Throughout k P (after.1, before.2 ++ after.2) := by
  refine ⟨h'.keypad, h'.last, fun note hnote => ?_⟩
  rcases List.mem_append.mp hnote with hbefore | hafter
  · exact h.told note hbefore
  · exact h'.told note hafter

theorem throughout_nil (h : P s.converter) : Throughout s.keypad P (s, []) :=
  ⟨rfl, h, fun _ hnote => absurd hnote List.not_mem_nil⟩

theorem throughout_announce (h : P s.converter) (ps : List Property) :
    Throughout s.keypad P (s, s.announce ps) := by
  refine ⟨rfl, h, fun note hnote => ?_⟩
  obtain ⟨p, -, rfl⟩ := List.mem_map.mp hnote
  exact h

theorem throughout_setBusy (h : P s.converter) (isBusy : Bool) :
    Throughout s.keypad P (s.setBusy isBusy) := by
  unfold setBusy
  split
  · exact throughout_nil h
  · exact throughout_announce (s := { s with isBusy := isBusy }) h _

/-! ## The currency panel -/

theorem throughout_convert (hP : Converter.IsKept P) (h : P s.converter) :
    Throughout s.keypad P s.convert := by
  have hbegun := throughout_setBusy h true
  have hdone := throughout_setBusy (s := { (s.setBusy true).1 with
    converter := ((s.setBusy true).1.converter.convert (s.setBusy true).1.outside).1
    outside := ((s.setBusy true).1.converter.convert (s.setBusy true).1.outside).2 })
    (hP.convert _ _ hbegun.last) false
  rw [hbegun.keypad] at hdone
  have htold := throughout_announce hdone.last resultProperties
  rw [hdone.keypad] at htold
  exact (hbegun.append hdone).append htold

theorem throughout_afterChange (hP : Converter.IsKept P) (h : P s.converter) :
    Throughout s.keypad P s.afterChange := by
  unfold afterChange
  split
  · exact throughout_convert hP h
  · exact throughout_nil h

theorem throughout_changed (hP : Converter.IsKept P) (h : P s.converter) (ps : List Property) :
    Throughout s.keypad P (s.changed ps) :=
  (throughout_announce h ps).append (throughout_afterChange hP h)

theorem throughout_change (hP : Converter.IsKept P) {c : Converter} (h : P c) (isSame : Bool)
    (p : Property) : Throughout s.keypad P (s.change c isSame p) := by
  unfold change
  dsimp only
  split
  · exact throughout_nil (s := { s with converter := c }) h
  · exact throughout_changed (s := { s with converter := c }) hP h _

theorem throughout_reject (hP : Converter.IsKept P) (h : P s.converter) (f : Converter.Fault) :
    Throughout s.keypad P (s.reject f) :=
  throughout_announce (s := { s with converter := s.converter.reportError f.message })
    (hP.reportError _ _ h) _

theorem throughout_selectFrom (hP : Converter.IsKept P) (h : P s.converter)
    (choice : Converter.Choice) : Throughout s.keypad P (s.selectFrom choice) := by
  unfold selectFrom Converter.selectFrom
  cases s.converter.chosen choice with
  | error f => exact throughout_reject hP h f
  | ok x => exact throughout_change hP (hP.fromCurrency _ x h) _ _

theorem throughout_selectTo (hP : Converter.IsKept P) (h : P s.converter)
    (choice : Converter.Choice) : Throughout s.keypad P (s.selectTo choice) := by
  unfold selectTo Converter.selectTo
  cases s.converter.chosen choice with
  | error f => exact throughout_reject hP h f
  | ok x => exact throughout_change hP (hP.toCurrency _ x h) _ _

/-- An amount that is entered keeps the property, if it does so as an amount. -/
theorem throughout_enterAmount (hP : Converter.IsKept P) (h : P s.converter)
    {e : Converter.Entry}
    (hentry : ∀ amount, e.value = .ok amount → P { s.converter with amount := amount }) :
    Throughout s.keypad P (s.enterAmount e) := by
  unfold enterAmount Converter.enterAmount
  cases hvalue : e.value with
  | error f => exact throughout_reject hP h f
  | ok amount => exact throughout_change hP (hentry amount hvalue) _ _

theorem throughout_swap (hP : Converter.IsKept P) (h : P s.converter) :
    Throughout s.keypad P s.swap :=
  throughout_changed (s := { s with converter := s.converter.swap }) hP
    (hP.toCurrency _ s.converter.fromCurrency (hP.fromCurrency _ s.converter.toCurrency h)) _

/-! ## The keypad -/

/-- The number on the keypad as an amount, if it is one. -/
def sendable? (s : Session) : Option Converter.Entry :=
  if s.keypad.hasError then none
  else (Keypad.parseNumber s.keypad.display).toOption.map Converter.Entry.ofDecimal

theorem send_of_sendable? {e : Converter.Entry} (h : s.sendable? = some e) :
    s.send = (true, s.enterAmount e) := by
  unfold sendable? at h
  unfold send
  split_ifs at h ⊢
  cases hnumber : Keypad.parseNumber s.keypad.display with
  | error f =>
    rw [hnumber] at h
    cases h
  | ok d =>
    rw [hnumber] at h
    cases h
    rfl

theorem send_of_none (h : s.sendable? = none) : s.send = (false, s, []) := by
  unfold sendable? at h
  unfold send
  split_ifs at h ⊢
  · rfl
  · cases hnumber : Keypad.parseNumber s.keypad.display with
    | error f => rfl
    | ok d =>
      rw [hnumber] at h
      cases h

theorem throughout_send (hP : Converter.IsKept P) (h : P s.converter)
    (hentry : ∀ e amount, s.sendable? = some e → e.value = .ok amount →
      P { s.converter with amount := amount }) : Throughout s.keypad P s.send.2 := by
  cases hkeypad : s.sendable? with
  | none =>
    rw [send_of_none hkeypad]
    exact throughout_nil h
  | some e =>
    rw [send_of_sendable? hkeypad]
    exact throughout_enterAmount hP h fun amount => hentry e amount hkeypad

theorem throughout_togglePanel (hP : Converter.IsKept P) (h : P s.converter)
    (hentry : ∀ e amount, s.sendable? = some e → e.value = .ok amount →
      P { s.converter with amount := amount }) : Throughout s.keypad P s.togglePanel := by
  have htold := throughout_announce (s := { s with panelShown := !s.panelShown }) h [.panelShown]
  unfold togglePanel
  dsimp only
  split
  · exact htold.append
      (throughout_send (s := { s with panelShown := !s.panelShown }) hP h hentry)
  · exact htold

end Session

end Cambio
