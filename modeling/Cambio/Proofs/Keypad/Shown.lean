import Cambio.Proofs.Decimal.Tidy
import Cambio.Proofs.Keypad.Consistency
import Cambio.Proofs.Keypad.Room

/-!
# Numbers on display

A number is shown as a tidy numeral with all its places: zeros are added before its digits where
there are too few for the point, and after them where its last digit stands left of the units. The
calculator reads its own display before every operation, and so does whoever reads the rate file, so
what is read has to be the number that was shown: the digits and the exponent are kept, unless zeros
up to the units had to be written out.

## Main definitions

- `Decimal.power` — the power of ten of the last digit
- `Keypad.ShownRules` — what a number is shown as, and what is read from it

## Main statements

- `Keypad.shownRules` — all numbers that there are
-/

namespace Cambio

namespace Decimal

/-- The power of ten of the last digit. -/
def power : Decimal → Int
  | .finite _ _ e => e
  | _ => 0

variable {d : Decimal}

theorem expanded_of_power_nonpos (h : d.power ≤ 0) : d.expanded = d := by
  cases d with
  | finite negative c e => exact if_neg (not_lt.mpr h)
  | infinite | nan => rfl

theorem power_expanded_of_pos (h : 0 < d.power) : d.expanded.power = 0 := by
  cases d with
  | finite negative c e =>
    have hpos : 0 < e := h
    rw [expanded, if_pos hpos]
    rfl
  | infinite | nan => rfl

theorem isNegative_expanded (d : Decimal) : d.expanded.isNegative = d.isNegative := by
  cases d with
  | finite negative c e =>
    rw [expanded]
    split <;> rfl
  | infinite | nan => rfl

end Decimal

namespace Keypad

open Decimal (Numeral LacksPower)

/-- What a number is shown as, and what is read from it. -/
structure ShownRules (d : Decimal) : Prop where
  /-- It is shown as a tidy numeral with its sign and all its places. -/
  layout : ∃ n : Numeral, n.IsTidy ∧ n.text = formatNumber d ∧ n.negative = d.isNegative ∧
    n.places = (-d.power).toNat
  /-- It is shown without a power of ten. -/
  lacksPower : LacksPower (formatNumber d)
  points : (formatNumber d).count '.' ≤ 1
  /-- A number of the same value and sign is read, with the same digits and the same exponent
      unless that is above 0, and otherwise with the exponent 0. -/
  reads : ∃ read, parseNumber (formatNumber d) = .ok read ∧ read.value = d.value ∧
    read.isNegative = d.isNegative ∧ (d.power ≤ 0 → read = d) ∧ (0 < d.power → read.power = 0)
  /-- What is read is shown in the same way again. -/
  again : ∀ read, parseNumber (formatNumber d) = .ok read → formatNumber read = formatNumber d
  /-- No other tidy numeral is read like this: no zero can be misplaced. -/
  only : ∀ n : Numeral, n.IsTidy → parseNumber n.text = parseNumber (formatNumber d) →
    n.text = formatNumber d

variable {d : Decimal}

theorem exists_tidy_formatNumber (h : d.isFinite = true) :
    ∃ n : Numeral, n.IsTidy ∧ n.text = formatNumber d ∧ n.negative = d.isNegative ∧
      n.places = (-d.power).toNat := by
  obtain ⟨negative, c, e, rfl⟩ := Decimal.eq_finite_of_isFinite h
  exact Decimal.exists_tidy_fixed negative c e

/-- **Numbers on display**: numbers in range, which are all that can be read or computed, are shown
    so that they are read back. -/
theorem shownRules (h : d.IsHeld) : ShownRules d := by
  have hfinite := Decimal.isFinite_of_isHeld h
  have hread := parseNumber_formatNumber h
  refine ⟨exists_tidy_formatNumber hfinite, lacksPower_formatNumber hfinite,
    (isEntry_formatNumber hfinite).points, ⟨d.expanded, hread, d.value_expanded,
      d.isNegative_expanded, Decimal.expanded_of_power_nonpos, Decimal.power_expanded_of_pos⟩,
    ?again, ?only⟩
  case again =>
    intro read hread'
    rw [hread, Except.ok.injEq] at hread'
    rw [← hread']
    exact d.fixed_expanded
  case only =>
    intro n htidy hsame
    obtain ⟨hparse, -⟩ := parseNumber_eq_ok_iff.mp (hsame.trans hread)
    exact (htidy.text_eq_of_parse hparse).trans d.fixed_expanded

/-- Minus zero thousands, and a number with zeros on both sides of its point. -/
theorem shownRules_minus :
    (Decimal.finite true 0 3).IsHeld ∧ ShownRules (.finite true 0 3) ∧
      (Decimal.finite true 120 (-5)).IsHeld ∧ ShownRules (.finite true 120 (-5)) :=
  ⟨by decide, shownRules (by decide), by decide, shownRules (by decide)⟩

example : formatNumber (.finite true 0 3) = "-0".toList := by decide

example : formatNumber (.finite true 120 (-5)) = "-0.00120".toList := by decide

end Keypad

end Cambio
