import Cambio.Calendar.Moment
import Mathlib.Algebra.GroupWithZero.Nat
import Mathlib.Data.List.GetD
import Mathlib.Tactic.SplitIfs

/-!
# Dates and days

A count of days is taken apart into cycles of 400, 100, 4 and 1 years and the day of the year, and
that into a month and its day. No day of the calendar is lost, so a moment is told by its fields.

## Main statements

- `Date.exists_cycles` — the cycles of a count of days
- `Date.monthAndDay_spec` — the month and the day of a day of the year
- `Date.ofDayNumber_spec` — the date of a count of days
- `Moment.ofFields?_fields` — a moment is told by its fields
-/

namespace Cambio

namespace Date

variable {n : Nat}

/-! ## Years -/

/-- The years and the days that a count of days is made of. The 366th day belongs to the last of
    four years, and in the last four years of a century only to the last century of a cycle. -/
theorem exists_cycles (n : Nat) :
    ∃ a b c y u, n = 146097 * a + 36524 * b + 1461 * c + 365 * y + u ∧ b ≤ 3 ∧ c ≤ 24 ∧ y ≤ 3 ∧
      u ≤ 365 ∧ (u = 365 → y = 3 ∧ (c = 24 → b = 3)) ∧
      ofDayNumber n =
        let year := a * 400 + b * 100 + c * 4 + y + 1
        let found := monthAndDay (monthLengths year) 1 u
        ⟨year, found.1, found.2⟩ := by
  obtain ⟨r, hr⟩ : ∃ r, r = n % 146097 := ⟨_, rfl⟩
  obtain ⟨b, hb⟩ : ∃ b, b = min (r / 36524) 3 := ⟨_, rfl⟩
  obtain ⟨s, hs⟩ : ∃ s, s = r - b * 36524 := ⟨_, rfl⟩
  obtain ⟨y, hy⟩ : ∃ y, y = min (s % 1461 / 365) 3 := ⟨_, rfl⟩
  -- On the last day of a cycle the quotient is one too high, and `min` takes that back.
  have hlt : r < 146097 := by omega
  have hcentury : b ≤ 3 ∧ b * 36524 ≤ r ∧ (s < 36524 ∨ s = 36524 ∧ b = 3) := by omega
  have hyear : y ≤ 3 ∧ y * 365 ≤ s % 1461 ∧
      (s % 1461 - y * 365 < 365 ∨ s % 1461 - y * 365 = 365 ∧ y = 3) := by omega
  refine ⟨n / 146097, b, s / 1461, y, s % 1461 - y * 365, ?_, ?_, ?_, ?_, ?_, ?_, ?_⟩
  · omega
  · omega
  · omega
  · omega
  · omega
  · omega
  · subst hy hs hb hr
    rfl

/-- The days of the whole years before a year, by the cycles that the year is in. -/
theorem daysBefore_cycles {a b c y : Nat} (hb : b ≤ 3) (hc : c ≤ 24) (hy : y ≤ 3) :
    daysBefore (a * 400 + b * 100 + c * 4 + y + 1) =
      146097 * a + 36524 * b + 1461 * c + 365 * y := by
  unfold daysBefore
  dsimp only
  omega

/-- A year with a 366th day is a leap year. -/
theorem isLeap_cycles {a b c : Nat} (hc : c ≤ 24) (hcentury : c = 24 → b = 3) :
    isLeap (a * 400 + b * 100 + c * 4 + 3 + 1) = true := by
  have hfour : (a * 400 + b * 100 + c * 4 + 3 + 1) % 4 = 0 := by omega
  rw [isLeap, hfour]
  by_cases hlast : c = 24
  · have hcycle : (a * 400 + b * 100 + c * 4 + 3 + 1) % 400 = 0 := by
      have hb3 := hcentury hlast
      omega
    rw [hcycle]
    simp
  · have hpart : (a * 400 + b * 100 + c * 4 + 3 + 1) % 100 ≠ 0 := by omega
    simp [hpart]

/-! ## Months -/

theorem sum_monthLengths (year : Nat) :
    (monthLengths year).sum = if isLeap year = true then 366 else 365 := by
  unfold monthLengths
  split_ifs <;> rfl

/-- The month and the day of a day are found behind the days of the months before. -/
theorem monthAndDay_spec (lengths : List Nat) (first : Nat) (h : n < lengths.sum) :
    ∃ k day, monthAndDay lengths first n = (first + k, day + 1) ∧ k < lengths.length ∧
      day < lengths.getD k 0 ∧ (lengths.take k).sum + day = n := by
  induction lengths generalizing first n with
  | nil => cases h
  | cons length more ih =>
    rw [List.sum_cons] at h
    rw [monthAndDay]
    by_cases hn : n < length
    · rw [if_pos hn]
      exact ⟨0, n, rfl, Nat.succ_pos _, hn, Nat.zero_add n⟩
    · rw [if_neg hn]
      obtain ⟨k, day, hfound, hk, hday, hsum⟩ := ih (first + 1) (n := n - length) (by omega)
      refine ⟨k + 1, day, ?_, Nat.succ_lt_succ hk, hday, ?_⟩
      · rw [hfound]
        congr 1
        omega
      · rw [List.take_succ_cons, List.sum_cons]
        omega

theorem monthLength_le (year month : Nat) : monthLength year month ≤ 31 := by
  have hall : ∀ n ∈ monthLengths year, n ≤ 31 := by
    unfold monthLengths
    split_ifs <;> decide
  rw [monthLength]
  by_cases hmonth : month - 1 < (monthLengths year).length
  · rw [List.getD_eq_getElem _ _ hmonth]
    exact hall _ (List.getElem_mem hmonth)
  · rw [List.getD_eq_default _ _ (by omega)]
    exact Nat.zero_le 31

/-! ## Dates -/

theorem isValid_iff {d : Date} :
    d.isValid = true ↔ 1 ≤ d.year ∧ d.year ≤ 9999 ∧ 1 ≤ d.month ∧ d.month ≤ 12 ∧ 1 ≤ d.day ∧
      d.day ≤ monthLength d.year d.month := by
  simp only [isValid, Bool.and_eq_true, decide_eq_true_eq, and_assoc]

/-- The date of a count of days is a date of the calendar, and has that count of days. -/
theorem ofDayNumber_spec (h : n < Moment.dayLimit) :
    (ofDayNumber n).isValid = true ∧ (ofDayNumber n).dayNumber = n := by
  obtain ⟨a, b, c, y, u, hn, hb, hc, hy, hu, hleap, hdate⟩ := exists_cycles n
  have hyear : a * 400 + b * 100 + c * 4 + y + 1 ≤ 9999 := by
    unfold Moment.dayLimit at h
    omega
  have hbefore := daysBefore_cycles (a := a) hb hc hy
  have hinside : u < (monthLengths (a * 400 + b * 100 + c * 4 + y + 1)).sum := by
    rw [sum_monthLengths]
    by_cases hlast : u = 365
    · obtain ⟨rfl, hcentury⟩ := hleap hlast
      rw [isLeap_cycles hc hcentury, if_pos rfl]
      omega
    · split_ifs <;> omega
  obtain ⟨k, day, hfound, hk, hday, hsum⟩ := monthAndDay_spec _ 1 hinside
  have hmonth : k < 12 := hk
  rw [hdate]
  dsimp only
  rw [hfound]
  constructor
  · rw [isValid_iff]
    simp only [monthLength, Nat.add_sub_cancel_left]
    omega
  · rw [dayNumber, hbefore, ← List.sum_eq_foldl]
    simp only [Nat.add_sub_cancel_left, Nat.add_sub_cancel]
    omega

end Date

namespace Moment

/-! ## Fields of a moment -/

theorem TimeOfDay.isValid_iff {t : TimeOfDay} :
    t.isValid = true ↔ t.hour < 24 ∧ t.minute < 60 ∧ t.second < 60 ∧ t.micro < 1000000 := by
  simp only [isValid, Bool.and_eq_true, decide_eq_true_eq, and_assoc]

theorem isValid_fields (m : Moment) : m.fields.2.isValid = true := by
  rw [TimeOfDay.isValid_iff]
  simp only [fields, microsPerDay]
  omega

theorem micros_fields (m : Moment) : m.fields.2.micros = m.micros % microsPerDay := by
  simp only [fields, TimeOfDay.micros, microsPerDay]
  omega

/-- A moment of the years one to 9999 is told by its fields. -/
theorem ofFields?_fields {m : Moment} (h : m.micros < dayLimit * microsPerDay) :
    ofFields? m.fields.1 m.fields.2 = some m := by
  have hday : m.micros / microsPerDay < dayLimit :=
    Nat.div_lt_of_lt_mul (by rwa [Nat.mul_comm])
  obtain ⟨hvalid, hnumber⟩ : m.fields.1.isValid = true ∧
      m.fields.1.dayNumber = m.micros / microsPerDay := Date.ofDayNumber_spec hday
  rw [ofFields?, hvalid, isValid_fields, hnumber, micros_fields, Nat.div_add_mod']
  rfl

end Moment

end Cambio
