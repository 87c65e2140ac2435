import Cambio.Proofs.Calendar.Iso

/-!
# Offsets from universal time

A written moment with an offset is read back like one without. Its instant is its clock less the
offset, and that may lie outside of the calendar even though the clock does not.

## Main definitions

- `Stamp.instant` — the instant of a stamp, in microseconds of universal time
- `Stamp.IsStandard` — the stamps that have a standard form

## Main statements

- `Stamp.parse?_standard` — a stamp, read back from its standard form
- `Stamp.bounds_of_parse?` — what is read is a moment of the calendar and less than a day ahead
- `Stamp.moment?_eq_some_iff`, `Stamp.moment?_eq_none_iff` — when a stamp is a moment
-/

namespace Cambio

namespace Moment

/-- Microseconds of the years one to 9999. -/
def InCalendar (n : Int) : Prop :=
  0 ≤ n ∧ n < (dayLimit * microsPerDay : Nat)

instance (n : Int) : Decidable (InCalendar n) :=
  instDecidableAnd

end Moment

namespace Date

theorem sum_take_add_le (lengths : List Nat) (k : Nat) :
    (lengths.take k).sum + lengths.getD k 0 ≤ lengths.sum := by
  induction lengths generalizing k with
  | nil => simp
  | cons length more ih =>
    cases k with
    | zero => simp
    | succ k =>
      have hmore := ih k
      simp only [List.take_succ_cons, List.sum_cons, List.getD_cons_succ]
      omega

/-- Every date of the calendar has its day among those of the years one to 9999. -/
theorem dayNumber_lt {d : Date} (h : d.isValid = true) : d.dayNumber < Moment.dayLimit := by
  obtain ⟨hfirst, hlast, -, -, hday, hlength⟩ := isValid_iff.mp h
  have hyear := sum_take_add_le (monthLengths d.year) (d.month - 1)
  have hsum := sum_monthLengths d.year
  have hsum' : (monthLengths d.year).sum ≤ 366 := by
    rw [hsum]
    split_ifs <;> omega
  have hnormal : d.year = 9999 → (monthLengths d.year).sum = 365 := by
    rintro h
    rw [hsum, h]
    rfl
  rw [dayNumber, ← List.sum_eq_foldl]
  unfold monthLength at hlength
  unfold daysBefore Moment.dayLimit
  dsimp only
  omega

end Date

namespace Moment

theorem TimeOfDay.micros_lt {t : TimeOfDay} (h : t.isValid = true) : t.micros < microsPerDay := by
  obtain ⟨hhour, hminute, hsecond, hmicro⟩ := TimeOfDay.isValid_iff.mp h
  unfold TimeOfDay.micros microsPerDay
  omega

theorem inCalendar_of_ofFields? {d : Date} {t : TimeOfDay} {m : Moment}
    (h : ofFields? d t = some m) : InCalendar m.micros := by
  rw [ofFields?] at h
  split at h
  · next hvalid =>
    cases h
    obtain ⟨hdate, htime⟩ := Bool.and_eq_true_iff.mp hvalid
    have hday := Date.dayNumber_lt hdate
    have hmicros := TimeOfDay.micros_lt htime
    refine ⟨Int.natCast_nonneg _, Int.ofNat_lt.mpr ?_⟩
    calc d.dayNumber * microsPerDay + t.micros
        < d.dayNumber * microsPerDay + microsPerDay := Nat.add_lt_add_left hmicros _
      _ = (d.dayNumber + 1) * microsPerDay := (Nat.succ_mul _ _).symm
      _ ≤ dayLimit * microsPerDay := Nat.mul_le_mul_right _ hday
  · cases h

end Moment

namespace Stamp

open Moment

/-! ## Stamps as instants -/

/-- The instant of a stamp, in microseconds of universal time. A moment without an offset is local,
    and local time is universal time. -/
def instant (s : Stamp) : Int :=
  s.clock.micros - s.ahead.getD 0

theorem moment?_eq_ofMicros? {s : Stamp} (h : InCalendar s.clock.micros) :
    s.moment? = Moment.ofMicros? s.instant := by
  unfold moment? instant
  cases s.ahead with
  | none =>
    rw [Option.getD_none, Int.sub_zero, Moment.ofMicros?, if_pos (by simpa [InCalendar] using h)]
    rfl
  | some ahead => rfl

theorem ofMicros?_eq_some_iff {n : Int} {m : Moment} :
    Moment.ofMicros? n = some m ↔ InCalendar n ∧ (m.micros : Int) = n := by
  unfold Moment.ofMicros? InCalendar
  split
  · next hn =>
    rw [Option.some.injEq]
    constructor
    · rintro rfl
      exact ⟨by simpa using hn, Int.toNat_of_nonneg hn.1⟩
    · rintro ⟨-, hm⟩
      cases m
      simp only [Moment.mk.injEq] at hm ⊢
      omega
  · next hn =>
    refine iff_of_false nofun ?_
    rintro ⟨hin, -⟩
    exact hn (by simpa using hin)

theorem moment?_eq_some_iff {s : Stamp} {m : Moment} (h : InCalendar s.clock.micros) :
    s.moment? = some m ↔ InCalendar s.instant ∧ (m.micros : Int) = s.instant := by
  rw [moment?_eq_ofMicros? h, ofMicros?_eq_some_iff]

theorem moment?_eq_none_iff {s : Stamp} (h : InCalendar s.clock.micros) :
    s.moment? = none ↔ ¬ InCalendar s.instant := by
  rw [moment?_eq_ofMicros? h, Moment.ofMicros?]
  simp [InCalendar]

/-! ## Standard forms -/

/-- The stamps that have a standard form: a moment of the calendar, and no offset or one that is
    less than a day and, unless it is zero, not less than a second. -/
structure IsStandard (s : Stamp) : Prop where
  clock : InCalendar s.clock.micros
  ahead : ∀ a, s.ahead = some a →
    a.natAbs < microsPerDay ∧ (a = 0 ∨ microsPerSecond ≤ a.natAbs)

/-- The time of day that an offset is written as. -/
def offsetTime (size : Nat) : TimeOfDay :=
  ⟨size / microsPerSecond / 3600, size / microsPerSecond / 60 % 60, size / microsPerSecond % 60,
    size % microsPerSecond⟩

theorem micros_offsetTime (size : Nat) : (offsetTime size).micros = size := by
  simp only [offsetTime, TimeOfDay.micros, microsPerSecond]
  omega

/-- Hours and minutes alone are a time of day without seconds. -/
theorem parseClock_minutes {hour minute : Nat} (hhour : hour < 100) (hminute : minute < 100) :
    parseClock (padded 2 hour ++ ':' :: padded 2 minute) = some ⟨⟨hour, minute, 0, 0⟩, true⟩ := by
  have hlast : parseFields 2 (some true) [hour] (padded 2 minute) =
      some ([hour, minute], 0, true) := by
    have htake : takeNumber 2 (padded 2 minute ++ []) = _ :=
      takeNumber_padded (by decide) hminute []
    rw [List.append_nil] at htake
    rw [parseFields, htake]
    rfl
  rw [parseClock, parseFields_two hhour none rfl [] (padded_ne_nil 2 minute), List.nil_append,
    hlast]
  rfl

/-- The text of an offset without its sign. -/
def offsetClock (size : Nat) : List Char :=
  let t := offsetTime size
  padded 2 t.hour ++ ':' :: padded 2 t.minute ++
    (if t.second = 0 ∧ t.micro = 0 then []
      else ':' :: padded 2 t.second ++ if t.micro = 0 then [] else '.' :: padded 6 t.micro)

theorem offsetText_eq (ahead : Int) :
    offsetText ahead = (if ahead < 0 then '-' else '+') :: offsetClock ahead.natAbs := by
  simp only [offsetText, offsetClock, offsetTime, List.cons_append]
  by_cases hfine : ahead.natAbs % microsPerSecond = 0
  · by_cases hseconds : ahead.natAbs / microsPerSecond % 60 = 0 <;> simp [hfine, hseconds]
  · simp [hfine]

theorem parseClock_offsetClock {size : Nat} (h : size < microsPerDay) :
    parseClock (offsetClock size) = some ⟨offsetTime size, true⟩ := by
  have hvalid : (offsetTime size).isValid = true := by
    rw [TimeOfDay.isValid_iff]
    unfold microsPerDay at h
    simp only [offsetTime, microsPerSecond]
    omega
  obtain ⟨hhour, hminute, -, -⟩ := TimeOfDay.isValid_iff.mp hvalid
  rw [offsetClock]
  split
  · next hnone =>
    obtain ⟨hsecond, hmicro⟩ := hnone
    have htime : offsetTime size = ⟨(offsetTime size).hour, (offsetTime size).minute, 0, 0⟩ := by
      calc offsetTime size
          = ⟨(offsetTime size).hour, (offsetTime size).minute, (offsetTime size).second,
              (offsetTime size).micro⟩ := rfl
        _ = _ := by rw [hsecond, hmicro]
    rw [List.append_nil, parseClock_minutes (by omega) (by omega), ← htime]
  · have hclock := parseClock_timeText hvalid
    rw [timeText] at hclock
    simpa using hclock

theorem mem_offsetClock {size : Nat} {c : Char} (h : c ∈ offsetClock size) :
    Decimal.isBasicDigit c = true ∨ c = ':' ∨ c = '.' := by
  rw [offsetClock] at h
  split at h
  · rw [List.append_nil, List.mem_append, List.mem_cons] at h
    rcases h with hhour | rfl | hminute
    · exact .inl (isBasicDigit_of_mem_padded hhour)
    · exact .inr (.inl rfl)
    · exact .inl (isBasicDigit_of_mem_padded hminute)
  · apply mem_timeText (t := offsetTime size)
    rw [timeText]
    simpa using h

theorem isTail_offsetText (ahead : Int) : IsTail (offsetText ahead) := by
  rw [offsetText_eq]
  constructor
  · intro c hc
    cases hc
    split_ifs <;> rfl
  · intro c hc
    rcases List.mem_cons.mp hc with rfl | hclock
    · split_ifs <;> decide
    · rcases mem_offsetClock hclock with hdigit | rfl | rfl
      · have hlast := (Decimal.isBasicDigit_iff.mp hdigit).2
        omega
      · decide
      · decide

theorem parseOffset_signed {sign : Char} (hsign : sign = '+' ∨ sign = '-') {rest : List Char}
    {t : TimeOfDay} (hclock : parseClock rest = some ⟨t, true⟩) (hday : t.micros < microsPerDay) :
    parseOffset (sign :: rest) =
      some (if t.micros < 1000000 then 0
        else if sign = '-' then -(t.micros : Int) else t.micros) := by
  rw [parseOffset]
  · rw [if_pos hsign, hclock]
    dsimp only
    rw [if_pos hday]
  · rintro rfl
    rcases hsign with h | h <;> exact absurd h (by decide)

theorem parseOffset_offsetText {ahead : Int} (hday : ahead.natAbs < microsPerDay)
    (hsecond : ahead = 0 ∨ microsPerSecond ≤ ahead.natAbs) :
    parseOffset (offsetText ahead) = some ahead := by
  have hclock := parseClock_offsetClock hday
  have hmicros := micros_offsetTime ahead.natAbs
  unfold microsPerSecond at hsecond
  have hsign : (if ahead < 0 then '-' else '+') = '+' ∨ (if ahead < 0 then '-' else '+') = '-' := by
    split_ifs
    · exact .inr rfl
    · exact .inl rfl
  rw [offsetText_eq, parseOffset_signed hsign hclock (by rwa [hmicros]), hmicros, Option.some.injEq]
  by_cases hnegative : ahead < 0
  · rw [if_neg (by omega), if_pos hnegative, if_pos rfl]
    omega
  · rw [if_neg hnegative, if_neg (show ('+' : Char) ≠ '-' by decide)]
    split_ifs <;> omega

/-- A stamp is read back from its standard form. -/
theorem parse?_standard {s : Stamp} (h : s.IsStandard) : parse? s.isoText = some s := by
  obtain ⟨clock, ahead?⟩ := s
  have hclock : clock.micros < dayLimit * microsPerDay := Int.ofNat_lt.mp h.clock.2
  rw [isoText]
  cases ahead? with
  | none =>
    dsimp only
    rw [List.append_nil, parse?_isoText hclock]
  | some ahead =>
    obtain ⟨hday, hsecond⟩ := h.ahead ahead rfl
    have hne : offsetText ahead ≠ [] := by
      rw [offsetText_eq]
      exact List.cons_ne_nil _ _
    dsimp only
    rw [parse?_isoText_append hclock (isTail_offsetText ahead), if_neg hne,
      parseOffset_offsetText hday hsecond]
    rfl

/-! ## What is read -/

theorem natAbs_of_parseOffset {s : List Char} {a : Int} (h : parseOffset s = some a) :
    a.natAbs < microsPerDay := by
  unfold parseOffset at h
  split at h
  · split at h
    · cases h
      decide
    · cases h
  · split at h
    · split at h
      · next t _ =>
        split at h
        · next hday =>
          cases h
          split_ifs <;> omega
        · cases h
      · cases h
    · cases h
  · cases h

/-- What is read is a moment of the calendar, and its offset is less than a day. -/
theorem bounds_of_parse? {s : List Char} {stamp : Stamp} (h : parse? s = some stamp) :
    InCalendar stamp.clock.micros ∧ ∀ a, stamp.ahead = some a → a.natAbs < microsPerDay := by
  simp only [parse?, Option.bind_eq_bind, Option.bind_eq_some_iff] at h
  obtain ⟨whole, -, places, -, date, -, h⟩ := h
  -- A text without an offset is bounded by its clock alone.
  have hlocal {m : Moment} (hm : InCalendar m.micros) :
      InCalendar m.micros ∧ ∀ a, (none : Option Int) = some a → a.natAbs < microsPerDay :=
    ⟨hm, fun a ha => by cases ha⟩
  split at h
  · obtain ⟨m, hm, h⟩ := Option.bind_eq_some_iff.mp h
    cases h
    exact hlocal (inCalendar_of_ofFields? hm)
  · obtain ⟨clock, -, h⟩ := Option.bind_eq_some_iff.mp h
    split at h
    · split at h
      · obtain ⟨m, hm, h⟩ := Option.bind_eq_some_iff.mp h
        cases h
        exact hlocal (inCalendar_of_ofFields? hm)
      · cases h
    · obtain ⟨m, hm, h⟩ := Option.bind_eq_some_iff.mp h
      obtain ⟨a, ha, h⟩ := Option.bind_eq_some_iff.mp h
      cases h
      refine ⟨inCalendar_of_ofFields? hm, fun b hb => ?_⟩
      cases hb
      exact natAbs_of_parseOffset ha

end Stamp

end Cambio
