import Cambio.Calendar.Iso
import Cambio.Proofs.Calendar.Moment
import Cambio.Proofs.Decimal.Numeral
import Mathlib.Data.List.TakeWhile

/-!
# Moments in their standard form, read back

## Main statements

- `Stamp.takeNumber_padded` — a number with leading zeros
- `Stamp.parseDate_dateText`, `Stamp.parseClock_timeText` — a date and a time of day
- `Stamp.parse?_isoText_append`, `Stamp.parse?_isoText` — a moment
-/

namespace Cambio

namespace Moment

variable {width n : Nat} {c : Char}

/-! ## Numbers with leading zeros -/

theorem length_padded (hwidth : 0 < width) (h : n < 10 ^ width) :
    (padded width n).length = width := by
  have hdigits : (Decimal.digits n).length ≤ width := (Decimal.digitCount_le_iff hwidth).mpr h
  rw [padded, List.length_append, List.length_replicate]
  omega

theorem isBasicDigit_of_mem_padded (h : c ∈ padded width n) : Decimal.isBasicDigit c = true := by
  rcases List.mem_append.mp h with hzero | hdigit
  · rw [List.eq_of_mem_replicate hzero]
    decide
  · exact Decimal.isBasicDigit_of_mem_digits hdigit

theorem digitsValue_padded (width n : Nat) : Decimal.digitsValue 0 (padded width n) = n := by
  rw [padded, Decimal.digitsValue_append, Decimal.digitsValue_replicate, Nat.zero_mul,
    Decimal.digitsValue_digits]

end Moment

namespace Stamp

open Moment

variable {width n : Nat}

theorem takeNumber_padded (hwidth : 0 < width) (h : n < 10 ^ width) (s : List Char) :
    takeNumber width (padded width n ++ s) = some (n, s) := by
  have hlength := length_padded hwidth h
  have htake : (padded width n ++ s).take width = padded width n := List.take_left' hlength
  have hdrop : (padded width n ++ s).drop width = s := List.drop_left' hlength
  have hdigits : (padded width n).all Decimal.isBasicDigit = true :=
    List.all_eq_true.mpr fun c hc => isBasicDigit_of_mem_padded hc
  rw [takeNumber, htake, hdrop, if_pos ⟨hlength, hdigits⟩, digitsValue_padded]

theorem exists_padded_two (h : n < 100) :
    ∃ a b, padded 2 n = [a, b] ∧ Decimal.isBasicDigit a = true := by
  obtain ⟨a, b, hab⟩ := List.length_eq_two.mp (length_padded (by decide) h)
  exact ⟨a, b, hab, isBasicDigit_of_mem_padded (by rw [hab]; exact List.mem_cons_self)⟩

theorem padded_ne_nil (width n : Nat) : padded width n ≠ [] :=
  List.append_ne_nil_of_right_ne_nil _ (Decimal.digits_ne_nil n)

/-! ## Dates -/

theorem length_dateText {d : Date} (hyear : d.year < 10000) (hmonth : d.month < 100)
    (hday : d.day < 100) : (dateText d).length = 10 := by
  have hfour : (padded 4 d.year).length = 4 := length_padded (by decide) hyear
  have hmonth' : (padded 2 d.month).length = 2 := length_padded (by decide) hmonth
  have hday' : (padded 2 d.day).length = 2 := length_padded (by decide) hday
  rw [dateText, List.length_append, List.length_append, List.length_cons, List.length_cons, hfour,
    hmonth', hday']

theorem datePlaces_dateText {d : Date} (hyear : d.year < 10000) (hmonth : d.month < 100)
    (hday : d.day < 100) (c : Char) (s : List Char) :
    datePlaces (dateText d ++ c :: s) = some 10 := by
  obtain ⟨m, n, hmn, hm⟩ := exists_padded_two hmonth
  have hweek : m ≠ 'W' := by
    rintro rfl
    exact absurd hm (by decide)
  have hfour : (padded 4 d.year).length = 4 := length_padded (by decide) hyear
  have hhyphen : (dateText d ++ c :: s)[4]? = some '-' := by
    rw [dateText, List.append_assoc, List.append_assoc, List.getElem?_append_right (by omega),
      hfour]
    rfl
  have hmonth' : (dateText d ++ c :: s)[5]? = some m := by
    rw [dateText, hmn, List.append_assoc, List.append_assoc, List.getElem?_append_right (by omega),
      hfour]
    rfl
  have hlength : 10 < (dateText d ++ c :: s).length := by
    rw [List.length_append, length_dateText hyear hmonth hday, List.length_cons]
    omega
  rw [datePlaces]
  dsimp only
  rw [if_neg (by omega), if_neg (by omega), if_pos hhyphen, if_neg]
  intro h
  exact hweek (Option.some.inj (hmonth'.symm.trans h))

theorem parseDate_dateText {d : Date} (hyear : d.year < 10000) (hmonth : d.month < 100)
    (hday : d.day < 100) (places : Nat) (s : List Char) :
    parseDate places (dateText d ++ s) = some d := by
  obtain ⟨m, n, hmn, hm⟩ := exists_padded_two hmonth
  have hmonth' : takeNumber 2 (padded 2 d.month ++ '-' :: (padded 2 d.day ++ s)) = _ :=
    takeNumber_padded (by decide) hmonth _
  have hday' : takeNumber 2 (padded 2 d.day ++ s) = _ := takeNumber_padded (by decide) hday s
  rw [hmn] at hmonth'
  have htext : dateText d ++ s =
      padded 4 d.year ++ '-' :: ([m, n] ++ '-' :: (padded 2 d.day ++ s)) := by
    rw [dateText, hmn]
    simp
  rw [htext, parseDate, takeNumber_padded (by decide) hyear]
  simp only [Option.bind_eq_bind, Option.bind_some, List.head?_cons, if_true, List.drop_succ_cons,
    List.drop_zero]
  split
  · next hweek =>
    -- A digit is no week mark.
    rw [(List.cons.inj hweek).1] at hm
    cases hm
  · rw [hmonth']
    simp only [Option.bind_some, List.head?_cons, if_true, List.drop_succ_cons, List.drop_zero,
      hday']

/-! ## Times of day -/

theorem parseFields_two {fields : Nat} (hn : n < 100) (colons : Option Bool)
    (hcolons : colons.getD true = true) (read : List Nat) {s : List Char} (hs : s ≠ []) :
    parseFields (fields + 1) colons read (padded 2 n ++ ':' :: s) =
      parseFields fields (some true) (read ++ [n]) s := by
  obtain ⟨c, more, rfl⟩ := List.exists_cons_of_ne_nil hs
  rw [parseFields, takeNumber_padded (by decide) hn]
  simp [hcolons]

/-- The seconds end the text, or a fraction of six digits follows them. -/
theorem parseFields_seconds {seconds micro : Nat} (hseconds : seconds < 100)
    (hmicro : micro < 1000000) (read : List Nat) :
    parseFields 1 (some true) read
        (padded 2 seconds ++ if micro = 0 then [] else '.' :: padded 6 micro) =
      some (read ++ [seconds], micro, true) := by
  rw [parseFields, takeNumber_padded (by decide) hseconds]
  by_cases hzero : micro = 0
  · rw [if_pos hzero, hzero]
  · have hsix : (padded 6 micro).length = 6 := length_padded (by decide) hmicro
    have htake : takeNumber 6 (padded 6 micro ++ []) = _ := takeNumber_padded (by decide) hmicro []
    rw [List.append_nil] at htake
    have hfraction : parseFraction (padded 6 micro) = some (micro, true) := by
      rw [parseFraction, hsix]
      simp [htake, isOver]
    obtain ⟨c, more, hcons⟩ : ∃ c more, padded 6 micro = c :: more :=
      List.exists_cons_of_length_pos (by omega)
    rw [if_neg hzero, hcons]
    rw [hcons] at hfraction
    simp [parseFields, hfraction]

theorem parseClock_timeText {t : TimeOfDay} (h : t.isValid = true) :
    parseClock (timeText t) = some ⟨t, true⟩ := by
  obtain ⟨hhour, hminute, hsecond, hmicro⟩ := TimeOfDay.isValid_iff.mp h
  have hthree : parseFields 3 none [] (timeText t) =
      some ([t.hour, t.minute, t.second], t.micro, true) := by
    rw [timeText, List.append_assoc, List.append_assoc, List.cons_append, List.cons_append,
      parseFields_two (by omega) none rfl [] (by simp),
      parseFields_two (by omega) (some true) rfl _ (by simp [padded_ne_nil]),
      parseFields_seconds (by omega) hmicro]
    rfl
  rw [parseClock, hthree]
  rfl

theorem mem_dateText {d : Date} {c : Char} (h : c ∈ dateText d) :
    Decimal.isBasicDigit c = true ∨ c = '-' := by
  rw [dateText, List.mem_append, List.mem_append, List.mem_cons, List.mem_cons] at h
  rcases h with (hyear | rfl | hmonth) | rfl | hday
  · exact .inl (isBasicDigit_of_mem_padded hyear)
  · exact .inr rfl
  · exact .inl (isBasicDigit_of_mem_padded hmonth)
  · exact .inr rfl
  · exact .inl (isBasicDigit_of_mem_padded hday)

theorem mem_timeText {t : TimeOfDay} {c : Char} (h : c ∈ timeText t) :
    Decimal.isBasicDigit c = true ∨ c = ':' ∨ c = '.' := by
  rw [timeText, List.mem_append, List.mem_append, List.mem_append, List.mem_cons, List.mem_cons]
    at h
  rcases h with ((hhour | rfl | hminute) | rfl | hsecond) | hfraction
  · exact .inl (isBasicDigit_of_mem_padded hhour)
  · exact .inr (.inl rfl)
  · exact .inl (isBasicDigit_of_mem_padded hminute)
  · exact .inr (.inl rfl)
  · exact .inl (isBasicDigit_of_mem_padded hsecond)
  · split_ifs at hfraction
    · cases hfraction
    · rcases List.mem_cons.mp hfraction with rfl | hmicro
      · exact .inr (.inr rfl)
      · exact .inl (isBasicDigit_of_mem_padded hmicro)

theorem startsOffset_of_mem_timeText {t : TimeOfDay} {c : Char} (h : c ∈ timeText t) :
    startsOffset c = false := by
  rcases mem_timeText h with hdigit | rfl | rfl
  · simp only [startsOffset, Bool.or_eq_false_iff, decide_eq_false_iff_not]
    refine ⟨⟨?_, ?_⟩, ?_⟩
    all_goals
      rintro rfl
      exact absurd hdigit (by decide)
  · rfl
  · rfl

theorem toNat_lt_of_mem_isoText {m : Moment} {c : Char} (h : c ∈ m.isoText) : c.toNat < 0x80 := by
  have hdigit (hc : Decimal.isBasicDigit c = true) : c.toNat < 0x80 := by
    obtain ⟨-, hlast⟩ := Decimal.isBasicDigit_iff.mp hc
    omega
  rw [Moment.isoText, separatedText, List.mem_append, List.mem_cons] at h
  rcases h with hdate | rfl | htime
  · rcases mem_dateText hdate with hc | rfl
    · exact hdigit hc
    · decide
  · decide
  · rcases mem_timeText htime with hc | rfl | rfl
    · exact hdigit hc
    · decide
    · decide

/-! ## Moments -/

/-- A text without halves of pairs is read as it stands. -/
theorem whole?_of_forall {s : List Char} (h : ∀ c ∈ s, c.toNat < Text.halfDistance) :
    whole? s = some s := by
  have hhalf : ∀ c ∈ s, (Text.half? c).isSome = false := by
    intro c hc
    rw [Text.half?, if_neg]
    · rfl
    · have hlt := h c hc
      omega
  have hplaces : dateEnds.find? (fun place => s[place]?.any fun c => (Text.half? c).isSome) =
      none := by
    rw [List.find?_eq_none]
    intro place _
    cases hc : s[place]? with
    | none => simp
    | some c => simp [hhalf c (List.mem_of_getElem? hc)]
  rw [whole?, hplaces]
  exact if_neg (by simpa using hhalf)

/-- What follows a moment in its standard form: nothing, or what starts an offset. -/
def IsTail (tail : List Char) : Prop :=
  (∀ c ∈ tail.head?, startsOffset c = true) ∧ ∀ c ∈ tail, c.toNat < 0x80

theorem takeWhile_timeText_append {tail : List Char} (h : IsTail tail) (t : TimeOfDay) :
    (timeText t ++ tail).takeWhile (!startsOffset ·) = timeText t ∧
      (timeText t ++ tail).dropWhile (!startsOffset ·) = tail := by
  have hclock : ∀ c ∈ timeText t, (!startsOffset c) = true := by
    intro c hc
    rw [startsOffset_of_mem_timeText hc]
    rfl
  rw [List.takeWhile_append_of_pos hclock, List.dropWhile_append_of_pos hclock]
  cases tail with
  | nil => simp
  | cons c rest =>
    have hc := h.1 c rfl
    simp [hc]

/-- A moment of the years one to 9999 is read back from its standard form, and what follows it is
    read as its offset. -/
theorem parse?_isoText_append {m : Moment} (h : m.micros < dayLimit * microsPerDay)
    {tail : List Char} (htail : IsTail tail) :
    parse? (m.isoText ++ tail) =
      if tail = [] then some ⟨m, none⟩ else (parseOffset tail).map fun a => ⟨m, some a⟩ := by
  have hday : m.micros / microsPerDay < dayLimit :=
    Nat.div_lt_of_lt_mul (by rwa [Nat.mul_comm])
  obtain ⟨hvalid, -⟩ : m.fields.1.isValid = true ∧ _ := Date.ofDayNumber_spec hday
  obtain ⟨-, hyear, -, hmonth, -, hlast⟩ := Date.isValid_iff.mp hvalid
  have hlength := Date.monthLength_le m.fields.1.year m.fields.1.month
  have hplaces := datePlaces_dateText (d := m.fields.1) (by omega) (by omega) (by omega) 'T'
    (timeText m.fields.2 ++ tail)
  have hdate := parseDate_dateText (d := m.fields.1) (by omega) (by omega) (by omega) 10
    ('T' :: (timeText m.fields.2 ++ tail))
  have hdrop : (dateText m.fields.1 ++ 'T' :: (timeText m.fields.2 ++ tail)).drop 10 =
      'T' :: (timeText m.fields.2 ++ tail) :=
    List.drop_left' (length_dateText (by omega) (by omega) (by omega))
  have hwhole : whole? (m.isoText ++ tail) = some (m.isoText ++ tail) := by
    apply whole?_of_forall
    intro c hc
    have hlt : c.toNat < 0x80 :=
      (List.mem_append.mp hc).elim toNat_lt_of_mem_isoText (htail.2 c)
    unfold Text.halfDistance
    omega
  have htext : m.isoText ++ tail =
      dateText m.fields.1 ++ 'T' :: (timeText m.fields.2 ++ tail) := by
    rw [Moment.isoText, separatedText, List.append_assoc, List.cons_append]
  obtain ⟨htake, hrest⟩ := takeWhile_timeText_append htail m.fields.2
  rw [parse?, hwhole, htext]
  simp only [Option.bind_eq_bind, Option.bind_some]
  rw [hplaces, Option.bind_some, hdate, Option.bind_some, hdrop]
  dsimp only
  rw [htake, hrest, parseClock_timeText (isValid_fields m), Option.bind_some]
  dsimp only
  rw [ofFields?_fields h]
  cases tail with
  | nil => rfl
  | cons c rest =>
    dsimp only
    rw [if_neg (List.cons_ne_nil c rest)]
    cases parseOffset (c :: rest) <;> rfl

theorem parse?_isoText {m : Moment} (h : m.micros < dayLimit * microsPerDay) :
    parse? m.isoText = some ⟨m, none⟩ := by
  have htail : IsTail [] := ⟨nofun, nofun⟩
  have hparse := parse?_isoText_append h htail
  rwa [List.append_nil, if_pos rfl] at hparse

end Stamp

end Cambio
