import Cambio.Proofs.Decimal.Numeral

/-!
# Scientific notation

A numeral may have a power of ten after it. Scientific notation is such a text, or a numeral alone,
and it keeps all digits and the exponent, so it is read back as the decimal that was written.

## Main statements

- `Decimal.parse_text_powerText` — a numeral with a power of ten
- `Decimal.parse_scientific` — scientific notation is read back
- `Decimal.isHeld_iff` — the finite decimals that there are
-/

namespace Cambio.Decimal

/-! ## Powers of ten -/

theorem parseExponent_powerText (power : Int) : parseExponent (powerText power) = some power := by
  have hdigits : digits power.natAbs ≠ [] ∧ (digits power.natAbs).all isBasicDigit = true :=
    ⟨digits_ne_nil _, List.all_eq_true.mpr fun c hc => isBasicDigit_of_mem_digits hc⟩
  have hvalue := digitsValue_digits power.natAbs
  unfold powerText parseExponent
  dsimp only
  rw [if_pos (.inr rfl)]
  by_cases hpower : power < 0
  · rw [if_pos hpower]
    simp only [splitSign]
    rw [if_pos hdigits, hvalue, if_pos trivial]
    congr 1
    omega
  · rw [if_neg hpower]
    simp only [splitSign]
    rw [if_pos hdigits, hvalue, if_neg Bool.false_ne_true]
    congr 1
    omega

theorem stays_of_mem_powerText {power : Int} {c : Char} (h : c ∈ powerText power) : Stays c := by
  have hletter : Stays 'E' := ⟨by decide, by decide, by decide⟩
  have hsign : Stays (if power < 0 then '-' else '+') := by
    split
    · exact ⟨by decide, by decide, by decide⟩
    · exact ⟨by decide, by decide, by decide⟩
  rcases List.mem_cons.mp h with rfl | h
  · exact hletter
  · rcases List.mem_cons.mp h with rfl | h
    · exact hsign
    · exact IsPlain.stays (.inl (isBasicDigit_of_mem_digits h))

namespace Numeral

variable (n : Numeral) {rest : List Char}

theorem body_ne_nil (h : n.digits ≠ []) : n.body ≠ [] := by
  intro hbody
  cases hfraction : n.fraction with
  | none =>
    rw [n.body_eq_of_none hfraction] at hbody
    exact h (by rw [digits, hbody, hfraction]; rfl)
  | some ds =>
    rw [n.body_eq_of_some hfraction] at hbody
    simp at hbody

theorem splitSign_text_append (h : n.digits ≠ []) (rest : List Char) :
    splitSign (n.text ++ rest) = (n.negative, n.body ++ rest) := by
  rw [text]
  cases hnegative : n.negative with
  | true => rfl
  | false =>
    -- the body starts with a digit or with the point, so no sign comes first
    obtain ⟨c, more, hbody⟩ := List.exists_cons_of_ne_nil (n.body_ne_nil h)
    have hc := n.digit_or_point_of_mem_body (hbody ▸ List.mem_cons_self)
    rw [hbody]
    change splitSign (c :: (more ++ rest)) = _
    unfold splitSign
    split
    · next heq =>
      cases heq
      rcases hc with hc | hc <;> exact absurd hc (by decide)
    · next heq =>
      cases heq
      rcases hc with hc | hc <;> exact absurd hc (by decide)
    · rfl

/-- What follows a numeral is its power of ten, if it starts with neither a digit nor a point. -/
theorem parseMagnitude_body_append (h : n.digits ≠ [])
    (hdigit : ∀ c, rest.head? = some c → isBasicDigit c = false) (hpoint : rest.head? ≠ some '.') :
    parseMagnitude (n.body ++ rest) =
      (parseExponent rest).map fun e : Int => (digitsValue 0 n.digits, e - n.places) := by
  cases hfraction : n.fraction with
  | none =>
    have hsplit := takeWhile_digits rest (fun c => n.isBasicDigit_of_mem_whole (c := c)) hdigit
    have hwhole : n.whole ≠ [] := by simpa [digits, hfraction] using h
    unfold parseMagnitude
    rw [n.body_eq_of_none hfraction]
    dsimp only
    rw [hsplit.1, hsplit.2]
    split
    · exact absurd rfl hpoint
    · rw [if_neg fun hnil => hwhole hnil.1]
      simp [digits, places, hfraction, digitsValue]
  | some ds =>
    have hwhole := takeWhile_digits ('.' :: (ds ++ rest))
      (fun c => n.isBasicDigit_of_mem_whole (c := c)) (by simp; decide)
    have hds := takeWhile_digits rest
      (fun c => n.isBasicDigit_of_mem_fraction hfraction (c := c)) hdigit
    have hnone : ¬ (n.whole = [] ∧ ds = []) := by
      rintro ⟨hwhole, hds⟩
      exact h (by rw [digits, hwhole, hfraction, hds]; rfl)
    simp only [parseMagnitude, n.body_eq_of_some hfraction, List.append_assoc, List.cons_append,
      hwhole, hds, digits, places, hfraction, Option.getD_some, digitsValue_append]
    rw [if_neg hnone]

/-- A numeral with a power of ten. -/
theorem parse_text_powerText (h : n.digits ≠ []) (power : Int) :
    parse (n.text ++ powerText power) =
      bounded n.negative (digitsValue 0 n.digits) (power - n.places) := by
  have hplain : plainText (n.text ++ powerText power) = some (n.text ++ powerText power) := by
    refine plainText_of_stays fun c hc => ?_
    rcases List.mem_append.mp hc with htext | hpower
    · exact (n.isPlain_of_mem_text htext).stays
    · exact stays_of_mem_powerText hpower
  have hdigit : ∀ c, (powerText power).head? = some c → isBasicDigit c = false := by
    intro c hc
    cases hc
    decide
  have hmagnitude := n.parseMagnitude_body_append h hdigit (by simp [powerText])
  rw [parseExponent_powerText] at hmagnitude
  rw [parse, hplain]
  dsimp only
  rw [n.splitSign_text_append h]
  dsimp only
  rw [hmagnitude]
  rfl

end Numeral

/-! ## Reading back -/

/-- Digits with a point after the first of them. -/
def leadingNumeral (negative : Bool) (c : Nat) : Numeral where
  negative := negative
  whole := (digits c).take 1
  fraction := if (digits c).length = 1 then none else some ((digits c).drop 1)
  isBasicDigit_of_mem := by
    intro x hx
    refine isBasicDigit_of_mem_digits (n := c) ?_
    split at hx
    · exact List.mem_of_mem_take (by simpa using hx)
    · rwa [Option.getD_some, List.take_append_drop] at hx

theorem leadingNumeral_digits (negative : Bool) (c : Nat) :
    (leadingNumeral negative c).digits = digits c := by
  unfold Numeral.digits leadingNumeral
  dsimp only
  split
  · next hone => rw [Option.getD_none, List.append_nil, List.take_of_length_le hone.le]
  · rw [Option.getD_some, List.take_append_drop]

theorem leadingNumeral_places (negative : Bool) (c : Nat) :
    (leadingNumeral negative c).places = digitCount c - 1 := by
  unfold Numeral.places leadingNumeral digitCount
  dsimp only
  split
  · next hone => rw [hone]; rfl
  · rw [Option.getD_some, List.length_drop]

theorem body_leadingNumeral (negative : Bool) {c : Nat} {first : Char} {more : List Char}
    (h : digits c = first :: more) :
    (leadingNumeral negative c).body = if more = [] then [first] else first :: '.' :: more := by
  unfold Numeral.body leadingNumeral
  dsimp only
  rw [h]
  cases more <;> rfl

/-- Where the point is too far off, the power of ten is written. -/
theorem scientific_of_far (negative : Bool) {c : Nat} {e : Int}
    (h : ¬ (e ≤ 0 ∧ -6 ≤ adjusted c e)) :
    scientific (.finite negative c e) =
      (leadingNumeral negative c).text ++ powerText (adjusted c e) := by
  rw [scientific, if_neg h, Numeral.text, List.append_assoc]
  change _ = signText negative ++ _
  congr 2
  obtain ⟨first, more, hdigits⟩ := List.exists_cons_of_ne_nil (digits_ne_nil c)
  rw [body_leadingNumeral negative hdigits, hdigits]
  cases more <;> rfl

/-- **Scientific notation is read back**: with the same digits and the same exponent. -/
theorem parse_scientific {d : Decimal} (h : d.IsHeld) : parse d.scientific = .ok d := by
  obtain ⟨negative, c, e, rfl⟩ := eq_finite_of_isFinite (isFinite_of_isHeld h)
  by_cases hpositional : e ≤ 0 ∧ -6 ≤ adjusted c e
  · obtain ⟨n, htext, hnegative, hwhole, hvalue, hplaces⟩ :=
      exists_numeral_placePoint negative (-e).toNat (digits_ne_nil c)
        fun x hx => isBasicDigit_of_mem_digits hx
    have hdigits : n.digits ≠ [] := List.append_ne_nil_of_left_ne_nil hwhole _
    have hexponent : -((-e).toNat : Int) = e := by omega
    rw [scientific, if_pos hpositional, ← htext, n.parse_text, Numeral.read, if_neg hdigits,
      hnegative, hvalue, digitsValue_digits, hplaces, hexponent, bounded_eq_ok_iff]
    exact ⟨rfl, h⟩
  · have hdigits : (leadingNumeral negative c).digits ≠ [] := by
      rw [leadingNumeral_digits]
      exact digits_ne_nil c
    have hexponent : adjusted c e - ((digitCount c - 1 : Nat) : Int) = e := by
      have hpos := digitCount_pos c
      rw [adjusted]
      omega
    rw [scientific_of_far negative hpositional, Numeral.parse_text_powerText _ hdigits,
      leadingNumeral_digits, leadingNumeral_places, digitsValue_digits, hexponent,
      bounded_eq_ok_iff]
    exact ⟨rfl, h⟩

/-- The finite decimals in range are those that can be read: they are read from scientific
    notation. -/
theorem isHeld_iff {d : Decimal} : d.IsHeld ↔ d.isFinite = true ∧ ∃ s, parse s = .ok d :=
  ⟨fun h => ⟨isFinite_of_isHeld h, d.scientific, parse_scientific h⟩,
    fun ⟨hfinite, _, hparse⟩ => isHeld_of_parse hparse hfinite⟩

end Cambio.Decimal
