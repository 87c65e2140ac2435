import Cambio.Json.Reader
import Cambio.Json.Writer
import Cambio.Proofs.Binary64.Notation
import Cambio.Proofs.Decimal.Figure

/-!
# Scalars of a document, read back

What is written for a number is a numeral, perhaps with a power of ten, and a reader takes its parts
one after the other. A whole number has neither point nor power; any other one comes back as the
number that its notation denotes. The constants are words of their own.

## Main definitions

- `Json.EndsNumber` — what may follow a number
- `Json.powerOf` — the power of ten that a notation writes

## Main statements

- `Json.readNumber_numeral`, `Json.readNumber_notated` — numerals as they are read
- `Json.readScalar_whole`, `Json.readScalar_binary` — numbers, read back
- `Json.readScalar_null`, `Json.readScalar_bool` — constants, read back
-/

namespace Cambio.Json

open Decimal (Numeral Power Sign isBasicDigit digitsValue digits signText)
open Decimal.Numeral (takeWhile_digits)

variable {n : Numeral} {style : Binary64.Style} {ds s after rest : List Char} {power : Option Int}

/-! ## The parts of a number -/

/-- What follows starts with nothing that a number could go on with. -/
def EndsNumber (rest : List Char) : Prop :=
  ∀ c, rest.head? = some c → isBasicDigit c = false ∧ c ≠ '.' ∧ c ≠ 'e' ∧ c ≠ 'E'

theorem EndsNumber.isBasicDigit (h : EndsNumber rest) (c : Char) (hc : rest.head? = some c) :
    Decimal.isBasicDigit c = false :=
  (h c hc).1

theorem EndsNumber.head?_ne_point (h : EndsNumber rest) : rest.head? ≠ some '.' :=
  fun hpoint => (h '.' hpoint).2.1 rfl

theorem takeWhole?_append (hnil : ds ≠ []) (hds : ∀ c ∈ ds, isBasicDigit c = true)
    (hzero : ds.head? = some '0' → ds = ['0'])
    (hrest : ∀ c, rest.head? = some c → isBasicDigit c = false) :
    takeWhole? (ds ++ rest) = some (ds, rest) := by
  unfold takeWhole?
  split
  · next more heq =>
    obtain ⟨c, ds, rfl⟩ := List.exists_cons_of_ne_nil hnil
    cases heq
    cases hzero rfl
    rfl
  · obtain ⟨htake, hdrop⟩ := takeWhile_digits rest hds hrest
    rw [htake, hdrop]
    exact if_neg hnil

theorem takeFraction_append (hnil : ds ≠ []) (hds : ∀ c ∈ ds, isBasicDigit c = true)
    (hrest : ∀ c, rest.head? = some c → isBasicDigit c = false) :
    takeFraction ('.' :: (ds ++ rest)) = (ds, rest) := by
  obtain ⟨htake, hdrop⟩ := takeWhile_digits rest hds hrest
  change (if (ds ++ rest).takeWhile Decimal.isBasicDigit = [] then _ else _) = _
  rw [htake, hdrop, if_neg hnil]

theorem takeFraction_of_ne (h : rest.head? ≠ some '.') : takeFraction rest = ([], rest) := by
  unfold takeFraction
  split
  · exact absurd rfl h
  · rfl

theorem takePower_of_ends (h : EndsNumber rest) : takePower rest = (none, rest) := by
  cases rest with
  | nil => rfl
  | cons c more =>
    obtain ⟨-, -, hsmall, hcapital⟩ := h c rfl
    exact if_neg (not_or.mpr ⟨hsmall, hcapital⟩)

/-- A power of ten is taken with its sign. -/
theorem takePower_text (p : Power) (h : EndsNumber rest) :
    takePower (p.text ++ rest) = (some p.exponent, rest) := by
  obtain ⟨htake, hdrop⟩ := takeWhile_digits rest p.isBasicDigit_of_mem h.isBasicDigit
  rw [Power.text, List.cons_append, List.append_assoc, takePower]
  simp only [p.isLetter, if_true, p.splitSign_digits, htake, hdrop, if_neg p.digits_ne_nil,
    Decimal.digitsValue_eq]
  rfl

/-- A power of ten as it is written in a notation: perhaps a sign, and digits, perhaps after
    zeros. -/
def powerOf (style : Binary64.Style) (p : Int) : Power where
  letter := 'e'
  sign := if p < 0 then .minus else if style.plusSign then .plus else .absent
  digits := List.replicate (style.powerWidth - (digits p.natAbs).length) '0' ++ digits p.natAbs
  isLetter := .inl rfl
  digits_ne_nil := List.append_ne_nil_of_right_ne_nil _ (Decimal.digits_ne_nil _)
  isBasicDigit_of_mem c hc := by
    rcases List.mem_append.mp hc with hzero | hdigit
    · rw [List.eq_of_mem_replicate hzero]
      rfl
    · exact Decimal.isBasicDigit_of_mem_digits hdigit

theorem text_powerOf (style : Binary64.Style) (p : Int) :
    (powerOf style p).text = Binary64.powerText style p := by
  simp only [Binary64.powerText, Power.text, powerOf]
  by_cases hp : p < 0
  · simp [hp, Sign.text]
  · cases hplus : style.plusSign <;> simp [hp, Sign.text]

theorem isMinus_powerOf (style : Binary64.Style) (p : Int) :
    (powerOf style p).sign.isMinus = decide (p < 0) := by
  simp only [powerOf]
  by_cases hp : p < 0
  · simp [hp, Sign.isMinus]
  · cases style.plusSign <;> simp [hp, Sign.isMinus]

/-- A whole number is its absolute value with its sign. -/
theorem signed_natAbs (k : Int) :
    (if decide (k < 0) = true then -(k.natAbs : Int) else k.natAbs) = k := by
  by_cases hk : k < 0
  · rw [if_pos (decide_eq_true hk)]
    omega
  · rw [decide_eq_false hk, if_neg Bool.false_ne_true]
    omega

theorem exponent_powerOf (style : Binary64.Style) (p : Int) : (powerOf style p).exponent = p := by
  have hvalue : Nat.ofDigitChars 10 (powerOf style p).digits 0 = p.natAbs := by
    rw [← Decimal.digitsValue_eq, powerOf, Decimal.digitsValue_append,
      Decimal.digitsValue_replicate, Nat.zero_mul, Decimal.digitsValue_digits]
  rw [Power.exponent, hvalue, isMinus_powerOf, signed_natAbs]

theorem takePower_powerText (h : EndsNumber rest) (p : Int) :
    takePower (Binary64.powerText style p ++ rest) = (some p, rest) := by
  rw [← text_powerOf, takePower_text _ h, exponent_powerOf]

/-! ## Numbers -/

/-- The parts of a tidy numeral are taken one after the other. -/
theorem exists_parts (h : n.IsTidy) (hdigit : ∀ c, after.head? = some c → isBasicDigit c = false)
    (hpoint : after.head? ≠ some '.') :
    ∃ tail, takeWhole? (n.body ++ after) = some (n.whole, tail) ∧
      takeFraction tail = (n.fraction.getD [], after) := by
  have hwhole : ∀ c ∈ n.whole, isBasicDigit c = true := fun _ => n.isBasicDigit_of_mem_whole
  cases hfraction : n.fraction with
  | none =>
    refine ⟨after, ?_, takeFraction_of_ne hpoint⟩
    rw [n.body_eq_of_none hfraction, takeWhole?_append h.whole hwhole h.zero hdigit]
  | some ds =>
    have hnil : ds ≠ [] := fun hnil => h.fraction (hnil ▸ hfraction)
    have hds : ∀ c ∈ ds, isBasicDigit c = true := fun _ => n.isBasicDigit_of_mem_fraction hfraction
    have hafter : ∀ c, ('.' :: (ds ++ after)).head? = some c → isBasicDigit c = false := by
      intro c hc
      cases hc
      decide
    refine ⟨'.' :: (ds ++ after), ?_, takeFraction_append hnil hds hdigit⟩
    rw [n.body_eq_of_some hfraction, List.append_assoc, List.cons_append,
      takeWhole?_append h.whole hwhole h.zero hafter]

/-- A numeral starts with a digit, so without a sign no minus comes first. -/
theorem body_append_ne_minus (h : n.IsTidy) (after more : List Char) :
    n.body ++ after ≠ '-' :: more := by
  intro hminus
  obtain ⟨c, others, hbody⟩ := List.exists_cons_of_ne_nil (n.body_ne_nil h.digits_ne_nil)
  have hc := n.digit_or_point_of_mem_body (hbody ▸ List.mem_cons_self)
  rw [hbody, List.cons_append, List.cons.injEq] at hminus
  rw [hminus.1] at hc
  exact absurd hc (by decide)

/-- A tidy numeral is read by its digits: as a whole number, if it has neither a point nor a power
    of ten, and else as the rule asks. -/
theorem readNumber_text (rule : NumberRule) (h : n.IsTidy)
    (hdigit : ∀ c, after.head? = some c → isBasicDigit c = false)
    (hpoint : after.head? ≠ some '.') (hpower : takePower after = (power, rest)) :
    readNumber rule (n.text ++ after) =
      if n.fraction = none ∧ power = none then
        if digitLimit < n.whole.length then .error (.longNumber n.whole.length)
        else .ok (.whole (if n.negative then -(digitsValue 0 n.whole : Int)
          else digitsValue 0 n.whole), rest)
      else
        match rule with
        | .nearest => .ok (.binary (.ofPowerOfTen n.negative (digitsValue 0 n.digits)
            (power.getD 0 - n.places)), rest)
        | .exact =>
          match Decimal.bounded n.negative (digitsValue 0 n.digits) (power.getD 0 - n.places) with
          | .ok d => .ok (.decimal d, rest)
          | .error signal => .error (.wideNumber signal) := by
  obtain ⟨tail, hwhole, hfraction⟩ := exists_parts h hdigit hpoint
  have hnone : n.fraction.getD [] = [] ↔ n.fraction = none := by
    cases hds : n.fraction with
    | none => simp
    | some ds =>
      exact iff_of_false (fun hnil => h.fraction (hds.trans (congrArg some hnil)))
        (Option.some_ne_none ds)
  have hdigits :
      digitsValue (digitsValue 0 n.whole) (n.fraction.getD []) = digitsValue 0 n.digits :=
    (Decimal.digitsValue_append 0 _ _).symm
  rw [Numeral.text, List.append_assoc]
  cases hnegative : n.negative with
  | true =>
    change readNumber rule ('-' :: (n.body ++ after)) = _
    unfold readNumber
    simp only [hwhole, hfraction, hpower, hnone, hdigits]
    rfl
  | false =>
    change readNumber rule (n.body ++ after) = _
    have hsign := body_append_ne_minus h after
    unfold readNumber
    simp only [hwhole, hfraction, hpower, hnone, hdigits]
    rfl

/-- A whole number. -/
theorem readNumber_numeral (h : n.IsTidy) (hfraction : n.fraction = none)
    (hshort : n.whole.length ≤ digitLimit) (hrest : EndsNumber rest) :
    readNumber .nearest (n.text ++ rest) =
      .ok (.whole (if n.negative then -(digitsValue 0 n.whole : Int) else digitsValue 0 n.whole),
        rest) := by
  rw [readNumber_text .nearest h hrest.isBasicDigit hrest.head?_ne_point (takePower_of_ends hrest),
    if_pos ⟨hfraction, rfl⟩, if_neg (Nat.not_lt.mpr hshort)]

/-- A number in a notation comes back as the number that it denotes. -/
theorem readNumber_notated (n : Binary64.Notated style) (hrest : EndsNumber rest) :
    readNumber .nearest (n.text ++ rest) = .ok (.binary n.number, rest) := by
  obtain ⟨numeral, power, htidy, hmarked⟩ := n
  have hsome : ¬ (numeral.fraction = none ∧ power = none) :=
    fun hnone => hmarked.elim (· hnone.1) (· hnone.2)
  unfold Binary64.Notated.text Binary64.Notated.number Binary64.Notated.exponent
  dsimp only at hsome ⊢
  rw [List.append_assoc]
  cases power with
  | none =>
    rw [Option.elim_none, List.nil_append, readNumber_text .nearest htidy hrest.isBasicDigit
      hrest.head?_ne_point (takePower_of_ends hrest), if_neg hsome]
  | some p =>
    have hletter : (Binary64.powerText style p ++ rest).head? = some 'e' := rfl
    have hdigit (c : Char) (hc : (Binary64.powerText style p ++ rest).head? = some c) :
        isBasicDigit c = false := by
      cases hletter.symm.trans hc
      decide
    rw [Option.elim_some, readNumber_text .nearest htidy hdigit (by rw [hletter]; decide)
      (takePower_powerText hrest p), if_neg hsome]

/-! ## Scalars -/

/-- No constant starts with a digit, with a sign before it or without. -/
theorem find?_constants (hnil : ds ≠ []) (hds : ∀ c ∈ ds, isBasicDigit c = true) (negative : Bool)
    (rest : List Char) :
    constants.find? (fun (word, _) => word.isPrefixOf (signText negative ++ (ds ++ rest))) =
      none := by
  obtain ⟨c, more, rfl⟩ := List.exists_cons_of_ne_nil hnil
  have hc : isBasicDigit c = true := hds c List.mem_cons_self
  have hne (d : Char) (hd : isBasicDigit d = false) : (d == c) = false := by
    rw [beq_eq_false_iff_ne]
    rintro rfl
    rw [hc] at hd
    cases hd
  cases negative <;>
    simp [constants, signText, List.isPrefixOf, hne 'n' rfl, hne 't' rfl, hne 'f' rfl, hne 'N' rfl,
      hne 'I' rfl, hne '-' rfl]

theorem readScalar_text (h : n.IsTidy) (rule : NumberRule) (after : List Char) :
    readScalar rule (n.text ++ after) = readNumber rule (n.text ++ after) := by
  obtain ⟨tail, htail⟩ := n.exists_body
  have hnone := find?_constants h.whole (fun _ => n.isBasicDigit_of_mem_whole) n.negative
    (tail ++ after)
  rw [Numeral.text, htail, List.append_assoc, List.append_assoc, readScalar]
  simp only [hnone]

theorem toList_toString (k : Int) :
    (toString k).toList = signText (decide (k < 0)) ++ digits k.natAbs := by
  cases k with
  | ofNat k =>
    change (Nat.repr k).toList = _
    rw [Nat.toList_repr]
    simp [signText, digits]
  | negSucc k =>
    change ("-" ++ Nat.repr (k + 1)).toList = _
    rw [String.toList_append, Nat.toList_repr, decide_eq_true (Int.negSucc_lt_zero k)]
    rfl

theorem readScalar_whole {k : Int} (hshort : Decimal.digitCount k.natAbs ≤ digitLimit)
    (hrest : EndsNumber rest) :
    readScalar .nearest ((toString k).toList ++ rest) = .ok (.whole k, rest) := by
  have htidy := Decimal.isTidy_integer (decide (k < 0)) k.natAbs
  have htext : (toString k).toList = (Numeral.integer (decide (k < 0)) k.natAbs).text :=
    toList_toString k
  rw [htext, readScalar_text htidy, readNumber_numeral htidy rfl hshort hrest]
  change Except.ok (Json.whole (if decide (k < 0) = true then
    -(digitsValue 0 (digits k.natAbs) : Int) else digitsValue 0 (digits k.natAbs)), rest) = _
  rw [Decimal.digitsValue_digits, signed_natAbs]

theorem readScalar_binary {x : Binary64} (hx : x.IsNumber) (hrest : EndsNumber rest) :
    readScalar .nearest (x.write style ++ rest) = .ok (.binary x, rest) := by
  cases x with
  | finite negative m e =>
    obtain ⟨n, htext, hnumber⟩ := Binary64.exists_notated style hx
    rw [← htext, Binary64.Notated.text, List.append_assoc, readScalar_text n.isTidy,
      ← List.append_assoc]
    exact (readNumber_notated n hrest).trans (by rw [hnumber])
  | infinite | nan => cases hx

theorem readScalar_null (rule : NumberRule) (rest : List Char) :
    readScalar rule ("null".toList ++ rest) = .ok (.null, rest) :=
  rfl

theorem readScalar_bool (rule : NumberRule) (b : Bool) (style : Style) (rest : List Char) :
    readScalar rule (writeScalar style (.bool b) ++ rest) = .ok (.bool b, rest) := by
  cases b <;> rfl

end Cambio.Json
