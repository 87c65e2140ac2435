import Cambio.Proofs.Decimal.Exact
import Cambio.Proofs.Decimal.Scientific

/-!
# Tidy numerals

A tidy numeral has no zero before its other digits and no point without digits on both sides. There
is one such numeral for a sign, a coefficient and a count of places, and positional notation is
made of them: a zero more or less on either side of the point would be another decimal, or no tidy
numeral.

## Main definitions

- `Decimal.Numeral.IsTidy` — the form of numerals in documents and on display
- `Decimal.Numeral.integer` — the tidy numeral of a whole number

## Main statements

- `Decimal.digits_digitsValue` — digits are told by their value, if they do not start with a zero
- `Decimal.Numeral.IsTidy.text_eq` — tidy numerals are positional notation
- `Decimal.exists_tidy_fixed` — positional notation is a tidy numeral
-/

namespace Cambio.Decimal

variable {c places : Nat} {s : List Char}

/-- No zero stands before other digits, and a point stands between digits. -/
structure Numeral.IsTidy (n : Numeral) : Prop where
  whole : n.whole ≠ []
  zero : n.whole.head? = some '0' → n.whole = ['0']
  fraction : n.fraction ≠ some []

theorem Numeral.IsTidy.digits_ne_nil {n : Numeral} (h : n.IsTidy) : n.digits ≠ [] :=
  List.append_ne_nil_of_left_ne_nil h.whole _

/-! ## Leading digits -/

/-- The leading digit is not zero. -/
theorem head?_digits_ne (hc : c ≠ 0) : (digits c).head? ≠ some '0' := by
  intro hzero
  obtain ⟨rest, hrest⟩ := List.head?_eq_some_iff.mp hzero
  have hvalue : digitsValue 0 rest = c := by
    rw [← digitsValue_digits c, hrest]
    rfl
  have hless : c < 10 ^ rest.length := by
    rw [← hvalue]
    exact digitsValue_lt fun x hx =>
      isBasicDigit_of_mem_digits (n := c) (hrest ▸ List.mem_cons_of_mem _ hx)
  have hcount : digitCount c - 1 = rest.length := by rw [digitCount, hrest]; rfl
  exact absurd (hcount ▸ pow_digitCount_le hc) (not_le.mpr hless)

theorem digits_eq_of_head? (h : (digits c).head? = some '0') : digits c = ['0'] := by
  by_cases hc : c = 0
  · rw [hc]
    rfl
  · exact absurd h (head?_digits_ne hc)

/-- A numeral that starts with the digits of a number is tidy, if digits follow its point. -/
theorem isTidy_of_whole {n : Numeral} (hwhole : n.whole = digits c)
    (hfraction : n.fraction ≠ some []) : n.IsTidy where
  whole := hwhole ▸ digits_ne_nil c
  zero := hwhole ▸ digits_eq_of_head?
  fraction := hfraction

/-- A whole number as a numeral. -/
def Numeral.integer (negative : Bool) (c : Nat) : Numeral where
  negative := negative
  whole := Decimal.digits c
  fraction := none
  isBasicDigit_of_mem x hx := isBasicDigit_of_mem_digits (by simpa using hx)

theorem isTidy_integer (negative : Bool) (c : Nat) : (Numeral.integer negative c).IsTidy :=
  isTidy_of_whole rfl nofun

theorem digits_integer (negative : Bool) (c : Nat) :
    (Numeral.integer negative c).digits = digits c :=
  List.append_nil _

theorem isTidy_placed (negative : Bool) (c : Nat) (hplaces : places ≠ 0) :
    (placed negative (fun _ hx => isBasicDigit_of_mem_digits (n := c) hx) places).IsTidy where
  whole := whole_placed_ne_nil negative _ places
  zero := by
    intro hzero
    have hlength := lt_length_filled (digits c) places
    change ((filled (digits c) places).take _).head? = _ at hzero
    change (filled (digits c) places).take _ = _
    rw [List.head?_take, if_neg (by omega)] at hzero
    by_cases hfew : (digits c).length < places + 1
    · -- only one of the zeros stands before the point
      have hone : (filled (digits c) places).length - places = 1 := by
        rw [filled, List.length_append, List.length_replicate]
        omega
      obtain ⟨rest, hrest⟩ := List.head?_eq_some_iff.mp hzero
      rw [hone, hrest]
      rfl
    · rw [filled, Nat.sub_eq_zero_of_le (by omega), List.replicate_zero, List.nil_append] at hzero
      have hone := congrArg List.length (digits_eq_of_head? hzero)
      rw [List.length_singleton] at hone
      omega
  fraction := by
    intro hnil
    have hplaced := places_placed negative
      (fun _ hx => isBasicDigit_of_mem_digits (n := c) hx) places
    rw [Numeral.places, hnil] at hplaced
    exact hplaces hplaced.symm

theorem isTidy_leadingNumeral (negative : Bool) (c : Nat) : (leadingNumeral negative c).IsTidy := by
  obtain ⟨first, more, hdigits⟩ := List.exists_cons_of_ne_nil (digits_ne_nil c)
  have hwhole : (leadingNumeral negative c).whole = [first] := by
    change (digits c).take 1 = _
    rw [hdigits]
    rfl
  refine ⟨by simp [hwhole], fun hzero => ?_, ?_⟩
  · rw [hwhole] at hzero ⊢
    cases hzero
    rfl
  · change (if (digits c).length = 1 then none else some ((digits c).drop 1)) ≠ _
    split
    · simp
    · next hmany =>
      rw [hdigits] at hmany ⊢
      intro hnil
      rw [Option.some.injEq, List.drop_succ_cons, List.drop_zero] at hnil
      rw [hnil] at hmany
      exact hmany rfl

/-! ## Digits and their value -/

theorem digits_of_isBasicDigit {x : Char} (h : isBasicDigit x = true) :
    digits (x.toNat - 0x30) = [x] := by
  obtain ⟨hlow, hhigh⟩ := isBasicDigit_iff.mp h
  have hdigit : digits (x.toNat - 0x30) = [Nat.digitChar (x.toNat - 0x30)] :=
    Nat.toDigits_of_lt_base (by omega)
  have hchar : ∀ d < 10, Nat.digitChar d = Char.ofNat (d + 0x30) := by decide
  rw [hdigit, hchar _ (by omega), Nat.sub_add_cancel (by omega), Char.ofNat_toNat]

/-- Digits that do not start with a zero are those of their value. -/
theorem digits_digitsValue (hs : ∀ x ∈ s, isBasicDigit x = true) (hnil : s ≠ [])
    (hzero : s.head? = some '0' → s = ['0']) : digits (digitsValue 0 s) = s := by
  induction s using List.reverseRecOn with
  | nil => exact absurd rfl hnil
  | append_singleton s x ih =>
    have hx := hs x (by simp)
    by_cases hfirst : s = []
    · subst hfirst
      simpa [digitsValue] using digits_of_isBasicDigit hx
    · -- as a digit follows, those before it do not start with a zero either
      have hhead : s.head? ≠ some '0' := by
        intro h
        have hlast := hzero (by rw [List.head?_append, h]; rfl)
        have hlength := congrArg List.length hlast
        rw [List.length_append, List.length_singleton, List.length_singleton] at hlength
        exact hfirst (List.length_eq_zero_iff.mp (by omega))
      have hdigits := ih (fun y hy => hs y (by simp [hy])) hfirst fun h => absurd h hhead
      have hvalue : digitsValue 0 s ≠ 0 := by
        intro h
        rw [h] at hdigits
        exact hhead (hdigits ▸ rfl)
      obtain ⟨-, hhigh⟩ := isBasicDigit_iff.mp hx
      calc digits (digitsValue 0 (s ++ [x]))
          = Nat.toDigits 10 (10 * digitsValue 0 s + (x.toNat - 0x30)) := by
            rw [digitsValue_append, Nat.mul_comm]
            rfl
        _ = digits (digitsValue 0 s) ++ digits (x.toNat - 0x30) :=
            (Nat.toDigits_append_toDigits (by decide) (Nat.pos_of_ne_zero hvalue)
              (by omega)).symm
        _ = s ++ [x] := by rw [hdigits, digits_of_isBasicDigit hx]

/-- Digits are those of their value, with zeros before them. -/
theorem replicate_append_digits (hs : ∀ x ∈ s, isBasicDigit x = true) (hnil : s ≠ []) :
    List.replicate (s.length - digitCount (digitsValue 0 s)) '0' ++ digits (digitsValue 0 s) =
      s := by
  induction s with
  | nil => exact absurd rfl hnil
  | cons x s ih =>
    by_cases hzero : x = '0' ∧ s ≠ []
    · obtain ⟨rfl, hsome⟩ := hzero
      have hrest := ih (fun y hy => hs y (List.mem_cons_of_mem _ hy)) hsome
      have hvalue : digitsValue 0 ('0' :: s) = digitsValue 0 s := rfl
      have hcount : digitCount (digitsValue 0 s) ≤ s.length := by
        have hlength := congrArg List.length hrest
        rw [List.length_append] at hlength
        exact hlength ▸ Nat.le_add_left _ _
      rw [hvalue, List.length_cons, Nat.succ_sub hcount, List.replicate_succ, List.cons_append,
        hrest]
    · have hself := digits_digitsValue hs hnil fun hhead => by
        cases hhead
        rw [not_and_not_right] at hzero
        rw [hzero rfl]
      rw [digitCount, hself, Nat.sub_self, List.replicate_zero, List.nil_append]

/-! ## Positional notation -/

theorem positional_neg (c places : Nat) :
    positional c (-(places : Int)) = placePoint (digits c) places := by
  by_cases hplaces : places = 0
  · subst hplaces
    by_cases hc : c = 0
    · rw [hc]
      rfl
    · simp [positional, placePoint, hc]
  · rw [positional, if_neg (by omega), Int.neg_neg, Int.toNat_natCast]

namespace Numeral.IsTidy

variable {n : Numeral}

/-- The digits of a tidy numeral are those of their value, with zeros before them only where there
    are too few for the places. -/
theorem filled_digits (h : n.IsTidy) :
    filled (Decimal.digits (digitsValue 0 n.digits)) n.places = n.digits := by
  have hlength : n.digits.length = n.whole.length + n.places := List.length_append
  by_cases hzero : n.whole.head? = some '0'
  · -- the only digit before the point is a zero, so the count of digits is that which is filled up
    rw [h.zero hzero, List.length_singleton, Nat.add_comm] at hlength
    rw [filled, ← hlength]
    exact replicate_append_digits n.isBasicDigit_of_mem h.digits_ne_nil
  · have hself : Decimal.digits (digitsValue 0 n.digits) = n.digits := by
      refine digits_digitsValue n.isBasicDigit_of_mem h.digits_ne_nil fun hhead => ?_
      rw [Numeral.digits, List.head?_append_of_ne_nil _ h.whole] at hhead
      exact absurd hhead hzero
    have hwhole := List.length_pos_of_ne_nil h.whole
    rw [hself, filled, Nat.sub_eq_zero_of_le (by omega), List.replicate_zero, List.nil_append]

theorem body_eq_placePoint (h : n.IsTidy) :
    n.body = placePoint (Decimal.digits (digitsValue 0 n.digits)) n.places := by
  have hfilled := h.filled_digits
  cases hfraction : n.fraction with
  | none =>
    have hplaces : n.places = 0 := by rw [Numeral.places, hfraction]; rfl
    have hsurplus : 0 + 1 - (Decimal.digits (digitsValue 0 n.digits)).length = 0 :=
      Nat.sub_eq_zero_of_le (digitCount_pos _)
    rw [hplaces, filled, hsurplus, List.replicate_zero, List.nil_append] at hfilled
    rw [n.body_eq_of_none hfraction, hplaces, placePoint, if_pos rfl, hfilled, Numeral.digits,
      hfraction, Option.getD_none, List.append_nil]
  | some ds =>
    have hplaces : n.places = ds.length := by rw [Numeral.places, hfraction]; rfl
    have hdigits : n.digits = n.whole ++ ds := by rw [Numeral.digits, hfraction]; rfl
    have hsome : ds.length ≠ 0 := fun hnone =>
      h.fraction (by rw [hfraction, List.length_eq_zero_iff.mp hnone])
    have hbefore : (n.whole ++ ds).length - ds.length = n.whole.length := by
      rw [List.length_append, Nat.add_sub_cancel]
    rw [hplaces, filled, hdigits] at hfilled
    rw [n.body_eq_of_some hfraction, hplaces, placePoint, if_neg hsome, hdigits]
    dsimp only
    rw [hfilled, hbefore, List.take_left, List.drop_left]

/-- Tidy numerals are positional notation. -/
theorem text_eq (h : n.IsTidy) :
    n.text = fixed (.finite n.negative (digitsValue 0 n.digits) (-(n.places : Int))) := by
  rw [text, fixed, h.body_eq_placePoint, positional_neg]

/-- A tidy numeral is the positional notation of the decimal that is read from it. -/
theorem text_eq_of_parse (h : n.IsTidy) {d : Decimal} (hread : parse n.text = .ok d) :
    n.text = d.fixed := by
  rw [n.parse_text, read, if_neg h.digits_ne_nil, bounded_eq_ok_iff] at hread
  rw [hread.1]
  exact h.text_eq

end Numeral.IsTidy

theorem exists_tidy (negative : Bool) (c places : Nat) :
    ∃ n : Numeral, n.IsTidy ∧ n.negative = negative ∧ digitsValue 0 n.digits = c ∧
      n.places = places := by
  by_cases hplaces : places = 0
  · refine ⟨Numeral.integer negative c, isTidy_integer negative c, rfl, ?_, hplaces.symm⟩
    rw [digits_integer, digitsValue_digits]
  · have hbasic : ∀ x ∈ digits c, isBasicDigit x = true := fun x hx => isBasicDigit_of_mem_digits hx
    refine ⟨placed negative hbasic places, isTidy_placed negative c hplaces, rfl, ?_,
      places_placed negative hbasic places⟩
    rw [digits_placed, digitsValue_filled, digitsValue_digits]

/-- A decimal in positional notation is a tidy numeral. -/
theorem exists_tidy_fixed (negative : Bool) (c : Nat) (e : Int) :
    ∃ n : Numeral, n.IsTidy ∧ n.text = fixed (.finite negative c e) ∧ n.negative = negative ∧
      n.places = (-e).toNat := by
  obtain ⟨n, htidy, hnegative, hvalue, hplaces⟩ :=
    exists_tidy negative (unitsCoefficient c e) (-e).toNat
  refine ⟨n, htidy, ?_, hnegative, hplaces⟩
  rw [htidy.text_eq, hnegative, hvalue, hplaces, ← expanded_finite, fixed_expanded]

end Cambio.Decimal
