import Cambio.Binary64.Notation
import Cambio.Proofs.Binary64.Nearest
import Cambio.Proofs.Decimal.Tidy

/-!
# Written numbers

A number is written as a numeral, perhaps with a power of ten after it, whose value is nearest to
the number. The numeral has no zeros before other digits, digits on both sides of a point, and
without a point there is a power of ten: nobody takes it for a whole number.

## Main definitions

- `Binary64.Notated` — a numeral and its power of ten
- `Binary64.Notated.Denotes` — the value that they have

## Main statements

- `Binary64.ofPowerOfTen_shortest` — the fewest digits denote the number that they are found for
- `Binary64.exists_notated` — a number is written in this form and denoted by it
-/

namespace Cambio

namespace Binary64

open Decimal (magnitude digits digitsValue signText adjusted digitCount)

variable {m c : Nat} {e x k : Int} {negative : Bool} {style : Style}

/-! ## The fewest digits -/

theorem magnitude_dropZeros (fuel c : Nat) (x : Int) :
    Decimal.magnitude (dropZeros fuel (c, x)).1 (dropZeros fuel (c, x)).2 =
      Decimal.magnitude c x := by
  induction fuel generalizing c x with
  | zero => rfl
  | succ fuel ih =>
    unfold dropZeros
    split
    · next hzero =>
      have hscale := Decimal.magnitude_scale (c / 10) (x + 1) 1
      rw [Nat.pow_one, Nat.div_mul_cancel (Nat.dvd_of_mod_eq_zero hzero.1)] at hscale
      rw [ih, ← hscale]
      congr 1
      push_cast
      ring
    · rfl

theorem ofPowerOfTen_of_readsBack? {y : Binary64} {top bottom : Nat} {step : Int}
    (h : readsBack? y top bottom step = some (c, x)) : ofPowerOfTen false c x = y := by
  obtain ⟨d, -, hd⟩ := List.exists_of_findSome?_eq_some h
  split_ifs at hd with hback
  cases hd
  exact hback

theorem magnitude_exactDigits (m : Nat) (e : Int) :
    Decimal.magnitude (exactDigits m e).1 (exactDigits m e).2 = m * 2 ^ e := by
  unfold exactDigits
  split
  · next he =>
    rw [Decimal.magnitude, zpow_zero, mul_one, zpow_eq_div two_ne_zero e,
      Int.toNat_of_nonpos (by omega : -e ≤ 0), pow_zero, div_one]
    simp only [Nat.pow_eq]
    push_cast
    rfl
  · next he =>
    have hten : (10 : ℚ) ^ e = 5 ^ e * 2 ^ e := by
      rw [← mul_zpow]
      norm_num
    have hfive : (5 : ℚ) ^ (-e).toNat * 5 ^ e = 1 := by
      rw [← zpow_natCast, ← zpow_add₀ (by norm_num), Int.toNat_of_nonneg (by omega),
        neg_add_cancel, zpow_zero]
    rw [Decimal.magnitude]
    simp only [Nat.pow_eq]
    push_cast
    rw [hten, mul_assoc, ← mul_assoc ((5 : ℚ) ^ (-e).toNat), hfive, one_mul]

/-- **The fewest digits denote the number that they are found for**: the search tries what they
    denote, and when it finds none, all digits do. -/
theorem ofPowerOfTen_shortest (h : (finite negative m e).IsNumber) (hm : m ≠ 0) :
    ofPowerOfTen negative (shortest m e).1 (shortest m e).2 = finite negative m e := by
  unfold shortest
  dsimp only
  rw [ofPowerOfTen_congr (magnitude_dropZeros _ _ _)]
  generalize hfound : List.findSome? _ (List.range 17) = found
  cases found with
  | none => exact ofPowerOfTen_of_isNumber h hm (magnitude_exactDigits m e)
  | some p =>
    obtain ⟨n, -, hn⟩ := List.exists_of_findSome?_eq_some hfound
    exact ofPowerOfTen_sign (ofPowerOfTen_of_readsBack? hn)

theorem shortest_ne_zero (h : (finite negative m e).IsNumber) (hm : m ≠ 0) :
    (shortest m e).1 ≠ 0 := by
  intro hzero
  have hshortest := ofPowerOfTen_shortest h hm
  rw [ofPowerOfTen, if_pos hzero] at hshortest
  cases hshortest
  exact hm rfl

/-! ## Notation -/

/-- A tidy numeral, perhaps with a power of ten, that nobody takes for a whole number. -/
structure Notated (style : Style) where
  numeral : Decimal.Numeral
  power : Option Int
  isTidy : numeral.IsTidy
  isMarked : numeral.fraction ≠ none ∨ power ≠ none

namespace Notated

/-- The numeral and the power as they are written. -/
def text (n : Notated style) : List Char :=
  n.numeral.text ++ n.power.elim [] (powerText style)

/-- The power of ten of the last digit. -/
def exponent (n : Notated style) : Int :=
  n.power.getD 0 - n.numeral.places

/-- The number that is denoted. -/
def number (n : Notated style) : Binary64 :=
  ofPowerOfTen n.numeral.negative (digitsValue 0 n.numeral.digits) n.exponent

/-- A notation has the sign, and the value of a coefficient with a power of ten. -/
structure Denotes (n : Notated style) (negative : Bool) (c : Nat) (x : Int) : Prop where
  sign : n.numeral.negative = negative
  magnitude : Decimal.magnitude (digitsValue 0 n.numeral.digits) n.exponent = Decimal.magnitude c x

theorem Denotes.number_eq {n : Notated style} (h : n.Denotes negative c x) :
    n.number = ofPowerOfTen negative c x := by
  rw [number, h.sign, ofPowerOfTen_congr h.magnitude]

end Notated

/-- Digits with their zeros up to the units, and a zero after the point. -/
theorem exists_notated_units (negative : Bool) (hc : c ≠ 0) (hx : 0 ≤ x) :
    ∃ n : Notated style, n.text =
        signText negative ++ (digits c ++ List.replicate x.toNat '0' ++ ['.', '0']) ∧
      n.Denotes negative c x := by
  let n : Decimal.Numeral :=
    { negative := negative
      whole := digits (c * 10 ^ x.toNat)
      fraction := some ['0']
      isBasicDigit_of_mem := by
        intro y hy
        rcases List.mem_append.mp hy with hdigit | hzero
        · exact Decimal.isBasicDigit_of_mem_digits hdigit
        · rw [List.mem_singleton.mp hzero]
          decide }
  have hvalue : digitsValue 0 n.digits = c * 10 ^ (x.toNat + 1) := by
    change digitsValue 0 (digits (c * 10 ^ x.toNat) ++ ['0']) = _
    rw [Decimal.digitsValue_append, Decimal.digitsValue_digits, Nat.pow_succ, ← Nat.mul_assoc]
    rfl
  refine ⟨⟨n, none, Decimal.isTidy_of_whole rfl (by simp [n]), by simp [n]⟩, ?_, rfl, ?_⟩
  · simp [Notated.text, Decimal.Numeral.text, Decimal.Numeral.body, n, Decimal.digits_mul_pow hc]
  · have hscale := Decimal.magnitude_scale c x (x.toNat + 1)
    have hexponent : x - ((x.toNat + 1 : Nat) : Int) = -1 := by omega
    rw [hexponent] at hscale
    change Decimal.magnitude (digitsValue 0 n.digits) (-1) = _
    rw [hvalue, hscale]

/-- Digits with a point before the last of them. -/
theorem exists_notated_point (negative : Bool) (c : Nat) (hx : x < 0) :
    ∃ n : Notated style, n.text =
        signText negative ++ Decimal.placePoint (digits c) (-x).toNat ∧
      n.Denotes negative c x := by
  have hdigits : ∀ y ∈ digits c, Decimal.isBasicDigit y = true :=
    fun _ hy => Decimal.isBasicDigit_of_mem_digits hy
  have hplaces : (-x).toNat ≠ 0 := by omega
  have hexponent : (0 : Int) - ((-x).toNat : Int) = x := by omega
  refine ⟨⟨Decimal.placed negative hdigits (-x).toNat, none,
    Decimal.isTidy_placed negative c hplaces, .inl (by simp [Decimal.placed])⟩, ?_, rfl, ?_⟩
  · rw [← Decimal.text_placed negative hdigits hplaces, Notated.text]
    exact List.append_nil _
  · rw [Notated.exponent]
    dsimp only
    rw [Decimal.places_placed, Decimal.digits_placed, Decimal.digitsValue_filled,
      Decimal.digitsValue_digits, Option.getD_none, hexponent]

/-- Digits with a point after the first of them, and the power of ten of this one. -/
theorem exists_notated_power (style : Style) (negative : Bool) (c : Nat) (x : Int) :
    ∃ n : Notated style, n.text =
        (Decimal.leadingNumeral negative c).text ++ powerText style (adjusted c x) ∧
      n.Denotes negative c x := by
  have hpos := Decimal.digitCount_pos c
  have hexponent : adjusted c x - ((digitCount c - 1 : Nat) : Int) = x := by
    rw [adjusted]
    omega
  refine ⟨⟨Decimal.leadingNumeral negative c, some (adjusted c x),
    Decimal.isTidy_leadingNumeral negative c, .inr (by simp)⟩, rfl, rfl, ?_⟩
  rw [Notated.exponent]
  dsimp only
  rw [Decimal.leadingNumeral_digits, Decimal.leadingNumeral_places, Decimal.digitsValue_digits,
    Option.getD_some, hexponent]

theorem exists_notated_layout (style : Style) (negative : Bool) (hc : c ≠ 0) (x : Int) :
    ∃ n : Notated style, n.text = signText negative ++ layout style c x ∧
      n.Denotes negative c x := by
  unfold layout
  dsimp only
  split_ifs with hpositional hx
  · exact exists_notated_units negative hc hx
  · exact exists_notated_point negative c (by omega)
  · obtain ⟨n, htext, hdenotes⟩ := exists_notated_power style negative c x
    refine ⟨n, ?_, hdenotes⟩
    rw [htext, Decimal.Numeral.text, List.append_assoc]
    congr 2
    obtain ⟨first, more, hdigits⟩ := List.exists_cons_of_ne_nil (Decimal.digits_ne_nil c)
    rw [Decimal.body_leadingNumeral negative hdigits, hdigits]
    cases more <;> rfl

/-- **Every number is written as a numeral, perhaps with a power of ten, that denotes it.** -/
theorem exists_notated (style : Style) (h : (finite negative m e).IsNumber) :
    ∃ n : Notated style, n.text = write style (finite negative m e) ∧
      n.number = finite negative m e := by
  by_cases hm : m = 0
  · obtain ⟨-, hlowest, -, -⟩ := h
    have he : e = lowestExponent := hlowest.resolve_left (by omega)
    have hzero : Decimal.isBasicDigit '0' = true := rfl
    let n : Decimal.Numeral := ⟨negative, ['0'], some ['0'], by simp [hzero]⟩
    have htidy : n.IsTidy :=
      ⟨List.cons_ne_nil _ _, fun _ => rfl, fun h => List.cons_ne_nil _ _ (Option.some.inj h)⟩
    have hmarked : n.fraction ≠ none := Option.some_ne_none _
    refine ⟨⟨n, none, htidy, .inl hmarked⟩, ?_, ?_⟩
    · rw [write, if_pos hm]
      exact List.append_nil _
    · rw [hm, he]
      rfl
  · obtain ⟨n, htext, hdenotes⟩ := exists_notated_layout style negative
      (shortest_ne_zero h hm) (shortest m e).2
    refine ⟨n, ?_, ?_⟩
    · rw [htext, write, if_neg hm]
    · rw [hdenotes.number_eq, ofPowerOfTen_shortest h hm]

end Binary64

end Cambio
