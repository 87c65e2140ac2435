import Cambio.Proofs.Decimal.Scientific
import Mathlib.Data.List.TakeWhile

/-!
# Figures

A figure is a number as it stands in a text: perhaps a sign, digits with at most one point among
them, and perhaps a power of ten. It denotes a rational number by its digits alone. A text is read
as a finite decimal exactly if it is a figure, but for blanks, underscores and the script of its
digits, and the power of ten is in range; the decimal then has the value of the figure.

## Main definitions

- `Decimal.Sign`, `Decimal.Power`, `Decimal.Figure` — the parts of a number, and a number
- `Decimal.Figure.value` — the rational number that a figure denotes
- `Decimal.Figure.decimal` — the decimal with its digits

## Main statements

- `Decimal.Figure.value_decimal` — both are one number
- `Decimal.parse_eq_ok_iff_figure` — which texts are read as finite decimals
-/

namespace Cambio.Decimal

/-! ## The parts of a number -/

/-- A sign as it is written. -/
inductive Sign where
  | absent
  | plus
  | minus
  deriving DecidableEq, Repr

/-- The characters of a sign. -/
def Sign.text : Sign → List Char
  | .absent => []
  | .plus => ['+']
  | .minus => ['-']

/-- A number with this sign is negative. -/
def Sign.isMinus : Sign → Bool
  | .minus => true
  | .absent | .plus => false

/-- A power of ten as it is written: a letter, perhaps a sign, and digits. -/
structure Power where
  letter : Char
  sign : Sign
  digits : List Char
  isLetter : letter = 'e' ∨ letter = 'E'
  digits_ne_nil : digits ≠ []
  isBasicDigit_of_mem : ∀ c ∈ digits, isBasicDigit c = true

/-- The characters of a power of ten. -/
def Power.text (p : Power) : List Char :=
  p.letter :: (p.sign.text ++ p.digits)

/-- The exponent of a power of ten. -/
def Power.exponent (p : Power) : Int :=
  if p.sign.isMinus then -(Nat.ofDigitChars 10 p.digits 0 : Int) else Nat.ofDigitChars 10 p.digits 0

/-- A number as it is written: digits with at most one point among them, perhaps after a sign and
    perhaps with a power of ten. -/
structure Figure where
  sign : Sign
  /-- The digits before the point. -/
  whole : List Char
  /-- The digits after the point, if there is one. -/
  fraction : Option (List Char)
  power : Option Power
  isBasicDigit_of_mem : ∀ c ∈ whole ++ fraction.getD [], isBasicDigit c = true
  digits_ne_nil : whole ++ fraction.getD [] ≠ []

namespace Figure

variable (f : Figure)

/-- The figure without its power of ten. -/
def numeral : Numeral :=
  ⟨f.sign.isMinus, f.whole, f.fraction, f.isBasicDigit_of_mem⟩

/-- The power of ten as it is written, if there is one. -/
def powerText : List Char :=
  f.power.elim [] Power.text

/-- The figure as it is written. -/
def text : List Char :=
  f.sign.text ++ (f.numeral.body ++ f.powerText)

/-- The power of ten of the last digit. -/
def exponent : Int :=
  f.power.elim 0 Power.exponent - f.numeral.places

/-- The number that the figure denotes. -/
def value : ℚ :=
  (if f.sign.isMinus then -1 else 1) * (Nat.ofDigitChars 10 f.numeral.digits 0 : ℚ) *
    10 ^ f.exponent

/-- The decimal with the digits of the figure. -/
def decimal : Decimal :=
  .finite f.sign.isMinus (digitsValue 0 f.numeral.digits) f.exponent

theorem value_decimal : f.decimal.value = f.value := by
  rw [decimal, Decimal.value, magnitude, digitsValue_eq, value]
  cases f.sign.isMinus <;> simp

end Figure

/-! ## Signs and powers of ten, taken off a text -/

variable {s rest : List Char} {e : Int}

theorem exists_sign (s : List Char) :
    ∃ sign : Sign, s = sign.text ++ (splitSign s).2 ∧ sign.isMinus = (splitSign s).1 := by
  unfold splitSign
  split
  · exact ⟨.minus, rfl, rfl⟩
  · exact ⟨.plus, rfl, rfl⟩
  · exact ⟨.absent, rfl, rfl⟩

/-- A sign is taken off what starts with none. -/
theorem splitSign_append (sign : Sign) (hrest : ∀ c, rest.head? = some c → c ≠ '-' ∧ c ≠ '+') :
    splitSign (sign.text ++ rest) = (sign.isMinus, rest) := by
  cases sign with
  | plus | minus => rfl
  | absent =>
    change splitSign rest = (false, rest)
    unfold splitSign
    split
    · exact absurd rfl (hrest '-' rfl).1
    · exact absurd rfl (hrest '+' rfl).2
    · rfl

theorem ne_sign_of_isBasicDigit {c : Char} (h : isBasicDigit c = true) : c ≠ '-' ∧ c ≠ '+' := by
  constructor <;> rintro rfl <;> exact absurd h (by decide)

theorem Power.splitSign_digits (p : Power) (rest : List Char) :
    splitSign (p.sign.text ++ (p.digits ++ rest)) = (p.sign.isMinus, p.digits ++ rest) := by
  refine splitSign_append p.sign fun c hc => ne_sign_of_isBasicDigit ?_
  rw [List.head?_append_of_ne_nil _ p.digits_ne_nil] at hc
  exact p.isBasicDigit_of_mem c (List.mem_of_mem_head? hc)

theorem Power.parseExponent_text (p : Power) : parseExponent p.text = some p.exponent := by
  have hdigits : p.digits ≠ [] ∧ p.digits.all isBasicDigit = true :=
    ⟨p.digits_ne_nil, List.all_eq_true.mpr p.isBasicDigit_of_mem⟩
  have hsign := p.splitSign_digits []
  rw [List.append_nil] at hsign
  rw [text, parseExponent]
  dsimp only
  rw [if_pos p.isLetter, hsign, if_pos hdigits, digitsValue_eq]
  rfl

theorem exists_power (h : parseExponent s = some e) :
    ∃ power : Option Power, s = power.elim [] Power.text ∧ e = power.elim 0 Power.exponent := by
  unfold parseExponent at h
  split at h
  · cases h
    exact ⟨none, rfl, rfl⟩
  · next c rest =>
    split at h
    · next hletter =>
      obtain ⟨sign, hrest, hminus⟩ := exists_sign rest
      dsimp only at h
      split at h
      · next hdigits =>
        obtain rfl := Option.some.inj h
        refine ⟨some ⟨c, sign, (splitSign rest).2, hletter, hdigits.1,
          List.all_eq_true.mp hdigits.2⟩, congrArg _ hrest, ?_⟩
        rw [← hminus, digitsValue_eq]
        rfl
      · cases h
    · cases h

/-! ## Figures, read -/

namespace Figure

variable (f : Figure)

theorem head?_body (c : Char) (rest : List Char) (h : (f.numeral.body ++ rest).head? = some c) :
    isBasicDigit c = true ∨ c = '.' := by
  have hnil := f.numeral.body_ne_nil f.digits_ne_nil
  rw [List.head?_append_of_ne_nil _ hnil] at h
  exact f.numeral.digit_or_point_of_mem_body (List.mem_of_mem_head? h)

theorem splitSign_text (rest : List Char) :
    splitSign (f.text ++ rest) = (f.sign.isMinus, f.numeral.body ++ f.powerText ++ rest) := by
  rw [text, List.append_assoc]
  refine splitSign_append f.sign fun c hc => ?_
  rw [List.append_assoc] at hc
  rcases f.head?_body c _ hc with hdigit | rfl
  · exact ne_sign_of_isBasicDigit hdigit
  · decide

/-- No digit and no point follows a figure without a power of ten, and none is in front of one. -/
theorem head?_powerText (c : Char) (h : f.powerText.head? = some c) : c = 'e' ∨ c = 'E' := by
  unfold powerText at h
  cases hpower : f.power with
  | none =>
    rw [hpower] at h
    cases h
  | some p =>
    rw [hpower] at h
    cases h
    exact p.isLetter

theorem parseMagnitude_text :
    parseMagnitude (f.numeral.body ++ f.powerText) =
      some (digitsValue 0 f.numeral.digits, f.exponent) := by
  have hexponent : parseExponent f.powerText = some (f.power.elim 0 Power.exponent) := by
    unfold powerText
    cases f.power with
    | none => rfl
    | some p => exact p.parseExponent_text
  rw [f.numeral.parseMagnitude_body_append f.digits_ne_nil, hexponent]
  · rfl
  · intro c hc
    rcases f.head?_powerText c hc with rfl | rfl <;> decide
  · intro hc
    rcases f.head?_powerText '.' hc with h | h <;> exact absurd h (by decide)

/-- A text with the characters of a figure is read by its digits. -/
theorem parse_of_plainText (h : plainText s = some f.text) :
    parse s = bounded f.sign.isMinus (digitsValue 0 f.numeral.digits) f.exponent := by
  have hsign := f.splitSign_text []
  rw [List.append_nil, List.append_nil] at hsign
  rw [parse, h]
  dsimp only
  rw [hsign]
  dsimp only
  rw [f.parseMagnitude_text]

end Figure

/-- What is read as a magnitude has the parts of a figure. -/
theorem exists_parts_of_parseMagnitude {c : Nat} {e : Int} (h : parseMagnitude s = some (c, e))
    (sign : Sign) :
    ∃ f : Figure, f.sign = sign ∧ s = f.numeral.body ++ f.powerText ∧
      c = digitsValue 0 f.numeral.digits ∧ e = f.exponent := by
  have hwhole : ∀ x ∈ s.takeWhile isBasicDigit, isBasicDigit x = true :=
    fun _ hx => List.mem_takeWhile_imp hx
  have hs : s = s.takeWhile isBasicDigit ++ s.dropWhile isBasicDigit :=
    List.takeWhile_append_dropWhile.symm
  unfold parseMagnitude at h
  dsimp only at h
  generalize s.takeWhile isBasicDigit = whole at h hwhole hs
  generalize s.dropWhile isBasicDigit = after at h hs
  split at h
  · next more =>
    have hfraction : ∀ x ∈ more.takeWhile isBasicDigit, isBasicDigit x = true :=
      fun _ hx => List.mem_takeWhile_imp hx
    have hmore : more = more.takeWhile isBasicDigit ++ more.dropWhile isBasicDigit :=
      List.takeWhile_append_dropWhile.symm
    dsimp only at h
    generalize more.takeWhile isBasicDigit = fraction at h hfraction hmore
    generalize more.dropWhile isBasicDigit = rest at h hmore
    split at h
    · cases h
    · next hdigits =>
      obtain ⟨exponent, hexponent, hpair⟩ := Option.map_eq_some_iff.mp h
      obtain ⟨power, hrest, hpower⟩ := exists_power hexponent
      cases hpair
      refine ⟨⟨sign, whole, some fraction, power, ?_, ?_⟩, rfl, ?_, ?_, ?_⟩
      · exact fun x hx => (List.mem_append.mp hx).elim (hwhole x) (hfraction x)
      · exact fun hnil => hdigits (List.append_eq_nil_iff.mp hnil)
      · rw [hs, hmore, hrest, Numeral.body_eq_of_some _ rfl, List.append_assoc]
        rfl
      · exact (digitsValue_append 0 whole fraction).symm
      · rw [hpower]
        rfl
  · dsimp only at h
    split at h
    · cases h
    · next hdigits =>
      obtain ⟨exponent, hexponent, hpair⟩ := Option.map_eq_some_iff.mp h
      obtain ⟨power, hrest, hpower⟩ := exists_power hexponent
      cases hpair
      refine ⟨⟨sign, whole, none, power, ?_, ?_⟩, rfl, ?_, ?_, ?_⟩
      · rw [Option.getD_none, List.append_nil]
        exact hwhole
      · rw [Option.getD_none, List.append_nil]
        exact fun hnil => hdigits ⟨hnil, rfl⟩
      · rw [hs, hrest, Numeral.body_eq_of_none _ rfl]
        rfl
      · exact (digitsValue_append 0 whole []).symm
      · rw [hpower]
        rfl

/-- **Texts of decimals**: a text is read as a finite decimal exactly if its basic characters are a
figure with a power of ten in range, and the decimal has the digits of the figure. -/
theorem parse_eq_ok_iff_figure {d : Decimal} :
    parse s = .ok d ∧ d.isFinite = true ↔
      ∃ f : Figure, plainText s = some f.text ∧ f.decimal.IsHeld ∧ d = f.decimal := by
  constructor
  · rintro ⟨h, hfinite⟩
    have hheld := isHeld_of_parse h hfinite
    unfold parse at h
    split at h
    · cases h
    · next plain hplain =>
      obtain ⟨sign, hsign, hminus⟩ := exists_sign plain
      dsimp only at h
      split at h
      · next c e hmagnitude =>
        obtain ⟨f, hf, hbody, rfl, rfl⟩ := exists_parts_of_parseMagnitude hmagnitude sign
        obtain ⟨rfl, -⟩ := bounded_eq_ok_iff.mp h
        rw [← hminus, ← hf] at hheld ⊢
        refine ⟨f, ?_, hheld, rfl⟩
        rw [hplain, hsign, hbody, ← hf]
        rfl
      · split at h
        · next hspecial =>
          cases h
          rw [isFinite_of_parseSpecial hspecial] at hfinite
          cases hfinite
        · cases h
  · rintro ⟨f, hplain, hheld, rfl⟩
    exact ⟨(f.parse_of_plainText hplain).trans (bounded_eq_ok_iff.mpr ⟨rfl, hheld⟩), rfl⟩

end Cambio.Decimal
