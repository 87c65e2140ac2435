import Cambio.Proofs.Keypad.Reading
import Cambio.Proofs.Keypad.Step

/-!
# Typed numbers

Typing puts digits after each other and ignores every point but the first. What is on display
differs from what was typed, by leading zeros and by a zero before the point, but it is a numeral
of the same value.

## Main definitions

- `Decimal.Numeral.push`, `Decimal.Numeral.withPoint` — a numeral one key later
- `Keypad.typedOn` — a display after one more character, of whatever script
- `Keypad.Operand` — digits and points that are typed, `Keypad.Operand.value?` their value
- `Keypad.IsTyped` — a display after typing

## Main statements

- `Keypad.pressAll_map_entryKey` — typing changes nothing but the display, character by character
- `Keypad.pressAll_entryKeys` — the same for digits from nought to nine, with the display after it
- `Keypad.parse_of_isTyped`, `Keypad.valueOf?_of_isTyped` — the display is read as what was typed,
  and has its value
-/

namespace Cambio

namespace Decimal.Numeral

variable (n : Numeral) {c : Char}

/-- A numeral with a digit after it. -/
def push (c : Char) (h : isBasicDigit c = true) : Numeral :=
  match hfraction : n.fraction with
  | none =>
    { n with
      whole := n.whole ++ [c]
      isBasicDigit_of_mem := by
        have hall := n.isBasicDigit_of_mem
        simp_all [or_imp] }
  | some ds =>
    { n with
      fraction := some (ds ++ [c])
      isBasicDigit_of_mem := by
        have hall := n.isBasicDigit_of_mem
        simp_all [or_imp, forall_and] }

/-- A numeral with a point after it, unless it has a point already. -/
def withPoint : Numeral where
  negative := n.negative
  whole := n.whole
  fraction := some (n.fraction.getD [])
  isBasicDigit_of_mem := n.isBasicDigit_of_mem

theorem negative_push (h : isBasicDigit c = true) : (n.push c h).negative = n.negative := by
  unfold push
  split <;> rfl

theorem text_push (h : isBasicDigit c = true) : (n.push c h).text = n.text ++ [c] := by
  unfold push
  split
  · next hfraction => simp [text, body, hfraction]
  · next ds hfraction => simp [text, body, hfraction]

theorem digits_push (h : isBasicDigit c = true) : (n.push c h).digits = n.digits ++ [c] := by
  unfold push
  split
  · next hfraction => simp [digits, hfraction]
  · next ds hfraction => simp [digits, hfraction]

theorem isSome_fraction_push (h : isBasicDigit c = true) :
    (n.push c h).fraction.isSome = n.fraction.isSome := by
  unfold push
  split
  · next hfraction => simp [hfraction]
  · next ds hfraction => simp [hfraction]

theorem places_push (h : isBasicDigit c = true) :
    (n.push c h).places = n.places + if n.fraction.isSome then 1 else 0 := by
  unfold push
  split
  · next hfraction => simp [places, hfraction]
  · next ds hfraction => simp [places, hfraction]

theorem point_mem_text : '.' ∈ n.text ↔ n.fraction.isSome = true := by
  have hdigit {ds : List Char} (h : ∀ c ∈ ds, isBasicDigit c = true) : '.' ∉ ds :=
    fun hmem => absurd (h '.' hmem) (by decide)
  have hsign : '.' ∉ signText n.negative := by
    unfold signText
    split <;> decide
  have hwhole := hdigit fun c => n.isBasicDigit_of_mem_whole (c := c)
  cases hfraction : n.fraction with
  | none => simp [text, n.body_eq_of_none hfraction, hsign, hwhole]
  | some ds => simp [text, n.body_eq_of_some hfraction]

theorem text_withPoint :
    n.withPoint.text = if '.' ∈ n.text then n.text else n.text ++ ['.'] := by
  have hpoint := n.point_mem_text
  cases hfraction : n.fraction with
  | none =>
    rw [if_neg (by simp [hpoint, hfraction])]
    simp [text, withPoint, body, hfraction]
  | some ds =>
    rw [if_pos (by simp [hpoint, hfraction])]
    simp [text, withPoint, body, hfraction]

end Decimal.Numeral

namespace Keypad

open Decimal (isBasicDigit digitsValue Numeral)

/-! ## What is typed -/

/-- The digits among characters. -/
def typedDigits (t : List Char) : List Char :=
  t.filter isBasicDigit

/-- What follows the first point, the point included. -/
def fromPoint (t : List Char) : List Char :=
  t.dropWhile (· ≠ '.')

/-- The count of digits after the first point. -/
def typedPlaces (t : List Char) : Nat :=
  (typedDigits (fromPoint t)).length

theorem typedDigits_append (s t : List Char) :
    typedDigits (s ++ t) = typedDigits s ++ typedDigits t :=
  List.filter_append _ _

theorem typedDigits_digit {c : Char} (h : isBasicDigit c = true) : typedDigits [c] = [c] := by
  simp [typedDigits, h]

theorem typedDigits_point : typedDigits ['.'] = [] :=
  rfl

theorem fromPoint_append_of_mem {s : List Char} (h : '.' ∈ s) (t : List Char) :
    fromPoint (s ++ t) = fromPoint s ++ t := by
  induction s with
  | nil => cases h
  | cons c s ih =>
    by_cases hc : c = '.'
    · subst hc
      rfl
    · have hs : '.' ∈ s := by simpa [Ne.symm hc] using h
      simpa [fromPoint, hc] using ih hs

theorem fromPoint_append_of_notMem {s : List Char} (h : '.' ∉ s) (t : List Char) :
    fromPoint (s ++ t) = fromPoint t := by
  apply List.dropWhile_append_of_pos
  intro c hc
  have hne : c ≠ '.' := fun heq => h (heq ▸ hc)
  simpa using hne

theorem fromPoint_of_notMem {s : List Char} (h : '.' ∉ s) : fromPoint s = [] := by
  have happend := fromPoint_append_of_notMem h []
  rwa [List.append_nil] at happend

theorem typedPlaces_digit {s : List Char} {c : Char} (h : isBasicDigit c = true) :
    typedPlaces (s ++ [c]) = typedPlaces s + if '.' ∈ s then 1 else 0 := by
  have hc : '.' ∉ [c] := by
    intro hmem
    rw [← List.mem_singleton.mp hmem] at h
    exact absurd h (by decide)
  unfold typedPlaces
  by_cases hs : '.' ∈ s
  · rw [fromPoint_append_of_mem hs, typedDigits_append, typedDigits_digit h, if_pos hs]
    simp
  · rw [fromPoint_append_of_notMem hs, fromPoint_of_notMem hs, fromPoint_of_notMem hc, if_neg hs]
    rfl

theorem typedPlaces_point (s : List Char) : typedPlaces (s ++ ['.']) = typedPlaces s := by
  unfold typedPlaces
  by_cases hs : '.' ∈ s
  · rw [fromPoint_append_of_mem hs, typedDigits_append, typedDigits_point, List.append_nil]
  · rw [fromPoint_append_of_notMem hs, fromPoint_of_notMem hs]
    rfl

/-- The key of a character that belongs to a number. -/
def entryKey (c : Char) : Key :=
  if c = '.' then .point else .digit [c]

/-! ## What is shown -/

/-- A numeral shows what was typed: a number without a sign that has all digits after the point and
    the same value. -/
structure Shows (n : Numeral) (t : List Char) : Prop where
  negative : n.negative = false
  whole : n.whole ≠ []
  value : digitsValue 0 n.digits = digitsValue 0 (typedDigits t)
  point : n.fraction.isSome = true ↔ '.' ∈ t
  places : n.places = typedPlaces t

/-- A display after typing. -/
def IsTyped (t shown : List Char) : Prop :=
  ∃ n : Numeral, n.text = shown ∧ Shows n t

/-- A numeral of one digit. -/
def oneDigit (c : Char) (h : isBasicDigit c = true) : Numeral where
  negative := false
  whole := [c]
  fraction := none
  isBasicDigit_of_mem := by simpa using h

theorem isTyped_blankDisplay : IsTyped [] blankDisplay :=
  ⟨oneDigit '0' rfl, rfl, rfl, List.cons_ne_nil _ _, rfl, by decide, rfl⟩

/-- A first digit replaces what was on display. -/
theorem isTyped_digit {c : Char} (h : isBasicDigit c = true) {t : List Char}
    (hvalue : digitsValue 0 (typedDigits t) = 0) (hpoint : '.' ∉ t) : IsTyped (t ++ [c]) [c] := by
  have hc : c ≠ '.' := by
    rintro rfl
    exact absurd h (by decide)
  have hplaces : typedPlaces t = 0 := by rw [typedPlaces, fromPoint_of_notMem hpoint]; rfl
  refine ⟨oneDigit c h, rfl, rfl, List.cons_ne_nil _ _, ?_, ?_, ?_⟩
  · rw [typedDigits_append, typedDigits_digit h, Decimal.digitsValue_append, hvalue]
    rfl
  · simp [oneDigit, hpoint, Ne.symm hc]
  · rw [typedPlaces_digit h, hplaces, if_neg hpoint]
    rfl

theorem isTyped_point : IsTyped ['.'] ['0', '.'] :=
  ⟨(oneDigit '0' rfl).withPoint, rfl, rfl, List.cons_ne_nil _ _, rfl, by decide, rfl⟩

variable {n : Numeral} {t : List Char}

theorem Shows.push (hn : Shows n t) {c : Char} (h : isBasicDigit c = true) :
    Shows (n.push c h) (t ++ [c]) := by
  have hc : c ≠ '.' := by
    rintro rfl
    exact absurd h (by decide)
  constructor
  · rw [n.negative_push, hn.negative]
  · unfold Numeral.push
    split
    · simp
    · exact hn.whole
  · rw [n.digits_push, Decimal.digitsValue_append, hn.value, ← Decimal.digitsValue_append,
      typedDigits_append, typedDigits_digit h]
  · rw [n.isSome_fraction_push, hn.point]
    simp [Ne.symm hc]
  · rw [n.places_push, hn.places, typedPlaces_digit h]
    simp only [hn.point]

theorem Shows.withPoint (hn : Shows n t) : Shows n.withPoint (t ++ ['.']) := by
  constructor
  · exact hn.negative
  · exact hn.whole
  · rw [typedDigits_append, typedDigits_point, List.append_nil, ← hn.value]
    rfl
  · simp [Numeral.withPoint]
  · rw [typedPlaces_point, ← hn.places]
    rfl

/-- The display shows nought alone if nothing was typed that counts. -/
theorem Shows.of_blankDisplay (hn : Shows n t) (h : n.text = blankDisplay) :
    digitsValue 0 (typedDigits t) = 0 ∧ '.' ∉ t := by
  have hpoint : ¬ n.fraction.isSome = true := by
    rw [← n.point_mem_text, h]
    decide
  have hfraction : n.fraction = none := by simpa using hpoint
  have hwhole : n.whole = blankDisplay := by
    rw [← h, Numeral.text, hn.negative, n.body_eq_of_none hfraction]
    rfl
  refine ⟨?_, fun hmem => hpoint (hn.point.mpr hmem)⟩
  rw [← hn.value, Numeral.digits, hfraction, hwhole]
  rfl

/-! ## Typing -/

theorem isDigit_of_isBasicDigit {c : Char} (h : isBasicDigit c = true) : Text.isDigit c = true := by
  have hbounds := Decimal.isBasicDigit_iff.mp h
  have hvalue : (Text.digitValue? c).isSome = true := by
    have hzero : 0x30 ∈ Text.scriptZeros := by decide
    rw [Text.digitValue?, Option.isSome_map, List.find?_isSome]
    exact ⟨0x30, hzero, by simp; omega⟩
  rw [Text.isDigit, hvalue, Bool.true_or]

theorem ne_point_of_isDigit {c : Char} (h : Text.isDigit c = true) : c ≠ '.' := by
  rintro rfl
  revert h
  decide

theorem digit_of_isDigit (k : Keypad) {c : Char} (h : Text.isDigit c = true) :
    k.digit [c] = k.recovered.enter [c]
      (if k.recovered.display = blankDisplay then [c] else k.recovered.display ++ [c]) :=
  if_pos h

theorem digit_of_isBasicDigit (k : Keypad) {c : Char} (h : isBasicDigit c = true) :
    k.digit [c] = k.recovered.enter [c]
      (if k.recovered.display = blankDisplay then [c] else k.recovered.display ++ [c]) :=
  digit_of_isDigit k (isDigit_of_isBasicDigit h)

/-- A display with one more character of a number: a nought alone is replaced by a digit, and a
    second point is ignored. -/
def typedOn (shown : List Char) (c : Char) : List Char :=
  if c = '.' then if '.' ∈ shown then shown else shown ++ ['.']
  else if shown = blankDisplay then [c] else shown ++ [c]

/-- A number is being typed: its display is under edit, or it replaces the display. -/
def IsTyping (k : Keypad) (t : List Char) : Prop :=
  k.phase = .editing ∧ IsTyped t k.display ∨ k.phase ≠ .editing ∧ t = []

/-- What the next character of a number is put after: the display under edit, or a nought after an
    operator or a result. -/
def entryStart (k : Keypad) : List Char :=
  match k.phase with
  | .editing => k.display
  | _ => blankDisplay

/-- A key of a number changes the display and nothing else. -/
theorem press_entryKey {k : Keypad} {c : Char} (herror : k.hasError = false)
    (hc : Text.isDigit c = true ∨ c = '.') :
    k.press (entryKey c) = { k with display := typedOn k.entryStart c, phase := .editing } := by
  have henter {start continued : List Char} (hstart : typedOn blankDisplay c = start)
      (hcontinued : typedOn k.display c = continued) :
      k.enter start continued =
        { k with display := typedOn k.entryStart c, phase := .editing } := by
    subst hstart hcontinued
    cases hphase : k.phase <;> simp only [enter, entryStart, hphase]
  rcases hc with hdigit | rfl
  · have hpoint := ne_point_of_isDigit hdigit
    rw [entryKey, if_neg hpoint, press, digit_of_isDigit k hdigit,
      recovered_of_not_hasError herror]
    apply henter
    · rw [typedOn, if_neg hpoint, if_pos rfl]
    · rw [typedOn, if_neg hpoint]
  · rw [entryKey, if_pos rfl, press, point, recovered_of_not_hasError herror]
    apply henter
    · rfl
    · rw [typedOn, if_pos rfl]

theorem pressAll_cons (k : Keypad) (key : Key) (keys : List Key) :
    k.pressAll (key :: keys) = (k.press key).pressAll keys :=
  rfl

theorem pressAll_append (k : Keypad) (keys more : List Key) :
    k.pressAll (keys ++ more) = (k.pressAll keys).pressAll more :=
  List.foldl_append

/-- Typing a number changes the display and nothing else. -/
theorem pressAll_map_entryKey {k : Keypad} {s : List Char} (herror : k.hasError = false)
    (hs : ∀ c ∈ s, Text.isDigit c = true ∨ c = '.') (hnil : s ≠ []) :
    k.pressAll (s.map entryKey) =
      { k with display := s.foldl typedOn k.entryStart, phase := .editing } := by
  induction s generalizing k with
  | nil => exact absurd rfl hnil
  | cons c s ih =>
    rw [List.map_cons, pressAll_cons, press_entryKey herror (hs c List.mem_cons_self)]
    -- From the second character on the display is under edit, whatever it was before.
    by_cases hrest : s = []
    · subst hrest
      rfl
    · exact ih (k := { k with display := typedOn k.entryStart c, phase := .editing }) herror
        (fun d hd => hs d (List.mem_cons_of_mem _ hd)) hrest

/-! ## The number on display -/

section Basic

variable {basic : Char → Char} {shown s : List Char}

/-- One character more. The digits on display may be of any script: `basic` takes each to the basic
    digit that it is read as, and leaves the nought and the point. -/
theorem IsTyped.typedOn (hzero : basic '0' = '0') (hpoint : ∀ d, basic d = '.' ↔ d = '.')
    (h : IsTyped t (shown.map basic)) {c : Char} (hc : isBasicDigit (basic c) = true ∨ c = '.') :
    IsTyped (t ++ [basic c]) ((Keypad.typedOn shown c).map basic) := by
  obtain ⟨n, htext, hn⟩ := h
  rcases hc with hdigit | rfl
  · have hc : c ≠ '.' := by
      rw [Ne, ← hpoint]
      intro h
      rw [h] at hdigit
      exact absurd hdigit (by decide)
    rw [Keypad.typedOn, if_neg hc]
    split
    · -- A digit takes the place of a nought alone: nothing was typed so far that counts.
      next hblank =>
      have hnought := hn.of_blankDisplay (by rw [htext, hblank]; exact congrArg ([·]) hzero)
      exact isTyped_digit hdigit hnought.1 hnought.2
    · refine ⟨n.push (basic c) hdigit, ?_, hn.push hdigit⟩
      rw [n.text_push, htext, List.map_append, List.map_singleton]
  · have hmem : '.' ∈ shown.map basic ↔ '.' ∈ shown := by
      simp [List.mem_map, hpoint]
    have hself : basic '.' = '.' := (hpoint '.').mpr rfl
    rw [Keypad.typedOn, if_pos rfl, hself]
    refine ⟨n.withPoint, ?_, hn.withPoint⟩
    rw [n.text_withPoint, htext, apply_ite (List.map basic), List.map_append, List.map_singleton,
      hself]
    simp only [hmem]

theorem IsTyped.foldl_typedOn (hzero : basic '0' = '0') (hpoint : ∀ d, basic d = '.' ↔ d = '.')
    (h : IsTyped t (shown.map basic)) (hs : ∀ c ∈ s, isBasicDigit (basic c) = true ∨ c = '.') :
    IsTyped (t ++ s.map basic) ((s.foldl Keypad.typedOn shown).map basic) := by
  induction s generalizing t shown with
  | nil => simpa using h
  | cons c s ih =>
    have hfirst := h.typedOn hzero hpoint (hs c List.mem_cons_self)
    have hall := ih hfirst fun d hd => hs d (List.mem_cons_of_mem _ hd)
    rwa [List.append_assoc] at hall

end Basic

theorem IsTyping.entryStart {k : Keypad} (h : IsTyping k t) : IsTyped t k.entryStart := by
  rcases h with ⟨hphase, htyped⟩ | ⟨hphase, rfl⟩
  · rwa [Keypad.entryStart, hphase]
  · cases h : k.phase with
    | editing => exact absurd h hphase
    | afterOperator | afterEquals =>
      rw [Keypad.entryStart, h]
      exact isTyped_blankDisplay

/-- Typing a number leaves a numeral of its value on display. -/
theorem pressAll_entryKeys {k : Keypad} {s : List Char} (herror : k.hasError = false)
    (h : IsTyping k t) (hs : ∀ c ∈ s, isBasicDigit c = true ∨ c = '.') (hnil : s ≠ []) :
    ∃ shown, k.pressAll (s.map entryKey) = { k with display := shown, phase := .editing } ∧
      IsTyped (t ++ s) shown := by
  have hstart : IsTyped t (k.entryStart.map id) := by
    rw [List.map_id]
    exact h.entryStart
  have htyped : IsTyped (t ++ s.map id) ((s.foldl typedOn k.entryStart).map id) :=
    hstart.foldl_typedOn rfl (fun _ => Iff.rfl) hs
  rw [List.map_id, List.map_id] at htyped
  exact ⟨_, pressAll_map_entryKey herror (fun c hc => (hs c hc).imp_left isDigit_of_isBasicDigit)
    hnil, htyped⟩

/-- The decimal of all digits, those after the first point as its fraction. -/
def typedDecimal (t : List Char) : Decimal :=
  .finite false (Nat.ofDigitChars 10 (typedDigits t) 0) (-(typedPlaces t : Int))

theorem parse_of_isTyped {shown : List Char} (h : IsTyped t shown) :
    Decimal.parse shown =
      if (typedDecimal t).IsHeld then .ok (typedDecimal t) else .error .invalidOperation := by
  obtain ⟨n, rfl, hn⟩ := h
  have hdigits : n.digits ≠ [] := List.append_ne_nil_of_left_ne_nil hn.whole _
  rw [n.parse_text, Numeral.read, if_neg hdigits, hn.negative, hn.value, hn.places,
    Decimal.digitsValue_eq]
  rfl

/-! ## Operands -/

/-- Digits and points that are typed as one number. -/
structure Operand where
  chars : List Char
  ne_nil : chars ≠ []
  digit_or_point : ∀ c ∈ chars, isBasicDigit c = true ∨ c = '.'

namespace Operand

variable (t : Operand)

/-- The keys that type an operand. -/
def keys : List Key :=
  t.chars.map entryKey

/-- The decimal of all digits, those after the first point as its fraction. -/
def decimal : Decimal :=
  .finite false (Nat.ofDigitChars 10 (typedDigits t.chars) 0) (-(typedPlaces t.chars : Int))

/-- The value of an operand, unless it has more digits than any decimal. -/
def value? : Option ℚ :=
  if t.decimal.IsHeld then
    some (Nat.ofDigitChars 10 (typedDigits t.chars) 0 / 10 ^ typedPlaces t.chars)
  else none

end Operand

/-- What was typed is read from the display. -/
theorem valueOf?_of_isTyped {t : Operand} {shown : List Char} (h : IsTyped t.chars shown) :
    valueOf? shown = t.value? := by
  have hparse : Decimal.parse shown = if t.decimal.IsHeld then .ok t.decimal
      else .error .invalidOperation := parse_of_isTyped h
  unfold valueOf? parseNumber
  rw [hparse, Operand.value?]
  by_cases hheld : t.decimal.IsHeld
  · rw [if_pos hheld, if_pos hheld]
    show some t.decimal.value = _
    rw [Operand.decimal, Decimal.value_finite, Decimal.magnitude, zpow_neg, zpow_natCast]
    rfl
  · rw [if_neg hheld, if_neg hheld]
    rfl

end Keypad

end Cambio
